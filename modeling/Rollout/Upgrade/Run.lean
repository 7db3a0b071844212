import Rollout.Upgrade.Position

/-!
# Runs of an upgrade

A run walks through the stages, from the stage that failed last time or from the first one. The
context is looked at before every stage and before every wait; where it has stopped, the stage that
was under way or about to begin is the one that failed.
-/

namespace Rollout

/-- How far a run is: it waits, it ended, or it crashed. -/
inductive Progress where
  | waiting (p : Position)
  | ended (result : Except UpgradeError Unit)
  | crashed (text : String)

namespace Upgrade

/-- Ends a run with an error at the current stage. -/
def fail (u : Upgrade) (e : UpgradeError) : Upgrade × Progress :=
  ({ u with failed := some u.current, err := some e }, .ended (.error e))

/-- Waits at a position, unless the context has stopped. -/
def guard (u : Upgrade) (ctx : Context) (m : Moment) (p : Position) : Upgrade × Progress :=
  match ctx.stopped m with
  | some reason => u.fail (.context reason)
  | none => (u, .waiting p)

/-- Begins a stage; the last one ends the run. -/
def enter (u : Upgrade) (j : Job) (ctx : Context) (m : Moment) (s : Stage) : Upgrade × Progress :=
  match Position.enter j m.now s with
  | none => ({ u with current := s, err := none }, .ended (.ok ()))
  | some p => guard { u with current := s } ctx m p

/-- Goes on as a step says. -/
def take (u : Upgrade) (j : Job) (ctx : Context) (m : Moment) : Step → Upgrade × Progress
  | .stay p => u.guard ctx m p
  | .passed => u.enter j ctx m u.current.next
  | .failed e => u.fail e

/-- Begins a run with the opened binary, or ends it where the binary cannot be opened. -/
def start (u : Upgrade) (j : Job) (ctx : Context) (m : Moment) : Upgrade × Progress :=
  enter { u with started := true } j ctx m u.entryStage

/-- Ends a run whose binary cannot be opened. -/
def refuse (u : Upgrade) (src : String) (e : IoError) : Upgrade × Progress :=
  ({ u with err := some (.openSource src e) }, .ended (.error (.openSource src e)))

/-- Goes on where a wait ended. -/
def resume (u : Upgrade) (j : Job) (ctx : Context) (m : Moment) (p : Position) :
    Event (p.wait j) → Upgrade × Progress
  | .result r => u.take j ctx m (p.resume j m.now r)
  | .stopped reason => u.fail (.context reason)
  | .crashed text => (u, .crashed text)

end Upgrade

end Rollout
