import Rollout.Upgrade.Run

/-!
# Histories of an upgrade

What can be told of the runs of an upgrade after they ended.

* A `Deed` is one thing that a run does: it enters a stage, makes a call, hears how a wait ended, or
  has a stage behind it.
* `Upgrade.Walk` is a run that found its binary, with its deeds so far: any moment, and any end of
  any wait.
* A `Trial` is the account of a run that ended, and `Upgrade.History` the accounts of all runs of an
  upgrade, in order. Each run has its own context and opens the binary anew.
-/

namespace Rollout

/-- The stages that do something, in order. -/
def Stage.work : List Stage :=
  [.removeFromPool, .killExisting, .copyBinary, .startBinary, .waitHealthy, .addToPool]

/-- The stage that makes a call. -/
def Call.stage? : Call → Option Stage
  | .poolHealth _ | .addPool _ _ _ => none
  | .removeBackend _ _ => some .removeFromPool
  | .find _ _ | .signal _ _ _ => some .killExisting
  | .copy _ _ _ _ => some .copyBinary
  | .start _ _ _ => some .startBinary
  | .probe _ => some .waitHealthy
  | .addBackend _ _ => some .addToPool

/-- Whether a call copies the binary. -/
def Call.isCopy : Call → Bool
  | .copy _ _ _ _ => true
  | _ => false

/-- The call that a wait is for; none for a pause. -/
def Wait.call? : Wait → Option Call
  | .call c | .limited c _ => some c
  | .pause _ => none

/-- Whether the end of a wait is the success that a stage needs. -/
def Event.succeeds (s : Stage) : {w : Wait} → Event w → Prop
  | .call (.removeBackend _ _), .result r => s = .removeFromPool ∧ r = (.ok () : Except _ _)
  | .call (.find _ _), .result r =>
    s = .killExisting ∧ Position.found (r : Except ExecError (List Pid)) = .ok []
  | .call (.copy _ _ _ _), .result r => s = .copyBinary ∧ ∃ count, r = (.ok count : Except _ _)
  | .call (.start _ _ _), .result r => s = .startBinary ∧ r = (.ok () : Except _ _)
  | .limited (.probe _) _, .result r => s = .waitHealthy ∧ r = some ProbeResult.healthy
  | .call (.addBackend _ _), .result r => s = .addToPool ∧ r = (.ok () : Except _ _)
  | _, _ => False

/-- The end of a wait that is no crash. -/
def Event.IsCalm {w : Wait} : Event w → Prop
  | .crashed _ => False
  | _ => True

/-- Something that a run of an upgrade does. -/
inductive Deed where
  | entered (s : Stage)
  | called (c : Call)
  | heard (w : Wait) (e : Event w)
  | passed (s : Stage)

namespace Deed

/-- The stage that is entered. -/
def entered? : Deed → Option Stage
  | entered s => some s
  | _ => none

/-- The call that is made. -/
def called? : Deed → Option Call
  | called c => some c
  | _ => none

/-- The stage that is behind the run. -/
def passed? : Deed → Option Stage
  | passed s => some s
  | _ => none

/-- Whether the success that a stage needs is heard. -/
def Succeeds (s : Stage) : Deed → Prop
  | heard _ e => e.succeeds s
  | _ => False

end Deed

/-- Whether the end of a wait ends the stage of a position with success. -/
def Position.passes (j : Job) (now : Instant) (p : Position) : Event (p.wait j) → Bool
  | .result r => p.resume j now r = .passed
  | _ => false

/-- The call that a run makes where it comes to stand still. -/
def Progress.deeds (j : Job) : Progress → List Deed
  | .waiting p => ((p.wait j).call?.map .called).toList
  | _ => []

namespace Upgrade

/-- What a run does when it begins. -/
def startDeeds (u : Upgrade) (j : Job) (ctx : Context) (m : Moment) : List Deed :=
  .entered (u.start j ctx m).1.current :: (u.start j ctx m).2.deeds j

/-- What a run does where a wait ended. -/
def resumeDeeds (u : Upgrade) (j : Job) (ctx : Context) (m : Moment) (p : Position)
    (e : Event (p.wait j)) : List Deed :=
  .heard (p.wait j) e ::
    ((if p.passes j m.now e then [.passed p.stage, .entered (u.resume j ctx m p e).1.current]
      else []) ++ (u.resume j ctx m p e).2.deeds j)

/-- A run that found its binary, and what it did so far. -/
inductive Walk (u : Upgrade) (j : Job) (ctx : Context) : List Deed → Upgrade × Progress → Prop
  | start (m : Moment) : Walk u j ctx (u.startDeeds j ctx m) (u.start j ctx m)
  | resume {deeds : List Deed} {v : Upgrade} {p : Position} (m : Moment) (e : Event (p.wait j)) :
    Walk u j ctx deeds (v, .waiting p) →
      Walk u j ctx (deeds ++ v.resumeDeeds j ctx m p e) (v.resume j ctx m p e)

end Upgrade

/-- The account of a run that ended. -/
structure Trial where
  /-- What opening the binary gave. -/
  source : Except IoError Entry
  deeds : List Deed
  result : Except UpgradeError Unit

namespace Trial

/-- The stages that succeeded, in order. -/
def passed (t : Trial) : List Stage := t.deeds.filterMap Deed.passed?

/-- The calls, in order. -/
def calls (t : Trial) : List Call := t.deeds.filterMap Deed.called?

/-- The stage where the run began; none when it did not find its binary. -/
def firstStage (t : Trial) : Option Stage := (t.deeds.filterMap Deed.entered?).head?

/-- The stage where the run ended; none when it did not find its binary. -/
def lastStage (t : Trial) : Option Stage := (t.deeds.filterMap Deed.entered?).getLast?

/-- Whether the run succeeded. -/
def isOk (t : Trial) : Bool := t.result.isOk

end Trial

namespace Upgrade

/-- A run of an upgrade that ended: its account and the record that it left. -/
inductive Tries (c : Config) (timeouts : StageTimeouts) (u : Upgrade) : Trial → Upgrade → Prop
  | refused {e : IoError} {v : Upgrade} {result : Except UpgradeError Unit} :
    u.refuse c.src e = (v, .ended result) → Tries c timeouts u ⟨.error e, [], result⟩ v
  | walked {source : Entry} {ctx : Context} {deeds : List Deed} {v : Upgrade}
      {result : Except UpgradeError Unit} :
    Walk u ⟨c, timeouts, u.endpoint, u.backend, source⟩ ctx deeds (v, .ended result) →
      Tries c timeouts u ⟨.ok source, deeds, result⟩ v

/-- The runs of an upgrade one after the other, all of them ended. -/
inductive History (c : Config) (timeouts : StageTimeouts) (u : Upgrade) :
    List Trial → Upgrade → Prop
  | none : History c timeouts u [] u
  | next {trials : List Trial} {v w : Upgrade} {t : Trial} : History c timeouts u trials v →
    Tries c timeouts v t w → History c timeouts u (trials ++ [t]) w

end Upgrade

end Rollout
