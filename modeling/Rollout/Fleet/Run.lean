import Rollout.Fleet.Bulk
import Rollout.Fleet.Gate

/-!
# Runs of a rollout

A rollout asks the load balancer for the pool, upgrades the canaries one by one, waits a while, and
then upgrades the others under their limits.
-/

namespace Rollout

/-- How far a rollout is. -/
inductive Run where
  /-- It waits for the health of the pool. -/
  | gate (ctx : Context)
  /-- It is about to upgrade the canary at an index, or done with the canaries. -/
  | canaryDue (index : Nat)
  /-- It waits in the upgrade of a canary. -/
  | canary (flight : Flight)
  /-- It waits after the canaries. -/
  | cooldown (until_ : Instant)
  /-- It upgrades the others. -/
  | bulk (b : Bulk)
  | ended (result : Except RunError Unit)
  | crashed (text : String)

namespace Run

/-- The message of a clock that cannot show a point of time. -/
def clockOverflow : String := "overflow when adding duration to instant"

/-- Ends the rollout before any upgrade. -/
def refuse (fleet : Fleet) (e : GateError) : Fleet × Run :=
  ({ fleet with endState := .preconditionFailure }, .ended (.error (.gate e)))

/-- Asks for the health of the pool within a context; none when the clock cannot show its end. -/
def askGate (fleet : Fleet) (m : Moment) : Option Context → Fleet × Run
  | none => (fleet, .crashed clockOverflow)
  | some inner =>
    match inner.stopped m with
    | some reason => refuse fleet (.context fleet.config.pattern reason)
    | none => (fleet, .gate inner)

/-- Begins a rollout. -/
def start (fleet : Fleet) (ctx : Context) (m : Moment) : Fleet × Run :=
  askGate fleet m (ctx.within? m.now fleet.config.preconditionTimeout)

/-- Waits after the canaries, unless there were none or the context has stopped. -/
def coolDown (fleet : Fleet) (ctx : Context) (m : Moment) : Fleet × Run :=
  if fleet.canaries = 0 ∨ (ctx.stopped m).isSome then (fleet, .bulk (.start fleet))
  else (fleet, .cooldown (m.now.wakeAfter fleet.config.canaryCooldown))

/-- Ends the rollout at a canary. -/
def canaryFailed (fleet : Fleet) (index : Nat) (e : UpgradeError) : Fleet × Run :=
  let endpoint := ((fleet.upgrade? index).map (·.endpoint)).getD ""
  ({ fleet with endState := .canaryFailure }, .ended (.error (.canary endpoint e)))

/-- Goes on as the landing of the canary at an index says. -/
def canaryLanded (index : Nat) : Fleet × Landing → Fleet × Run
  | (fleet, .flying flight) => (fleet, .canary flight)
  | (fleet, .landed (.ok ())) => (fleet, .canaryDue (index + 1))
  | (fleet, .landed (.error e)) => canaryFailed fleet index e
  | (fleet, .crashed text) => (fleet, .crashed text)

/-- Begins the upgrade of the canary at an index within a context; none when the clock cannot show
its end. -/
def beginCanary (fleet : Fleet) (source : Except IoError Entry) (m : Moment) (index : Nat) :
    Option Context → Fleet × Run
  | none => (fleet, .crashed clockOverflow)
  | some inner => canaryLanded index (Flight.start fleet index inner source m)

/-- Goes on with the canary at an index, or to the wait after the last one. -/
def nextCanary (fleet : Fleet) (ctx : Context) (source : Except IoError Entry) (m : Moment)
    (index : Nat) : Fleet × Run :=
  if index < fleet.canaries then
    beginCanary fleet source m index (ctx.within? m.now fleet.config.actionTimeout)
  else coolDown fleet ctx m

/-- The call that asks for the health of the pool. -/
def gateCall (fleet : Fleet) : Wait := .call (.poolHealth fleet.config.pattern)

/-- Goes on with the load balancer's answer. -/
def gateAnswered (fleet : Fleet) : Event (gateCall fleet) → Fleet × Run
  | .result r =>
    match fleet.checkAnswer r with
    | .ok () => (fleet, .canaryDue 0)
    | .error e => refuse fleet e
  | .stopped reason => refuse fleet (.context fleet.config.pattern reason)
  | .crashed text => (fleet, .crashed text)

/-- Goes on where the wait of a canary ended. -/
def canaryResumed (fleet : Fleet) (m : Moment) (f : Flight) (e : Event f.wait) : Fleet × Run :=
  canaryLanded f.index (f.resume fleet m e)

/-- Goes on after the wait behind the canaries, however it ended. -/
def cooledDown (fleet : Fleet) : Fleet × Run := (fleet, .bulk (.start fleet))

end Run

end Rollout
