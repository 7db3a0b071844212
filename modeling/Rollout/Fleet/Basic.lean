import Rollout.Fleet.Error
import Rollout.Upgrade.Run

/-!
# Fleets

The upgrades of all configured backends, in order, with the count of failures and the state in which
the rollout ended.

* `Fleet.ofConfig` makes the fleet of a valid configuration.
* `Fleet.failures` lists the upgrades whose latest run failed.
-/

namespace Rollout

/-- How a rollout ended. -/
inductive EndState where
  /-- It has not run yet. -/
  | unknown
  /-- Every upgrade was tried and the failures stayed within their limit. -/
  | success
  /-- The pool did not match the configuration; nothing was touched. -/
  | preconditionFailure
  /-- A canary failed. -/
  | canaryFailure
  /-- There were more failures than the limit. -/
  | maxFailuresExceeded
deriving DecidableEq, Repr, Inhabited

/-- The name of an end state. -/
def EndState.text : EndState → String
  | unknown => "Unknown"
  | success => "Success"
  | preconditionFailure => "PreconditionFailure"
  | canaryFailure => "CanaryFailure"
  | maxFailuresExceeded => "MaxFailuresExceeded"

/-- An upgrade whose latest run failed. -/
structure FailedUpgrade where
  /-- Its place among the configured backends. -/
  index : Nat
  endpoint : String
  backend : Backend
  /-- The stage that failed; none when the run failed before any stage. -/
  stage : Option Stage
  error : UpgradeError
deriving DecidableEq, Repr

/-- The name of the stage that failed, or nothing. -/
def FailedUpgrade.failure (f : FailedUpgrade) : String := (f.stage.map Stage.name).getD ""

/-- The upgrades of all configured backends. -/
structure Fleet where
  config : Config
  timeouts : StageTimeouts
  backends : List Backend
  upgrades : List Upgrade
  /-- The failures counted against the limit. -/
  failureCount : Nat
  endState : EndState
  /-- How many upgrades were begun after the canaries. -/
  admitted : Nat
deriving DecidableEq, Repr

namespace Fleet

/-- The fleet of a configuration, which is checked first. -/
def ofConfig (c : Config) (timeouts : StageTimeouts) : Except ConfigError Fleet := do
  c.check
  let backends ← c.backendList
  let upgrades ← c.backends.mapM Upgrade.ofEndpoint
  return ⟨c, timeouts, backends, upgrades, 0, .unknown, 0⟩

/-- The number of upgrades. -/
def size (f : Fleet) : Nat := f.upgrades.length

/-- The number of canaries. -/
def canaries (f : Fleet) : Nat := min f.config.canaryNum.toNat f.size

/-- The most upgrades under way at a time after the canaries. -/
def capacity (f : Fleet) : Nat := min f.config.concurrency.toNat (f.size - f.canaries)

/-- The limit of failures after the canaries. -/
def maxFailures (f : Fleet) : Nat := f.config.maxFailures.toNat

/-- The upgrade at an index. -/
def upgrade? (f : Fleet) (index : Nat) : Option Upgrade := f.upgrades[index]?

/-- The fleet with an upgrade at an index. -/
def put (f : Fleet) (index : Nat) (u : Upgrade) : Fleet :=
  { f with upgrades := f.upgrades.set index u }

/-- What a run of an upgrade works with. -/
def job (f : Fleet) (u : Upgrade) (source : Entry) : Job :=
  ⟨f.config, f.timeouts, u.endpoint, u.backend, source⟩

/-- The upgrades of a list whose latest run failed, counted from an index. -/
def failuresFrom : Nat → List Upgrade → List FailedUpgrade
  | _, [] => []
  | index, u :: rest =>
    match u.err with
    | some e => ⟨index, u.endpoint, u.backend, u.failed, e⟩ :: failuresFrom (index + 1) rest
    | none => failuresFrom (index + 1) rest

/-- The upgrades whose latest run failed, in order. -/
def failures (f : Fleet) : List FailedUpgrade := failuresFrom 0 f.upgrades

end Fleet

/-- A run of an upgrade within a fleet: it waits where `position` says, within a context. -/
structure Flight where
  index : Nat
  ctx : Context
  job : Job
  position : Position
deriving DecidableEq, Repr

/-- How beginning or resuming a flight turned out. -/
inductive Landing where
  | flying (flight : Flight)
  | landed (result : Except UpgradeError Unit)
  | crashed (text : String)

namespace Flight

/-- What a flight waits for. -/
def wait (f : Flight) : Wait := f.position.wait f.job

/-- The flight or its landing, from the progress of its run. -/
def landing (index : Nat) (ctx : Context) (job : Job) : Progress → Landing
  | .waiting p => .flying ⟨index, ctx, job, p⟩
  | .ended result => .landed result
  | .crashed text => .crashed text

/-- Begins the upgrade at an index, with what opening the binary gave. -/
def start (fleet : Fleet) (index : Nat) (ctx : Context) (source : Except IoError Entry)
    (m : Moment) : Fleet × Landing :=
  match fleet.upgrade? index with
  | none => (fleet, .landed (.ok ()))
  | some u =>
    match source with
    | .error e =>
      let (u, p) := u.refuse fleet.config.src e
      (fleet.put index u, landing index ctx (fleet.job u .directory) p)
    | .ok source =>
      let job := fleet.job u source
      let (u, p) := u.start job ctx m
      (fleet.put index u, landing index ctx job p)

/-- Goes on where the wait of a flight ended. -/
def resume (fleet : Fleet) (f : Flight) (m : Moment) (e : Event f.wait) : Fleet × Landing :=
  match fleet.upgrade? f.index with
  | none => (fleet, .landed (.ok ()))
  | some u =>
    let (u, p) := u.resume f.job f.ctx m f.position e
    (fleet.put f.index u, landing f.index f.ctx f.job p)

end Flight

end Rollout
