import Rollout.Config.Check
import Rollout.Upgrade.Call
import Rollout.Upgrade.Error
import Rollout.Upgrade.Stage

/-!
# Upgrades

The record of one endpoint's upgrade, and what its runs work with.
-/

namespace Rollout

/-- The limits of the waits inside a stage. -/
structure StageTimeouts where
  /-- How long a binary gets to end when it is asked to. -/
  termWait : Duration
  /-- How long a binary gets to end when it is ended. -/
  killWait : Duration
  /-- How long a started binary gets to become healthy. -/
  healthWindow : Duration
  /-- The time between two looks. -/
  pollInterval : Duration
deriving DecidableEq, Repr, Inhabited

/-- Half a minute to end, ten seconds to be ended, a minute to become healthy, and a second between
two looks. -/
def StageTimeouts.standard : StageTimeouts := ⟨.ofSecs 30, .ofSecs 10, .ofSecs 60, .ofSecs 1⟩

/-- The record of an upgrade. -/
structure Upgrade where
  endpoint : String
  backend : Backend
  /-- Whether a run ever found the binary. -/
  started : Bool
  /-- The stage that ran last. -/
  current : Stage
  /-- The stage that failed last. -/
  failed : Option Stage
  /-- The error of the latest run. -/
  err : Option UpgradeError
deriving DecidableEq, Repr

namespace Upgrade

/-- The record of an endpoint that no run touched. -/
def fresh (endpoint : String) (backend : Backend) : Upgrade :=
  ⟨endpoint, backend, false, .initial, none, none⟩

/-- The record for a configured endpoint. -/
def ofEndpoint (endpoint : String) : Except ConfigError Upgrade :=
  (Backend.ofConfigured endpoint).map (fresh endpoint)

/-- The name of the stage that failed last, or nothing. -/
def failure (u : Upgrade) : String := (u.failed.map Stage.name).getD ""

/-- The stage where the next run starts. -/
def entryStage (u : Upgrade) : Stage := u.failed.getD .initial

end Upgrade

/-- What a run of an upgrade works with. `source` is the opened binary. -/
structure Job where
  config : Config
  timeouts : StageTimeouts
  endpoint : String
  backend : Backend
  source : Entry
deriving DecidableEq, Repr

namespace Job

/-- The permissions of the copied binary. -/
def binaryMode : Nat := 0o770

/-- Where the binary goes. -/
def destination (j : Job) : String := j.config.destination j.backend.port

/-- How long a binary gets to end after a signal. -/
def exitWait (j : Job) : Signal → Duration
  | .term => j.timeouts.termWait
  | .kill => j.timeouts.killWait

end Job

end Rollout
