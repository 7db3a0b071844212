import Rollout.Config.Error
import Rollout.Upgrade.Error

/-!
# Why a rollout stops

The errors of the check before a rollout, and of the rollout as a whole.
-/

namespace Rollout

/-- Why the pool does not allow a rollout. -/
inductive GateError where
  | poolHealth (pattern : String) (source : PoolError)
  | context (pattern : String) (source : StopReason)
  | emptyPool (configured : Nat)
  | unexpectedBackend (backend : Backend)
  | missingBackend (backend : Backend)
  | poolNotHealthy (status : PoolStatus)
deriving DecidableEq, Repr

/-- Why the pool does not allow a rollout, in words. -/
def GateError.message : GateError → String
  | poolHealth pattern source => "pool health for " ++ pattern ++ " failed: " ++ source.message
  | context pattern source =>
    "pool health for " ++ pattern ++ " did not answer: " ++ source.message
  | emptyPool configured =>
    "pool is empty but " ++ Text.Decimal.text configured ++ " backends are configured"
  | unexpectedBackend b => "backend " ++ b.text ++ " is in the pool but not in the config"
  | missingBackend b => "configured backend " ++ b.text ++ " is missing from the pool"
  | poolNotHealthy status => "pool was not at full health, was " ++ status.text

/-- Why a rollout stopped. -/
inductive RunError where
  | config (source : ConfigError)
  | gate (source : GateError)
  | canary (endpoint : String) (source : UpgradeError)
  | maxFailuresExceeded (failures max : Nat)
  | retryExhausted (remaining passes : Nat)
  | interrupted (reason : StopReason)
deriving DecidableEq, Repr

namespace RunError

/-- Why a rollout stopped, in words. -/
def message : RunError → String
  | config source => "could not create workflow: " ++ source.message
  | gate source => "precondition failed: " ++ source.message
  | canary endpoint source =>
    "canary failure on endpoint " ++ endpoint ++ ": " ++ source.message
  | maxFailuresExceeded failures max =>
    "exceeded max failures: " ++ Text.Decimal.text failures ++ " > " ++ Text.Decimal.text max
  | retryExhausted remaining passes =>
    Text.Decimal.text remaining ++ " endpoint(s) still failing after " ++
      Text.Decimal.text passes ++ " retry passes"
  | interrupted reason => "retries interrupted: " ++ reason.message

end RunError

end Rollout
