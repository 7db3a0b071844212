import Rollout.Net.Backend
import Rollout.Text.Quoted

/-!
# Pools

A pool is a named list of backends behind the load balancer. It has a way to choose among its
members and the checks that tell whether a member is healthy.
-/

namespace Rollout

/-- The health of a pool as a whole. -/
inductive PoolStatus where
  | unknown
  | empty
  | full
  | degraded
deriving DecidableEq, Repr, Inhabited

/-- The name of a status. -/
def PoolStatus.text : PoolStatus → String
  | unknown => "UNKNOWN"
  | empty => "EMPTY"
  | full => "FULL"
  | degraded => "DEGRADED"

/-- How a pool chooses a member: the less busy of two at random, or one after the other. -/
inductive PoolType where
  | twoChoices
  | roundRobin
deriving DecidableEq, Repr, Inhabited

/-- The name of a pool type. -/
def PoolType.text : PoolType → String
  | twoChoices => "p2c"
  | roundRobin => "round_robin"

/-- A check: the path to ask for, and the answers of a healthy member. -/
structure StatusCheck where
  urlPath : String
  healthyValues : List String
deriving DecidableEq, Repr, Inhabited

/-- The checks of a pool and the seconds between two rounds of them. -/
structure HealthChecks where
  checks : List StatusCheck
  intervalSecs : UInt64
deriving DecidableEq, Repr, Inhabited

/-- The check that every rollout target is expected to pass. -/
def HealthChecks.standard (path : String) : HealthChecks := ⟨[⟨path, ["ok", "OK"]⟩], 5⟩

/-- What the load balancer reports of a pool. -/
structure PoolHealth where
  status : PoolStatus
  backends : List Backend
deriving DecidableEq, Repr, Inhabited

/-- Why a call of the load balancer failed. -/
inductive PoolError where
  | poolNotFound (pattern : String)
  | poolExists (pattern : String)
  | backendExists (pattern : String) (backend : Backend)
  | backendNotFound (pattern : String) (backend : Backend)
  | connect (addr : String) (reason : String)
  | timeout (path : String)
  | status (path : String) (code : Nat) (body : String)
  | payload (reason : String)
deriving DecidableEq, Repr

/-- What failed, in words. -/
def PoolError.message : PoolError → String
  | poolNotFound pattern => "pool " ++ Text.quoted pattern ++ " not found"
  | poolExists pattern => "pool " ++ Text.quoted pattern ++ " already exists"
  | backendExists pattern backend =>
    "backend " ++ backend.text ++ " already in pool " ++ Text.quoted pattern
  | backendNotFound pattern backend =>
    "backend " ++ backend.text ++ " not in pool " ++ Text.quoted pattern
  | connect addr reason => "can't reach load balancer at " ++ addr ++ ": " ++ reason
  | timeout path => "load balancer request " ++ path ++ " timed out"
  | status path code body =>
    "load balancer returned " ++ Text.Decimal.text code ++ " for " ++ path ++ ": " ++ body
  | payload reason => "bad load balancer payload: " ++ reason

end Rollout
