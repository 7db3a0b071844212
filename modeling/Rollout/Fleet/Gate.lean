import Rollout.Fleet.Basic

/-!
# The check before a rollout

A rollout begins only when the pool is at full health and its members are the configured backends,
compared as addresses and ports.
-/

namespace Rollout.Fleet

/-- Whether a report of the pool allows a rollout. -/
def checkHealth (f : Fleet) (h : PoolHealth) : Except GateError Unit :=
  match h.status with
  | .empty => if f.backends.isEmpty then .ok () else .error (.emptyPool f.backends.length)
  | .full =>
    match h.backends.find? fun b => !f.backends.contains b with
    | some extra => .error (.unexpectedBackend extra)
    | none =>
      match f.backends.find? fun b => !h.backends.contains b with
      | some missing => .error (.missingBackend missing)
      | none => .ok ()
  | status => .error (.poolNotHealthy status)

/-- Whether the load balancer's answer allows a rollout. -/
def checkAnswer (f : Fleet) : Except PoolError PoolHealth → Except GateError Unit
  | .ok h => f.checkHealth h
  | .error e => .error (.poolHealth f.config.pattern e)

end Rollout.Fleet
