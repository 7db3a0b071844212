import Rollout.Channel.Error
import Rollout.Channel.Signal
import Rollout.Context
import Rollout.Files.Basic
import Rollout.Health.Probe
import Rollout.Pool.Basic

/-!
# Calls to the outside

What a rollout asks of the load balancer, the targets and their health endpoints, and what each of
them answers. A rollout does nothing else that others can see.
-/

namespace Rollout

/-- A call to the outside. -/
inductive Call where
  | poolHealth (pattern : String)
  | addPool (pattern : String) (type : PoolType) (checks : HealthChecks)
  | removeBackend (pattern : String) (backend : Backend)
  | addBackend (pattern : String) (backend : Backend)
  | find (host : IpAddr) (name : String)
  | signal (host : IpAddr) (signal : Signal) (pid : Pid)
  | copy (host : IpAddr) (source : Entry) (dst : String) (mode : Nat)
  | start (host : IpAddr) (program : String) (args : List String)
  | probe (endpoint : String)
deriving DecidableEq, Repr

/-- What a call is answered with. -/
abbrev Call.Answer : Call → Type
  | poolHealth _ => Except PoolError PoolHealth
  | addPool _ _ _ | removeBackend _ _ | addBackend _ _ => Except PoolError Unit
  | find _ _ => Except ExecError (List Pid)
  | signal _ _ _ | start _ _ _ => Except ExecError Unit
  | copy _ _ _ _ => Except ExecError Nat
  | probe _ => ProbeResult

/-- What work waits for: the answer to a call, the answer to a call that is given up at a point of
time, or a point of time. -/
inductive Wait where
  | call (c : Call)
  | limited (c : Call) (limit : Instant)
  | pause (until_ : Instant)
deriving DecidableEq, Repr

/-- What a wait ends with; a call that was given up has no answer. -/
abbrev Wait.Result : Wait → Type
  | call c => c.Answer
  | limited c _ => Option c.Answer
  | pause _ => Unit

/-- How a wait ends: with its result, because its context stopped, or in a crash of the work. -/
inductive Event (w : Wait) where
  | result (r : w.Result)
  | stopped (reason : StopReason)
  | crashed (text : String)

end Rollout
