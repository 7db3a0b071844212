import Rollout.Upgrade.Call

/-!
# Rules of a rehearsal

Rules make calls late, let them fail, or answer in the place of the world. Every rule counts the
calls of its kind that are about its target, and covers a range of them. The first rule that covers
a call has its effect.
-/

namespace Rollout

/-- The kinds of calls. -/
inductive CallKind where
  | health
  | addPool
  | remove
  | add
  | find
  | signal
  | start
  | copy
  | probe
deriving DecidableEq, Repr

namespace Call

/-- The kind of a call. -/
def kind : Call → CallKind
  | poolHealth _ => .health
  | addPool _ _ _ => .addPool
  | removeBackend _ _ => .remove
  | addBackend _ _ => .add
  | find _ _ => .find
  | signal _ _ _ => .signal
  | copy _ _ _ _ => .copy
  | start _ _ _ => .start
  | probe _ => .probe

/-- What a call is about. -/
def target : Call → String
  | poolHealth pattern | addPool pattern _ _ => pattern
  | removeBackend _ b | addBackend _ b => b.text
  | find host _ | signal host _ _ | copy host _ _ _ | start host _ _ => host.text
  | probe endpoint => endpoint

/-- The host of an endpoint. -/
def endpointHost (endpoint : String) : String :=
  match Backend.read endpoint with
  | .ok b => b.ip.text
  | .error _ => endpoint

/-- The host under which a call is noted. -/
def host : Call → String
  | poolHealth _ | addPool _ _ _ => "lb"
  | removeBackend _ b | addBackend _ b => b.ip.text
  | find host _ | signal host _ _ | copy host _ _ _ | start host _ _ => host.text
  | probe endpoint => endpointHost endpoint

end Call

/-- A failure that a rule brings about. -/
inductive Failure where
  | pool (e : PoolError)
  | exec (e : ExecError)
deriving DecidableEq, Repr

/-- What a rule does to the calls that it covers. -/
structure Effect where
  delay : Duration
  /-- The text of a crash. -/
  panic : Option String
  /-- The output of a command, instead of its effect. -/
  stdout : Option String
  /-- The health of a pool, instead of the table's. -/
  health : Option PoolHealth
  /-- The result of a probe. -/
  probe : Option ProbeResult
  failure : Option Failure
  /-- Whether the call takes effect before it fails. -/
  apply : Bool
  /-- How many bytes a failing copy reads. -/
  read : Option Nat
deriving DecidableEq, Repr

namespace Effect

/-- The effect of no rule. -/
def nothing : Effect := ⟨⟨0⟩, none, none, none, none, none, false, none⟩

/-- The failure of a call of the load balancer, where an effect brings one about. -/
def poolError? (e : Effect) : Option PoolError :=
  match e.failure with
  | some (.pool error) => some error
  | _ => none

/-- The failure on a target, where an effect brings one about. -/
def execError? (e : Effect) : Option ExecError :=
  match e.failure with
  | some (.exec error) => some error
  | _ => none

/-- How many bytes a copy reads; none when it reads all of them. -/
def bytes (e : Effect) : Option Nat :=
  match e.execError?, e.read with
  | none, _ => none
  | some _, some n => some n
  | some _, none => if e.apply then none else some 0

/-- Whether a call reads anything before it is decided. -/
def reads (e : Effect) : Call → Bool
  | .copy _ _ _ _ => e.panic.isNone && e.bytes != some 0
  | _ => false

end Effect

/-- A rule: which calls it counts, which of those it covers, and how many it has counted. -/
structure Rule where
  kind : CallKind
  target : Option String
  skip : Nat
  times : Option Nat
  effect : Effect
  seen : Nat
deriving DecidableEq, Repr

namespace Rule

/-- Whether a rule counts a call. -/
def counts (r : Rule) (c : Call) : Bool := r.kind == c.kind && r.target.all (· == c.target)

/-- Whether a rule covers the call that it counted last. -/
def covers (r : Rule) : Bool := r.skip < r.seen && r.times.all (r.seen ≤ r.skip + ·)

/-- Counts a call. -/
def count (r : Rule) (c : Call) : Rule := if r.counts c then { r with seen := r.seen + 1 } else r

/-- The effect of the first rule that covers a call which all of them have counted. -/
def effectOn (rules : List Rule) (c : Call) : Effect :=
  ((rules.find? fun r => r.counts c && r.covers).map (·.effect)).getD .nothing

end Rule

end Rollout
