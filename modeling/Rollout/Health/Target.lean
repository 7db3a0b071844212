import Rollout.Control.Request
import Rollout.Health.Round

/-!
# Rounds among targets and calls

What the targets of a round do with its probes, and what else is done to the table meanwhile.

* A `Fate` is what becomes of a request when nobody stops waiting for it. `Targets` give each path
  of each backend its fate, which stays the same for the time of a round.
* `Round.happen` is one thing that happens while a round goes on: a call of the control plane, or
  the result of the probe that the round waits for.
* `Round.Settles` is a round that no call interrupts, with the probes that it makes.
-/

namespace Rollout

/-- What becomes of a request: a whole answer or a failure after some time, or no end at all. -/
inductive Fate where
  | answers (after : Duration) (status : Nat) (body : Bytes)
  | fails (after : Duration) (reason : String)
  | hangs
deriving DecidableEq, Repr

/-- How the request fares with someone who waits for a limited time. -/
def Fate.within (limit : Duration) : Fate → Http.Delivery
  | answers after status body =>
    if after.nanos ≤ limit.nanos then .answered status body else .timedOut
  | fails after reason => if after.nanos ≤ limit.nanos then .failed reason else .timedOut
  | hangs => .timedOut

/-- What the backends do with requests for paths. -/
abbrev Targets := Backend → String → Fate

namespace Targets

variable (targets : Targets) (limit : Duration)

/-- The result of a check on a backend. -/
def probe (b : Backend) (check : StatusCheck) : ProbeResult :=
  Probe.verdict check.healthyValues ((targets b check.urlPath).within limit)

/-- Whether a backend passes checks. -/
def passes (b : Backend) (checks : List StatusCheck) : Bool :=
  checks.all fun check => targets.probe limit b check == .healthy

/-- The checks up to the first one that a backend fails, this one among them. -/
def asked (b : Backend) : List StatusCheck → List StatusCheck
  | [] => []
  | check :: later =>
    if targets.probe limit b check = .healthy then check :: asked b later else [check]

end Targets

/-- What stays of a table without the health of the members: the pools in order, with their names,
their configuration and their members in order. -/
def Table.roster (t : Table) : List (String × PoolType × HealthChecks × List Backend) :=
  t.pools.map fun (name, p) => (name, p.type, p.checks, p.backends)

/-- The checks of the members of a pool. -/
def Table.checksOf (t : Table) (pattern : String) : List StatusCheck :=
  ((t.config? pattern).map fun config => config.2.checks).getD []

namespace Round

/-- What happens while a round goes on. -/
inductive Event where
  | call (r : Control.Request)
  | result (result : ProbeResult)
deriving DecidableEq, Repr

/-- The call of an event. -/
def Event.call? : Event → Option Control.Request
  | call r => some r
  | result _ => none

/-- The table and the round after an event. A round that is over waits for no result. -/
def happen (state : Table × Round) : Event → Table × Round
  | .call r => ((r.perform state.1).2, state.2)
  | .result result =>
    match state.2 with
    | .probing p => receive state.1 p result
    | .over _ => state

/-- A probe: the pool, the member and the check. -/
abbrev Site := String × Backend × StatusCheck

/-- The probes of a round without calls: by the names of the pools, by their members in order, and
by their checks up to the first that the member fails. -/
def plan (targets : Targets) (limit : Duration) (t : Table) : List Site :=
  t.patterns.flatMap fun pattern => (t.backends pattern).flatMap fun b =>
    (targets.asked limit b (t.checksOf pattern)).map fun check => (pattern, b, check)

/-- A round goes on without calls among targets until it is over: the probes that it makes, the
table afterwards, and the wait for the next round. -/
inductive Settles (targets : Targets) (limit : Duration) :
    Table → Round → List Site → Table → Duration → Prop
  | ended (t : Table) (wait : Duration) : Settles targets limit t (.over wait) [] t wait
  | probing {t after : Table} {p : PendingProbe} {sites : List Site} {wait : Duration}
    (rest : Settles targets limit (receive t p (targets.probe limit p.backend p.check)).1
      (receive t p (targets.probe limit p.backend p.check)).2 sites after wait) :
    Settles targets limit t (.probing p) ((p.pattern, p.backend, p.check) :: sites) after wait

end Round

end Rollout
