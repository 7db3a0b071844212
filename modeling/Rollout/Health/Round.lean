import Rollout.Health.Probe
import Rollout.Pool.Table
import Rollout.Time

/-!
# Rounds of health checks

A round goes over the pools in the order of their names, over the members of each pool in their
order, and over the checks of the pool until one fails. It waits for one probe at a time; whatever
happens to the table meanwhile, `Round.receive` goes on with the table as it then is.
-/

namespace Rollout

/-- A probe that a round waits for: the member and the check, and what is left to do. -/
structure PendingProbe where
  pattern : String
  checks : HealthChecks
  backend : Backend
  check : StatusCheck
  /-- The checks of the member after this one. -/
  later : List StatusCheck
  /-- The members of the pool after this one. -/
  backends : List Backend
  /-- The pools after this one. -/
  patterns : List String
  /-- The shortest interval so far. -/
  interval : Option Duration
deriving DecidableEq, Repr

/-- A round: it waits for a probe, or it is over and says how long to wait for the next one. -/
inductive Round where
  | probing (p : PendingProbe)
  | over (wait : Duration)
deriving DecidableEq, Repr

namespace Round

/-- The wait when there is no pool. -/
def idleInterval : Duration := .ofSecs 5

/-- The wait that the checks of a pool ask for: a second at least. -/
def intervalOf (checks : HealthChecks) : Duration := .ofSecs (max checks.intervalSecs.toNat 1)

/-- The shorter of two waits. -/
def shorter (interval : Option Duration) (d : Duration) : Duration :=
  match interval with
  | none => d
  | some i => if i.nanos ≤ d.nanos then i else d

/-- Visits members until one has to be probed: the member, its first check, its other checks and
the members after it. A member of a pool without checks is healthy. -/
def visitMembers (pattern : String) (checks : HealthChecks) (t : Table) :
    List Backend → Table × Option (Backend × StatusCheck × List StatusCheck × List Backend)
  | [] => (t, none)
  | b :: rest =>
    match checks.checks with
    | [] => visitMembers pattern checks (t.mark pattern b true) rest
    | check :: later => (t, some (b, check, later, rest))

/-- Visits pools until a member has to be probed. -/
def visitPools (t : Table) (interval : Option Duration) : List String → Table × Round
  | [] => (t, .over (interval.getD idleInterval))
  | pattern :: rest =>
    match t.config? pattern with
    | none => visitPools t interval rest
    | some (_, checks) =>
      let interval := some (shorter interval (intervalOf checks))
      match visitMembers pattern checks t (t.backends pattern) with
      | (t, none) => visitPools t interval rest
      | (t, some (backend, check, later, backends)) =>
        (t, .probing ⟨pattern, checks, backend, check, later, backends, rest, interval⟩)

/-- Begins a round. -/
def start (t : Table) : Table × Round := visitPools t none t.patterns

/-- Notes the health of the member that was probed and goes on behind it. -/
def conclude (t : Table) (p : PendingProbe) (healthy : Bool) : Table × Round :=
  match visitMembers p.pattern p.checks (t.mark p.pattern p.backend healthy) p.backends with
  | (t, none) => visitPools t p.interval p.patterns
  | (t, some (backend, check, later, backends)) =>
    (t, .probing { p with backend, check, later, backends })

/-- Goes on with the result of the probe. -/
def receive (t : Table) (p : PendingProbe) (result : ProbeResult) : Table × Round :=
  match result, p.later with
  | .healthy, check :: later => (t, .probing { p with check, later })
  | .healthy, [] => conclude t p true
  | _, _ => conclude t p false

/-- What is left to do: the steps of a round are bounded by it. -/
def bound (t : Table) : Nat :=
  t.pools.foldl (fun n (_, p) => n + p.members.length * (p.checks.checks.length + 1)) 1

/-- Carries a round to its end with a target that answers every probe at once. -/
def finish (answer : PendingProbe → ProbeResult) : Nat → Table → Round → Table × Duration
  | 0, t, _ => (t, idleInterval)
  | _, t, .over wait => (t, wait)
  | fuel + 1, t, .probing p =>
    let (t, r) := receive t p (answer p)
    finish answer fuel t r

/-- A whole round: the table afterwards, and the wait for the next one. -/
def run (answer : PendingProbe → ProbeResult) (t : Table) : Table × Duration :=
  let (after, r) := start t
  finish answer (bound t) after r

end Round

end Rollout
