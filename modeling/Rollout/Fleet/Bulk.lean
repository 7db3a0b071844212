import Rollout.Fleet.Basic

/-!
# Upgrades under a limit

After the canaries the other upgrades run side by side. Each of them needs one of a fixed number of
permits, and none is begun once there are more failures than the limit.

* The lead takes a permit, then reads the count of failures, then begins the next upgrade. These are
  three steps, and upgrades may end between them.
* An upgrade that ended still holds its permit while its failure is counted; only then the permit is
  free again. An upgrade that crashed frees its permit at once, and its failure is counted when the
  lead gathers what is left.
-/

namespace Rollout

/-- What the lead is doing: it wants a permit, has one, has seen that the failures stay within
their limit, or waits for the upgrades under way. -/
inductive Lead where
  | seeking
  | holding
  | cleared
  | draining
deriving DecidableEq, Repr

/-- How far an admitted upgrade is. All of them hold a permit. -/
inductive Admitted where
  | queued (index : Nat) (ctx : Context)
  | flying (flight : Flight)
  | landed (index : Nat) (failed : Bool)
  | counted (index : Nat)
deriving DecidableEq, Repr

/-- The place of an admitted upgrade in the fleet. -/
def Admitted.index : Admitted → Nat
  | queued index _ => index
  | flying flight => flight.index
  | landed index _ => index
  | counted index => index

/-- The upgrades after the canaries. -/
structure Bulk where
  lead : Lead
  /-- The upgrades that are not begun yet, in order. -/
  queue : List Nat
  /-- The upgrades that hold a permit. -/
  admitted : List Admitted
  /-- The crashed upgrades whose failure is not counted yet. -/
  crashes : Nat
deriving DecidableEq, Repr

/-- What a step of the lead leads to. -/
inductive LeadStep where
  /-- The lead went on. -/
  | moved (fleet : Fleet) (bulk : Bulk)
  /-- The lead cannot go on before an upgrade does. -/
  | blocked
  /-- All upgrades ended. -/
  | ended (fleet : Fleet) (result : Except RunError Unit)
  /-- The clock cannot show the end of the upgrade's time. -/
  | overflowed (fleet : Fleet)

namespace Bulk

/-- The upgrades from an index on, none of them begun. -/
def start (fleet : Fleet) : Bulk :=
  ⟨.seeking, (List.range fleet.size).drop fleet.canaries, [], 0⟩

/-- Ends the rollout by its count of failures. -/
def conclude (fleet : Fleet) : Fleet × Except RunError Unit :=
  if fleet.maxFailures < fleet.failureCount then
    ({ fleet with endState := .maxFailuresExceeded },
      .error (.maxFailuresExceeded fleet.failureCount fleet.maxFailures))
  else ({ fleet with endState := .success }, .ok ())

/-- Admits the upgrade at an index within a context; none when the clock cannot show its end. -/
def launch (fleet : Fleet) (b : Bulk) (index : Nat) (rest : List Nat) : Option Context → LeadStep
  | none => .overflowed { fleet with admitted := fleet.admitted + 1 }
  | some ctx =>
    .moved { fleet with admitted := fleet.admitted + 1 }
      { b with lead := .seeking, queue := rest, admitted := b.admitted ++ [.queued index ctx] }

/-- A step of the lead. -/
def leadStep (fleet : Fleet) (b : Bulk) (ctx : Context) (now : Instant) : LeadStep :=
  match b.lead, b.queue with
  | .seeking, [] => .moved fleet { b with lead := .draining }
  | .seeking, _ :: _ =>
    if b.admitted.length < fleet.capacity then .moved fleet { b with lead := .holding }
    else .blocked
  | .holding, _ =>
    if fleet.maxFailures < fleet.failureCount then .moved fleet { b with lead := .draining }
    else .moved fleet { b with lead := .cleared }
  | .cleared, [] => .moved fleet { b with lead := .draining }
  | .cleared, index :: rest =>
    b.launch fleet index rest (ctx.within? now fleet.config.actionTimeout)
  | .draining, _ =>
    if 0 < b.crashes then
      .moved { fleet with failureCount := fleet.failureCount + 1 }
        { b with crashes := b.crashes - 1 }
    else if b.admitted.isEmpty then
      let (fleet, result) := conclude fleet
      .ended fleet result
    else .blocked

/-- Puts an admitted upgrade in the place of the one at a position. -/
def place (b : Bulk) (at_ : Nat) (a : Admitted) : Bulk :=
  { b with admitted := b.admitted.set at_ a }

/-- Frees the permit at a position. -/
def release (b : Bulk) (at_ : Nat) : Bulk := { b with admitted := b.admitted.eraseIdx at_ }

/-- What a landing makes of the upgrade at a position. -/
def settle (b : Bulk) (at_ index : Nat) : Landing → Bulk
  | .flying flight => b.place at_ (.flying flight)
  | .landed (.ok ()) => b.place at_ (.landed index false)
  | .landed (.error _) => b.place at_ (.landed index true)
  | .crashed _ => { b.release at_ with crashes := b.crashes + 1 }

/-- Begins the run of the upgrade at a position. -/
def takeOff (fleet : Fleet) (b : Bulk) (at_ : Nat) (source : Except IoError Entry) (m : Moment) :
    Fleet × Bulk :=
  match b.admitted[at_]? with
  | some (.queued index ctx) =>
    let (fleet, landing) := Flight.start fleet index ctx source m
    (fleet, b.settle at_ index landing)
  | _ => (fleet, b)

/-- Goes on with a flight at a position where its wait ended. -/
def resume (fleet : Fleet) (b : Bulk) (at_ : Nat) (f : Flight) (m : Moment) (e : Event f.wait) :
    Fleet × Bulk :=
  let (fleet, landing) := f.resume fleet m e
  (fleet, b.settle at_ f.index landing)

/-- Counts the failure of the upgrade at a position, or frees its permit when that is done. -/
def account (fleet : Fleet) (b : Bulk) (at_ : Nat) : Fleet × Bulk :=
  match b.admitted[at_]? with
  | some (.landed index true) =>
    ({ fleet with failureCount := fleet.failureCount + 1 }, b.place at_ (.counted index))
  | some (.landed index false) => (fleet, b.place at_ (.counted index))
  | some (.counted _) => (fleet, b.release at_)
  | _ => (fleet, b)

end Bulk

end Rollout
