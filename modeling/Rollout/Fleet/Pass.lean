import Rollout.Fleet.Care
import Rollout.Fleet.Clock
import Rollout.Fleet.Prompt

/-!
# The passes of a cleanup

* `Surroundings.Punctual`: waits end in time, and a pause that has run out is over. Such
  surroundings over a table of pools are `Surroundings.punctual`.
* `Cleaning.Runs` is any number of steps of a cleanup, up to its end.
* A `Pass` is one round of a cleanup: the wait, and what it does then. `Pass.Made` says that it goes
  as it should, and `Pass.Precedes` that another takes over where it ended.
* `Cleaning.Advances` are the steps of a cleanup in virtual time. Who can go on does so at once; when
  all of it waits, time passes, but no further than the first of the waits lasts.
-/

namespace Rollout

namespace Surroundings

variable {σ : Type}

/-- The clock goes on and waits end in time; a pause ends for its context only before its time has
come. -/
structure Punctual (env : Surroundings σ) : Prop extends env.Timely where
  pause : ∀ {s s' : σ} {ctx : Context} {until_ : Instant} {reason : StopReason},
    env.ends s ctx (.pause until_) (.stopped reason) s' → (env.moment s').now < until_

/-- Whether a pause that ends for its context does so before its time. -/
def InPause (m : Moment) : {w : Wait} → Event w → Prop
  | .pause until_, .stopped _ => m.now < until_
  | _, _ => True

/-- A table that nobody else changes, and a clock that pauses obey: all else may go in any way that
is no crash. -/
def punctual : Surroundings (Table × Moment) where
  moment s := s.2
  passes s s' := timed.passes s s'
  opens _ _ := True
  ends s ctx w e s' := timed.ends s ctx w e s' ∧ InPause s'.2 e

theorem punctual_calm : punctual.Calm := fun h => h.1.1

theorem punctual_punctual : punctual.Punctual where
  passes h := timed_timely.passes h
  ends h := timed_timely.ends h.1
  pause h := h.2

/-- The same surroundings, which change only where a wait ends. -/
def still (env : Surroundings σ) : Surroundings σ := { env with passes := fun _ _ => False }

end Surroundings

/-- The upgrades with an error, in order. -/
def Fleet.failedAt (fleet : Fleet) : List Nat := fleet.failures.map (·.index)

namespace CleanupPhase

/-- Whether a cleanup makes a pass. -/
def isRetrying : CleanupPhase → Bool
  | retrying _ => true
  | _ => false

/-- Whether a cleanup is over. -/
def isOver : CleanupPhase → Bool
  | ended _ | crashed _ => true
  | _ => false

/-- Whether all of a cleanup waits: for its next pass, or in every run of a pass. -/
def isWaiting : CleanupPhase → Bool
  | waiting _ => true
  | retrying r => !r.isOver && r.attempts.all (·.flight?.isSome)
  | _ => false

end CleanupPhase

namespace Cleaning

variable {σ : Type}

/-- The beginning of a cleanup. -/
def start (env : Surroundings σ) (ctx : Context) (s : σ) (fleet : Fleet) (passes : Nat)
    (delay : Duration) : Cleaning σ :=
  ⟨s, fleet, .start fleet ctx (env.moment s) passes delay⟩

/-- What becomes of a cleanup within a context, with what happened on the way. Nothing becomes of it
behind its end, so that a cleanup which is over has ended just now. -/
inductive Runs (env : Surroundings σ) (ctx : Context) (x : Cleaning σ) :
    List Happening → Cleaning σ → Prop
  | here : Runs env ctx x [] x
  | step {hs new : List Happening} {y z : Cleaning σ} : Runs env ctx x hs y →
    y.cleanup.phase.isOver = false → y.Goes env ctx new z → Runs env ctx x (hs ++ new) z

/-- The waits under way in a cleanup within a context, each with its context. -/
def waits (ctx : Context) (x : Cleaning σ) : List (Context × Wait) :=
  match x.cleanup.phase with
  | .waiting until_ => [(ctx, .pause until_)]
  | .retrying r => Scene.waits ctx ⟨x.around, x.fleet, .retry r⟩
  | _ => []

/-- The steps of a cleanup within a context, on a clock that stands still while anyone has something
to do. -/
inductive Advances (env : Surroundings σ) (ctx : Context) :
    Cleaning σ → List Happening → Cleaning σ → Prop
  /-- It goes on by itself or a wait ends, at once. -/
  | goes {s s' : σ} {fleet : Fleet} {c : Cleanup} {new : List Happening} {y : Cleaning σ} :
    env.Turns s s' → Goes env.still ctx ⟨s', fleet, c⟩ new y →
    (env.moment y.around).now = (env.moment s).now → Advances env ctx ⟨s, fleet, c⟩ new y
  /-- All of it waits, and time passes while all waits last. -/
  | rests {s s' : σ} {fleet : Fleet} {c : Cleanup} : c.phase.isWaiting = true → env.passes s s' →
    (env.moment s).now < (env.moment s').now →
    (∀ w ∈ waits ctx ⟨s, fleet, c⟩, ∀ t, w.1.latest (env.moment s) w.2 = some t →
      (env.moment s').now ≤ t) →
      Advances env ctx ⟨s, fleet, c⟩ [] ⟨s', fleet, c⟩

end Cleaning

/-- How long a cleanup of a fleet may take: for each pass the delay before it, and the limit of its
runs. -/
def Fleet.longestCleanup (f : Fleet) (passes : Nat) (delay : Duration) : Duration :=
  ⟨passes * (delay.nanos + f.config.actionTimeout.nanos)⟩

/-- A wait and the pass behind it: where each of them begins, how far the pass is, and the fleet
before it and now. -/
structure Pass (σ : Type) where
  waits : σ
  begins : σ
  before : Fleet
  happenings : List Happening
  retry : Retry
  now : σ
  after : Fleet

namespace Pass

variable {σ : Type}

/-- A pass goes as it should: some upgrade has an error and the context has not stopped when the wait
begins, the wait lasts the full delay where the clock can show its end, and what happens is a pass
over the fleet from there on. -/
structure Made (env : Surroundings σ) (ctx : Context) (delay : Duration) (p : Pass σ) : Prop where
  failing : p.before.failedAt ≠ []
  unstopped : ctx.stopped (env.moment p.waits) = none
  waited : (env.moment p.waits).now.wakeAfter delay ≤ (env.moment p.begins).now
  leg : ∃ r, Retry.start? p.before ctx (env.moment p.begins).now = some r ∧
    Leg env ctx ⟨p.begins, p.before, .retry r⟩ p.happenings ⟨p.now, p.after, .retry p.retry⟩

/-- A pass is over, and another takes the fleet over from it. -/
structure Precedes (p q : Pass σ) : Prop where
  ended : p.retry.isOver = true
  waits : q.waits = p.now
  before : q.before = p.after

end Pass

/-- Where a cleanup stands behind its passes. -/
def Cleaning.standing {σ : Type} (x : Cleaning σ) (log : List (Pass σ)) : σ × Fleet :=
  (log.getLast?.map fun p => (p.now, p.after)).getD (x.around, x.fleet)

end Rollout
