import Rollout.Health.Station

/-!
# The schedule of the watch

What a watched table goes through in time, and what is heard of its watch meanwhile.

* `Vigil.Step` is one thing that happens. The targets answer when they like and what they like, and
  calls make any table of the one that is watched. Time does not pass beyond the end of a wait. A
  word on the channel ends a wait; a word at the very time when the wait is over may come too late
  for that (`Vigil.Step.outrun`).
* `Watch.Log` is what is heard, each thing with its time. `Watch.Log.Regular` is what a log has to
  be for the watch to keep its schedule and to heed the channel, and `Watch.Log.Tracks` is how it
  goes with what the watch is doing.
* `Round.Ends`: a round comes to an end, whatever the targets answer and the table is.
-/

namespace Rollout

/-- A round that ends after finitely many results, whatever they are and whatever table they come
to. -/
inductive Round.Ends : Round → Prop
  | over (wait : Duration) : Ends (.over wait)
  | probing {p : PendingProbe} :
    (∀ t result, Ends (Round.receive t p result).2) → Ends (.probing p)

namespace Watch

/-- Something that is heard of a watch or of its channel. -/
inductive Mark where
  /-- Someone speaks on the channel, or closes it. -/
  | told
  | launched
  | began
  /-- A round is over and says how long to wait for the next one. -/
  | ended (wait : Duration)
  | returned
deriving DecidableEq, Repr

/-- Whether it is of the watch itself, and not of its channel. -/
def Mark.isOwn : Mark → Bool
  | told => false
  | _ => true

/-- What is heard, with the times. -/
abbrev Log := List (Instant × Mark)

/-- What is heard at the end of a round, if this is the end, which leaves the watch as it is. -/
def endMarks (now : Instant) (r : Round) (w : Watch) : Log :=
  match r with
  | .probing _ => []
  | .over wait => (now, .ended wait) :: if w.running then [] else [(now, .returned)]

namespace Log

/-- The last that was heard of the watch itself. -/
def last (log : Log) : Option (Instant × Mark) := (log.filter (·.2.isOwn)).getLast?

/-- Whether someone spoke on the channel. -/
def IsTold (log : Log) : Prop := ∃ t, (t, .told) ∈ log

/-- Whether a log says that a wait is over at a point of time. -/
def IsDue (log : Log) (t : Instant) : Prop :=
  ∃ t' wait, log.last = some (t', .ended wait) ∧ t = t' + wait.nanos

/-- The times at which rounds begin. -/
def starts (log : Log) : List Instant :=
  log.filterMap fun e => if e.2 = .began then some e.1 else none

/-- What has to stand before a mark in a log, and what after it. -/
def Fits (before : Log) (t : Instant) (after : Log) : Mark → Prop
  /- The watch is launched once, and its first round begins at once. -/
  | .launched => before.last = none ∧ after.head? = some (t, .began)
  /- Every other round begins when the wait since the end of the round before it is over. -/
  | .began => before.last = some (t, .launched) ∨ before.IsDue t
  /- What ends is the round that began last. It is the end of a watch that was told to stop. -/
  | .ended _ => (∃ t', before.last = some (t', .began)) ∧
      (before.IsTold → after.head? = some (t, .returned))
  /- A watch returns because it was told to, and then nothing more is heard of it. -/
  | .returned => before.IsTold ∧ after.last = none
  /- A watch that waits returns at once or begins the round that is due at that very time. No other
  round begins but the first one, where the watch was told before it was launched. -/
  | .told =>
      (∀ t' wait, before.last = some (t', .ended wait) →
        after.head? = some (t, .returned) ∨ (before.IsDue t ∧ after.head? = some (t, .began))) ∧
      (after.starts = [] ∨ after.starts = [t] ∧ before.IsDue t ∨
        ∃ t', after.starts = [t'] ∧ before.last = none)

/-- Whether a log is in the order of time and each of its marks fits. -/
structure Regular (log : Log) : Prop where
  ordered : log.Pairwise (·.1 ≤ ·.1)
  fits : ∀ before t mark after, log = before ++ (t, mark) :: after → Fits before t after mark

/-- What a log tells of the watch: it is in a round that comes to an end, it waits until a round is
due and was not told to stop, or it was told and is at its end. -/
def Tells (log : Log) (now : Instant) : Watch → Prop
  | ⟨.inRound r, told⟩ => r.Ends ∧ (∃ p, r = .probing p) ∧ (∃ t, log.last = some (t, .began)) ∧
      (told = true ↔ log.IsTold)
  | ⟨.waiting until_, told⟩ => ¬ log.IsTold ∧ told = false ∧ log.IsDue until_ ∧ now ≤ until_
  | ⟨.stopped, _⟩ => log.IsTold ∧ ∃ t, log.last = some (t, .returned)

end Log

end Watch

/-- A watched table at a point of time. -/
structure Vigil where
  now : Instant
  station : Station
deriving DecidableEq, Repr

/-- A log up to now, and what it tells of the watch. -/
structure Watch.Log.Tracks (log : Watch.Log) (v : Vigil) : Prop where
  times : ∀ e ∈ log, e.1 ≤ v.now
  fresh : v.station.watch = none → log.last = none ∧ (v.station.told = true ↔ log.IsTold)
  watch : ∀ w, v.station.watch = some w → log.Tells v.now w

namespace Vigil

open Watch (Log endMarks)

/-- A table that has no watch yet, nor a word for it. -/
def fresh (now : Instant) (t : Table) : Vigil := ⟨now, ⟨t, none, false⟩⟩

/-- One thing that happens, and what is heard of it. -/
inductive Step : Vigil → Log → Vigil → Prop
  | pass {now later : Instant} {s : Station} : now ≤ later →
    (∀ until_ told, s.watch = some ⟨.waiting until_, told⟩ → later ≤ until_) →
      Step ⟨now, s⟩ [] ⟨later, s⟩
  | edit {now : Instant} {s : Station} (t : Table) : Step ⟨now, s⟩ [] ⟨now, { s with table := t }⟩
  | launch {now : Instant} {s : Station} : s.watch = none →
    Step ⟨now, s⟩ ((now, .launched) :: (now, .began) ::
      endMarks now (Round.start s.table).2 (Watch.start s.table s.told now).2) ⟨now, s.begin_ now⟩
  | answer {now : Instant} {s : Station} {p : PendingProbe} {told : Bool} {t : Table} {w : Watch}
    (result : ProbeResult) : s.watch = some ⟨.inRound (.probing p), told⟩ →
    Watch.receive ⟨.inRound (.probing p), told⟩ s.table result now = (t, w) →
      Step ⟨now, s⟩ (endMarks now (Round.receive s.table p result).2 w)
        ⟨now, { s with table := t, watch := some w }⟩
  | wake {now : Instant} {s : Station} {told : Bool} {t : Table} {w : Watch} :
    s.watch = some ⟨.waiting now, told⟩ → Watch.wake ⟨.waiting now, told⟩ s.table now = (t, w) →
      Step ⟨now, s⟩ ((now, .began) :: endMarks now (Round.start s.table).2 w)
        ⟨now, { s with table := t, watch := some w }⟩
  | tell {now : Instant} {s : Station} :
    (∀ until_ told, s.watch ≠ some ⟨.waiting until_, told⟩) →
      Step ⟨now, s⟩ [(now, .told)] ⟨now, s.tell⟩
  | heed {now until_ : Instant} {s : Station} {told : Bool} :
    s.watch = some ⟨.waiting until_, told⟩ →
      Step ⟨now, s⟩ [(now, .told), (now, .returned)] ⟨now, s.tell⟩
  | outrun {now : Instant} {s : Station} {told : Bool} {t : Table} {w : Watch} :
    s.watch = some ⟨.waiting now, told⟩ → Watch.wake ⟨.waiting now, true⟩ s.table now = (t, w) →
      Step ⟨now, s⟩ ((now, .told) :: (now, .began) :: endMarks now (Round.start s.table).2 w)
        ⟨now, { s with table := t, watch := some w }⟩

/-- Anything that happens one after the other, and all that is heard of it. -/
inductive Run (start : Vigil) : Log → Vigil → Prop
  | refl : Run start [] start
  | step {log marks : Log} {v v' : Vigil} : Run start log v → Step v marks v' →
    Run start (log ++ marks) v'

end Vigil

end Rollout
