import Rollout.Context

/-!
# Timelines

A clock that stands still while anyone has something to do and then jumps to the next point of time
where someone wakes. Cancellations may be planned for later. When a sleeper and a cancellation are
due at the same point of time, the sleeper is first, and the cancellation takes place when it waits
again.
-/

namespace Rollout

/-- The clock, the sources that are cancelled, and the cancellations planned for later. -/
structure Timeline where
  now : Instant
  cancelled : List Nat
  planned : List (Instant × Nat)
deriving Repr, Inhabited, DecidableEq

namespace Timeline

/-- The beginning. -/
def start : Timeline := ⟨0, [], []⟩

/-- The clock and the cancelled sources. -/
def moment (t : Timeline) : Moment := ⟨t.now, t.cancelled⟩

/-- Cancels a source. -/
def cancel (t : Timeline) (source : Nat) : Timeline :=
  { t with cancelled := source :: t.cancelled }

/-- Plans a cancellation. -/
def plan (t : Timeline) (delay : Duration) (source : Nat) : Timeline :=
  { t with planned := t.planned ++ [(t.now.wakeAfter delay, source)] }

/-- Whether a planned cancellation is due. -/
def hasDue (t : Timeline) : Bool := t.planned.any (·.1 ≤ t.now)

/-- Carries out the cancellations that are due by a point of time. -/
def cancelUpTo (t : Timeline) (limit : Instant) : Timeline :=
  { t with
    cancelled := ((t.planned.filter (·.1 ≤ limit)).map Prod.snd) ++ t.cancelled
    planned := t.planned.filter fun p => limit < p.1 }

/-- Carries out the cancellations that are due. -/
def fire (t : Timeline) : Timeline := t.cancelUpTo t.now

/-- The earliest of some points of time that is still to come. -/
def earliest (now : Instant) (points : List Instant) : Option Instant :=
  (points.filter (now < ·)).min?

/-- Jumps to the earliest of some points of time, or to a planned cancellation before it. -/
def jump? (t : Timeline) (points : List Instant) : Option Timeline :=
  (earliest t.now (points ++ t.planned.map Prod.fst)).map fun now => { t with now }

/-- Lets time pass. Cancellations on the way take place; one that is due at the end does not yet. -/
def pass (t : Timeline) (d : Duration) : Timeline :=
  let now := t.now.after d
  if t.now < now then { t.cancelUpTo (now - 1) with now } else t

/-- Waits until `ready` says something. -/
def await (ready : Moment → Option α) (points : List Instant) :
    Nat → Timeline → Timeline × Option α
  | 0, t => (t, none)
  | fuel + 1, t =>
    match ready t.moment with
    | some a => (t, some a)
    | none =>
      if t.hasDue then await ready points fuel t.fire
      else match t.jump? points with
        | some t => await ready points fuel t
        | none => (t, none)

/-- Waits until `ready` says something, with the steps that the plans make possible. -/
def awaitAll (t : Timeline) (ready : Moment → Option α) (points : List Instant) :
    Timeline × Option α := await ready points (2 * t.planned.length + points.length + 3) t

/-- Sleeps within a context. -/
def sleep (t : Timeline) (ctx : Context) (d : Duration) : Timeline × Except StopReason Unit :=
  match ctx.stopped t.moment with
  | some reason => (t, .error reason)
  | none =>
    let wake := t.now.wakeAfter d
    let ready (m : Moment) : Option (Except StopReason Unit) :=
      if wake ≤ m.now then some (.ok ()) else (ctx.stopped m).map .error
    let (t, result) := t.awaitAll ready (wake :: ctx.deadline.toList)
    (t, result.getD (.ok ()))

/-- Waits for a context to stop, for a time at most. -/
def stop (t : Timeline) (ctx : Context) (d : Duration) : Timeline × Option StopReason :=
  let wake := t.now.wakeAfter d
  let ready (m : Moment) : Option (Option StopReason) :=
    match ctx.stopped m with
    | some reason => some (some reason)
    | none => if wake ≤ m.now then some none else none
  let (t, result) := t.awaitAll ready (wake :: ctx.deadline.toList)
  (t, result.getD none)

end Timeline

end Rollout
