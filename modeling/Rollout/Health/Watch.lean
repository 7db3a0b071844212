import Rollout.Health.Round

/-!
# The health watch

Round after round of health checks, with a wait between them, until someone asks the watch to stop.
A word to stop is heeded in the wait and at the end of a round, but never inside a round.
-/

namespace Rollout

/-- What the watch is doing. -/
inductive WatchPhase where
  | inRound (r : Round)
  | waiting (until_ : Instant)
  | stopped
deriving DecidableEq, Repr

/-- The watch. `told` says that someone spoke on the channel that stops it, or closed it. -/
structure Watch where
  phase : WatchPhase
  told : Bool
deriving DecidableEq, Repr

namespace Watch

/-- Ends a round: a watch that was told to stop does so, another waits. -/
def settle (w : Watch) (now : Instant) : Watch :=
  match w.phase with
  | .inRound (.over wait) =>
    { w with phase := if w.told then .stopped else .waiting (now.wakeAfter wait) }
  | _ => w

/-- Begins a round. -/
def beginRound (t : Table) (told : Bool) (now : Instant) : Table × Watch :=
  let (t, r) := Round.start t
  (t, settle ⟨.inRound r, told⟩ now)

/-- Starts the watch, on a channel where someone may have spoken before. -/
def start (t : Table) (told : Bool) (now : Instant) : Table × Watch := beginRound t told now

/-- Tells the watch to stop. -/
def tell (w : Watch) : Watch :=
  match w.phase with
  | .waiting _ => ⟨.stopped, true⟩
  | _ => { w with told := true }

/-- Hands the watch the result of the probe that it waits for. -/
def receive (w : Watch) (t : Table) (result : ProbeResult) (now : Instant) : Table × Watch :=
  match w.phase with
  | .inRound (.probing p) =>
    let (t, r) := Round.receive t p result
    (t, settle ⟨.inRound r, w.told⟩ now)
  | _ => (t, w)

/-- Wakes the watch when its wait is over. -/
def wake (w : Watch) (t : Table) (now : Instant) : Table × Watch :=
  match w.phase with
  | .waiting until_ => if until_ ≤ now then beginRound t w.told now else (t, w)
  | _ => (t, w)

/-- Whether the watch goes on. -/
def running (w : Watch) : Bool := w.phase != .stopped

/-- Lets the waits run out that end at a point of time or before it, in order, each at its own
time. -/
def passTo : Nat → Table → Watch → Instant → Table × Watch
  | 0, t, w, _ => (t, w)
  | fuel + 1, t, w, now =>
    match w.phase with
    | .waiting until_ =>
      if until_ ≤ now then
        let (t, w) := w.wake t until_
        passTo fuel t w now
      else (t, w)
    | _ => (t, w)

end Watch

end Rollout
