import Rollout.Health.Watch

/-!
# Watched tables

A table with the watch that looks after it, once that was begun, and the channel that stops the
watch. What is said on the channel before the watch begins is not lost.
-/

namespace Rollout

/-- A table and its watch. `told` says that someone spoke on the channel before the watch began. -/
structure Station where
  table : Table
  watch : Option Watch
  told : Bool
deriving DecidableEq, Repr

namespace Station

/-- No pools, and no watch yet. -/
def empty : Station := ⟨.empty, none, false⟩

/-- Lets time pass: the rounds that are due take place. Waits last a second at least. -/
def passTo (s : Station) (now : Instant) : Station :=
  match s.watch with
  | some w =>
    let (table, w) := w.passTo (now / 1000000000 + 2) s.table now
    { s with table, watch := some w }
  | none => s

/-- Begins the watch. -/
def begin_ (s : Station) (now : Instant) : Station :=
  let (table, w) := Watch.start s.table s.told now
  { s with table, watch := some w }

/-- Speaks on the channel, or closes it. -/
def tell (s : Station) : Station :=
  match s.watch with
  | some w => { s with watch := some w.tell }
  | none => { s with told := true }

/-- Whether the watch goes on, once it was begun. -/
def running (s : Station) : Option Bool := s.watch.map Watch.running

/-- Whether someone listens on the channel. -/
def isHeard (s : Station) : Bool := s.running.getD true

end Station

end Rollout
