import Rollout.Time

/-!
# Clocks

Where a clock can show the end of a length of time (`Instant.Shows`), a sleeper wakes there
(`Instant.Shows.wakeAfter`).
-/

namespace Rollout

namespace Instant

variable {t t₀ now : Instant} {d d' : Duration}

/-- Whether a clock can show the end of a limit that begins at a point of time. -/
def Shows (t : Instant) (d : Duration) : Prop := t + d.nanos < limit

theorem Shows.mono (h : t.Shows d) (hle : d'.nanos ≤ d.nanos) : t.Shows d' :=
  Nat.lt_of_le_of_lt (Nat.add_le_add_left hle t) h

/-- Where a clock shows a point of time, it shows all that comes before. -/
theorem Shows.before (h : t₀.Shows d) (hle : now + d'.nanos ≤ t₀ + d.nanos) : now.Shows d' :=
  Nat.lt_of_le_of_lt hle h

theorem after?_of_shows (h : t.Shows d) : t.after? d = some (t + d.nanos) := if_pos h

theorem after?_of_not_shows (h : ¬ t.Shows d) : t.after? d = none := if_neg h

theorem Shows.wakeAfter (h : now.Shows d) : now.wakeAfter d = now + d.nanos := by
  rw [Instant.wakeAfter, after?_of_shows h, Option.getD_some]

/-- Where no clock shows the end of a sleep, a sleeper wakes after thirty years. -/
theorem wakeAfter_of_not_shows (h : ¬ now.Shows d) : now.wakeAfter d = now.after longestSleep := by
  rw [Instant.wakeAfter, after?_of_not_shows h, Option.getD_none]

theorem lt_wakeAfter (h : 0 < d.nanos) : t < t.wakeAfter d := by
  unfold Instant.wakeAfter after?
  split
  · exact Nat.lt_add_of_pos_right h
  · exact Nat.lt_add_of_pos_right (by decide)

/-- A sleeper who sleeps for a second at least wakes a second later at least. -/
theorem add_second_le_wakeAfter (h : 1000000000 ≤ d.nanos) : t + 1000000000 ≤ t.wakeAfter d := by
  unfold Instant.wakeAfter after?
  split
  · exact Nat.add_le_add_left h t
  · exact Nat.add_le_add_left (by decide) t

end Instant

end Rollout
