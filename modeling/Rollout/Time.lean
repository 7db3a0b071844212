import Rollout.Text.Decimal

/-!
# Time

Lengths of time and points of time, both counted in nanoseconds.

* `Duration.text` writes a length in the largest unit that it fills, with the fraction that is
  needed and no more.
* A clock shows fewer than `2^63` seconds. `Instant.after?` is the point a length later where the
  clock can show it; `Instant.wakeAfter` is when a sleeper wakes, who sleeps for thirty years where
  the clock cannot.
-/

namespace Rollout

/-- A length of time. -/
structure Duration where
  nanos : Nat
deriving DecidableEq, Repr, Inhabited

namespace Duration

/-- Whole seconds. -/
def ofSecs (n : Nat) : Duration := ⟨n * 1000000000⟩

/-- Whole milliseconds. -/
def ofMillis (n : Nat) : Duration := ⟨n * 1000000⟩

/-- The digits of `fraction` as a part of `unit`, a power of ten, without zeros at the end. -/
def fractionDigits (fraction unit : Nat) : List Char :=
  let digits := Nat.toDigits 10 (unit + fraction)
  ((digits.drop 1).reverse.dropWhile (· = '0')).reverse

/-- A number of units with its fraction. -/
def inUnit (nanos unit : Nat) (name : String) : String :=
  let fraction := fractionDigits (nanos % unit) unit
  Text.Decimal.text (nanos / unit) ++
    (if fraction.isEmpty then "" else String.ofList ('.' :: fraction)) ++ name

/-- A length in the largest unit that it fills. -/
def text (d : Duration) : String :=
  if 1000000000 ≤ d.nanos then inUnit d.nanos 1000000000 "s"
  else if 1000000 ≤ d.nanos then inUnit d.nanos 1000000 "ms"
  else if 1000 ≤ d.nanos then inUnit d.nanos 1000 "µs"
  else inUnit d.nanos 1 "ns"

end Duration

/-- A point of time: nanoseconds since the clock's start. -/
abbrev Instant := Nat

namespace Instant

/-- The first point that no clock shows. -/
def limit : Nat := 0x8000000000000000 * 1000000000

/-- The point a length later, where a clock can show it. -/
def after? (t : Instant) (d : Duration) : Option Instant :=
  if t + d.nanos < limit then some (t + d.nanos) else none

/-- The point a length later. -/
def after (t : Instant) (d : Duration) : Instant := t + d.nanos

/-- How long a sleeper sleeps who would wake at a point that no clock shows. -/
def longestSleep : Duration := .ofSecs (86400 * 365 * 30)

/-- When a sleeper wakes. -/
def wakeAfter (t : Instant) (d : Duration) : Instant := (t.after? d).getD (t.after longestSleep)

/-- Whole milliseconds since the start. -/
def millis (t : Instant) : Nat := t / 1000000

end Instant

end Rollout
