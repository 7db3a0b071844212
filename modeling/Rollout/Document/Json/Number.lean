import Rollout.Document.Node
import Rollout.Text.Shortest

/-!
# JSON numbers

The spelling of a number and its value.

* `takeNumeral` reads a numeral at the front of a text.
* `Numeral.node` is its value: an integer where sixty-four bits hold it. Any other number is a
  double, computed from as many digits as sixty-four bits hold by one multiplication or division
  with a power of ten where one is enough.
-/

namespace Rollout.Document.Json

/-- The characters of a text, with `none` for every byte that is no part of one. -/
abbrev Symbols := List (Option Char)

/-- Whether a symbol is a decimal digit. -/
def isDigit : Option Char → Bool
  | some c => c.isDigit
  | none => false

/-- The digits at the front of a text, and what follows them. -/
def takeDigits (s : Symbols) : List Char × Symbols :=
  ((s.takeWhile isDigit).filterMap id, s.dropWhile isDigit)

/-- The spelling of a number. -/
structure Numeral where
  negative : Bool
  whole : List Char
  fraction : List Char
  /-- Whether the exponent is negative, and its digits. -/
  exponent : Option (Bool × List Char)
deriving Repr, DecidableEq

/-- Where a numeral breaks: a reader who wants the value tells a text that ends from one that goes
on otherwise, and a reader who passes over it does not. -/
def numberBreak : Symbols → GrammarFault × GrammarFault
  | [] => (.endInValue, .badNumber)
  | _ :: _ => (.badNumber, .badNumber)

/-- Reads an exponent, if there is one. -/
def takeExponent (s : Symbols) :
    Except (GrammarFault × GrammarFault) (Option (Bool × List Char) × Symbols) :=
  match s with
  | some c :: rest =>
    if c = 'e' ∨ c = 'E' then
      let (negative, rest) := match rest with
        | some '+' :: rest => (false, rest)
        | some '-' :: rest => (true, rest)
        | _ => (false, rest)
      match takeDigits rest with
      | ([], rest) => .error (numberBreak rest)
      | (digits, rest) => .ok (some (negative, digits), rest)
    else .ok (none, s)
  | _ => .ok (none, s)

/-- Reads a fraction, if there is one. -/
def takeFraction (s : Symbols) : Except (GrammarFault × GrammarFault) (List Char × Symbols) :=
  match s with
  | some '.' :: rest =>
    match takeDigits rest with
    | ([], rest) => .error (numberBreak rest)
    | (digits, rest) => .ok (digits, rest)
  | _ => .ok ([], s)

/-- Reads the digits in front of the point: a zero stands alone. -/
def takeWhole (s : Symbols) : Except (GrammarFault × GrammarFault) (List Char × Symbols) :=
  match takeDigits s with
  | ([], rest) => .error (numberBreak rest)
  | ('0' :: _ :: _, _) => .error (.badNumber, .badNumber)
  | (digits, rest) => .ok (digits, rest)

/-- Reads a numeral behind its sign. -/
def takeNumeral (negative : Bool) (s : Symbols) :
    Except (GrammarFault × GrammarFault) (Numeral × Symbols) := do
  let (whole, s) ← takeWhole s
  let (fraction, s) ← takeFraction s
  let (exponent, s) ← takeExponent s
  pure (⟨negative, whole, fraction, exponent⟩, s)

/-- Appends digits to a number while it stays below `2^64`: the number and how many digits were
taken. -/
def gather : List Char → Nat → Nat × Nat
  | [], n => (n, 0)
  | c :: rest, n =>
    let next := n * 10 + Rollout.Text.Decimal.digit c
    if next < UInt64.size then
      let (value, taken) := gather rest next
      (value, taken + 1)
    else (n, 0)

/-- Multiplies a double by a power of ten; none when the result is infinite. -/
def scale : Nat → Float → Int → Option Float
  | 0, x, _ => some x
  | fuel + 1, x, power =>
    if power.natAbs ≤ 308 then
      let factor := Float.ofScientific 1 false power.natAbs
      if 0 ≤ power then
        let y := x * factor
        if y.isInf then none else some y
      else some (x / factor)
    else if x == 0 then some x
    else if 0 ≤ power then none
    else scale fuel (x / Float.ofScientific 1 false 308) (power + 308)

/-- The greatest exponent that is not cut off. -/
def maxExponent : Int := Int32.maxValue.toInt

namespace Numeral

/-- Whether a numeral has neither a fraction nor an exponent. -/
def isWhole (n : Numeral) : Bool := n.fraction.isEmpty && n.exponent.isNone

/-- The absolute value as a double; none when it is too large. -/
def magnitude? (n : Numeral) : Option Float :=
  let (front, taken) := gather n.whole 0
  let (value, fractional) := gather n.fraction front
  let start : Int := (n.whole.length - taken : Nat) - (fractional : Int)
  let significand := (UInt64.ofNat value).toFloat
  match n.exponent with
  | none => scale 8 significand start
  | some (negative, digits) =>
    let size : Int := Rollout.Text.Decimal.value digits 0
    if maxExponent < size then
      if value ≠ 0 ∧ !negative then none else some 0
    else
      let power := if negative then max (start - size) (-maxExponent - 1)
        else min (start + size) maxExponent
      scale 8 significand power

/-- The value of a numeral. -/
def node (n : Numeral) : Node :=
  let value := Rollout.Text.Decimal.value n.whole 0
  if n.isWhole ∧ !n.negative ∧ value < UInt64.size then .integer value
  else if n.isWhole ∧ n.negative ∧ 0 < value ∧ value ≤ UInt64.size / 2 then .integer (-value)
  else match n.magnitude? with
    | none => .hugeNumber
    | some x => .float (Rollout.Text.floatText (if n.negative then -x else x))

end Numeral

end Rollout.Document.Json
