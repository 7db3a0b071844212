import Rollout.Text.Decimal

/-!
# Shortest decimal forms

A double as the decimal number with the fewest digits that rounds to it.

* `Binary.ofBits?` takes a finite double apart into `mantissa * 2 ^ exponent`.
* `Binary.shortest` looks on the decimal grids with one digit, two digits and so on, and takes the
  neighbour of the value that first lies among the numbers that round to it. Of two such neighbours
  the nearer one counts, and the even one at a tie.
* `floatText` writes it positionally when its first digit stands between `10^-5` and `10^15`, and
  with an exponent otherwise.
-/

namespace Rollout.Text

/-- A positive number `mantissa * 2 ^ exponent`. When `boundary` holds the next double below is
half as far away as the next one above. -/
structure Binary where
  mantissa : Nat
  exponent : Int
  boundary : Bool
deriving DecidableEq, Repr

/-- A positive number `digits * 10 ^ exponent`. -/
structure Scientific where
  digits : Nat
  exponent : Int
deriving DecidableEq, Repr

namespace Binary

/-- The finite non-zero double of a bit pattern, without its sign. -/
def ofBits? (bits : UInt64) : Option Binary :=
  let field := ((bits >>> 52) &&& 0x7FF).toNat
  let fraction := (bits &&& 0xFFFFFFFFFFFFF).toNat
  if field = 0x7FF ∨ (field = 0 ∧ fraction = 0) then none
  else if field = 0 then some ⟨fraction, -1074, false⟩
  else some ⟨0x10000000000000 + fraction, (field : Int) - 1075, decide (fraction = 0 ∧ 1 < field)⟩

/-- Compares `c * 10 ^ k` with `x * 2 ^ s`. -/
def compare (c : Nat) (k : Int) (x : Nat) (s : Int) : Ordering :=
  Ord.compare (c * Nat.pow 10 k.toNat * Nat.pow 2 (-s).toNat)
    (x * Nat.pow 2 s.toNat * Nat.pow 10 (-k).toNat)

/-- Whether `c * 10 ^ k` rounds to the number. The ends of the interval round to an even
mantissa. -/
def rounds (b : Binary) (c : Nat) (k : Int) : Bool :=
  let low := compare c k (4 * b.mantissa - (if b.boundary then 1 else 2)) (b.exponent - 2)
  let high := compare c k (4 * b.mantissa + 2) (b.exponent - 2)
  if b.mantissa % 2 = 0 then low != .lt && high != .gt else low == .gt && high == .lt

/-- The greatest `c` for which `c * 10 ^ k` is no more than the number. -/
def floorAt (b : Binary) (k : Int) : Nat :=
  (b.mantissa * Nat.pow 2 b.exponent.toNat * Nat.pow 10 (-k).toNat) /
    (Nat.pow 2 (-b.exponent).toNat * Nat.pow 10 k.toNat)

/-- The least `j`, counted from `from_`, for which `10 ^ j` times the number is at least one. -/
def scaleUp (b : Binary) : Nat → Nat → Nat
  | 0, from_ => from_
  | fuel + 1, from_ => if floorAt b (-(from_ : Int)) = 0 then scaleUp b fuel (from_ + 1) else from_

/-- The exponent of the first decimal digit. -/
def magnitude (b : Binary) : Int :=
  let whole := b.floorAt 0
  if 0 < whole then (Nat.toDigits 10 whole).length - 1 else -(scaleUp b 400 1 : Int)

/-- The best of the number's two neighbours on the grid of multiples of `10 ^ k`. -/
def onGrid? (b : Binary) (k : Int) : Option Nat :=
  let c := b.floorAt k
  match b.rounds c k, b.rounds (c + 1) k with
  | true, false => some c
  | false, true => some (c + 1)
  | false, false => none
  | true, true =>
    match compare (2 * c + 1) k (2 * b.mantissa) b.exponent with
    | .gt => some c
    | .lt => some (c + 1)
    | .eq => some (if c % 2 = 0 then c else c + 1)

/-- Tries grids from `count` digits on. -/
def shortestFrom (b : Binary) : Nat → Nat → Scientific
  | 0, _ => ⟨b.floorAt b.exponent, b.exponent⟩
  | fuel + 1, count =>
    let k := b.magnitude - count + 1
    match b.onGrid? k with
    | some c => ⟨c, k⟩
    | none => shortestFrom b fuel (count + 1)

/-- The decimal number with the fewest digits that rounds to the number. -/
def shortest (b : Binary) : Scientific := shortestFrom b 17 1

end Binary

namespace Scientific

/-- The digits without zeros at the end, and the exponent of the first one. -/
def normal (x : Scientific) : List Char × Int :=
  let digits := Nat.toDigits 10 x.digits
  ((digits.reverse.dropWhile (· = '0')).reverse, x.exponent + (digits.length : Int) - 1)

/-- Digits around a decimal point, with at least one digit on either side of it. -/
def positional (digits : List Char) (first : Int) : String :=
  if first < 0 then
    String.ofList (['0', '.'] ++ List.replicate (-first - 1).toNat '0' ++ digits)
  else
    let count := first.toNat + 1
    let whole := digits.take count ++ List.replicate (count - digits.length) '0'
    let fraction := digits.drop count
    String.ofList (whole ++ ['.'] ++ (if fraction.isEmpty then ['0'] else fraction))

/-- One digit before the point, and an exponent with its sign. -/
def exponential (digits : List Char) (first : Int) : String :=
  let fraction := if digits.length ≤ 1 then [] else '.' :: digits.drop 1
  String.ofList (digits.take 1 ++ fraction ++ ['e', if first < 0 then '-' else '+'] ++
    Nat.toDigits 10 first.natAbs)

end Scientific

/-- The text of the absolute value of a double, written positionally only when `positional` holds
of the exponent of its first digit. -/
def magnitudeText (bits : UInt64) (positional : Int → Bool) : String :=
  match Binary.ofBits? bits with
  | none => if (bits >>> 52) &&& 0x7FF = 0x7FF then "inf" else "0.0"
  | some b =>
    let (digits, first) := b.shortest.normal
    if positional first then Scientific.positional digits first
    else Scientific.exponential digits first

/-- The sign of a double's text. -/
def signText (bits : UInt64) : String := if bits >>> 63 = 1 then "-" else ""

/-- The text of a finite double: an exponent stands where the number is very large or small. -/
def floatText (x : Float) : String :=
  signText x.toBits ++ magnitudeText x.toBits fun first => -5 ≤ first && first ≤ 15

/-- The text of a double without exponents; an infinite one is `inf`, no number is `NaN`. -/
def plainFloatText (x : Float) : String :=
  if x.isNaN then "NaN" else signText x.toBits ++ magnitudeText x.toBits fun _ => true

end Rollout.Text
