/-!
# Decimal numbers

* `Decimal.read?` is the value of a non-empty run of digits, with any number of leading zeros.
* `Decimal.readUnsigned?` reads a number below a bound; a plus sign may stand in front.
* `Decimal.text` writes a number without leading zeros.
* `Decimal.Spells` and `Decimal.SpellsUnsigned` say which characters stand for a number, without and
  with the sign.
-/

namespace Rollout.Text.Decimal

/-- The value of a digit. -/
def digit (c : Char) : Nat := c.toNat - 48

/-- The value of a run of digits, after the digits already read. -/
def value (cs : List Char) (before : Nat) : Nat := cs.foldl (fun n c => n * 10 + digit c) before

/-- The value of a non-empty run of digits. -/
def read? (cs : List Char) : Option Nat :=
  if cs.isEmpty || !cs.all Char.isDigit then none else some (value cs 0)

/-- The value of a number below `bound`: digits, with a plus sign in front or none. -/
def readUnsigned? (bound : Nat) (cs : List Char) : Option Nat :=
  let digits := match cs with
    | '+' :: rest => rest
    | _ => cs
  (read? digits).filter (· < bound)

/-- Whether characters are a number in digits: at least one, and any number of leading zeros. -/
structure Spells (cs : List Char) (n : Nat) : Prop where
  nonempty : cs ≠ []
  digits : ∀ c ∈ cs, c.isDigit = true
  value_eq : value cs 0 = n

/-- Whether characters are a number in digits, with a plus sign in front or none. -/
def SpellsUnsigned (cs : List Char) (n : Nat) : Prop :=
  ∃ digits, Spells digits n ∧ (cs = digits ∨ cs = '+' :: digits)

/-- The decimal digits of a number. -/
def text (n : Nat) : String := String.ofList (Nat.toDigits 10 n)

/-- A number with a minus sign when it is negative. -/
def intText : Int → String
  | .ofNat n => text n
  | .negSucc n => "-" ++ text (n + 1)

/-- The octal digits of a number. -/
def octalText (n : Nat) : String := String.ofList (Nat.toDigits 8 n)

/-- The hexadecimal digits of a number, in lower case. -/
def hexText (n : Nat) : String := String.ofList (Nat.toDigits 16 n)

end Rollout.Text.Decimal
