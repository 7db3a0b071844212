/-!
# Tables of code ranges

A property of characters is a table of code ranges in ascending order. `Ranges.contains` looks a
code up by halving the table.
-/

namespace Rollout.Text

/-- Inclusive ranges of codes, in ascending order and apart from each other. -/
abbrev Ranges := Array (Nat × Nat)

namespace Ranges

/-- Looks for `code` in the ranges from `low` up to but without `high`; each round halves them. -/
def containsFrom (table : Ranges) (code : Nat) : Nat → Nat → Nat → Bool
  | 0, _, _ => false
  | rounds + 1, low, high =>
    if low < high then
      let middle := (low + high) / 2
      match table[middle]? with
      | none => false
      | some (first, last) =>
        if code < first then containsFrom table code rounds low middle
        else if last < code then containsFrom table code rounds (middle + 1) high
        else true
    else false

/-- Whether a range of the table holds the code of a character. -/
def contains (table : Ranges) (c : Char) : Bool :=
  containsFrom table c.toNat (table.size + 1) 0 table.size

end Ranges

end Rollout.Text
