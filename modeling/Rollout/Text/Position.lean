import Rollout.Text.Decimal

/-!
# Positions

A message about a document may say where in it something stands: ` at line 3 column 14`. Whoever
compares messages wants them without.

* `Position.rest?` is what follows a position at the front of a text.
* `Position.strip` drops the positions of a text, from left to right.
-/

namespace Rollout.Text.Position

/-- What follows a word at the front of a text. -/
def behind? : List Char → List Char → Option (List Char)
  | [], cs => some cs
  | w :: word, c :: cs => if w = c then behind? word cs else none
  | _ :: _, [] => none

/-- What follows a number at the front of a text. -/
def behindNumber? (cs : List Char) : Option (List Char) :=
  match cs with
  | c :: _ => if c.isDigit then some (cs.dropWhile Char.isDigit) else none
  | [] => none

/-- What follows a position at the front of a text. -/
def rest? (cs : List Char) : Option (List Char) := do
  let cs ← behind? " at line ".toList cs
  let cs ← behindNumber? cs
  let cs ← behind? " column ".toList cs
  behindNumber? cs

/-- The characters outside of positions. With as much fuel as there are characters, all of them are
looked at. -/
def stripFrom : Nat → List Char → List Char
  | 0, _ | _, [] => []
  | fuel + 1, c :: cs =>
    match rest? (c :: cs) with
    | some rest => stripFrom fuel rest
    | none => c :: stripFrom fuel cs

/-- A text without its positions. -/
def strip (s : String) : String :=
  let cs := s.toList
  String.ofList (stripFrom cs.length cs)

end Rollout.Text.Position
