/-!
# Blank characters

The characters with the Unicode property White_Space, and the two ways a text is cut at them.

* `trim` drops the blanks at both ends.
* `words` are the longest runs without a blank, in order.
* `Spaced` and `HasWord` say which words stand in a text without cutting it: all of them in a row,
  and one at a place of its own.
-/

namespace Rollout.Text

/-- The Unicode property White_Space. -/
def isBlank (c : Char) : Bool :=
  let n := c.toNat
  (9 ≤ n && n ≤ 13) || n == 0x20 || n == 0x85 || n == 0xA0 || n == 0x1680 ||
  (0x2000 ≤ n && n ≤ 0x200A) || n == 0x2028 || n == 0x2029 || n == 0x202F || n == 0x205F ||
  n == 0x3000

/-- Drops the blanks at both ends. -/
def trimChars (cs : List Char) : List Char :=
  ((cs.dropWhile isBlank).reverse.dropWhile isBlank).reverse

/-- Drops the blanks at both ends. -/
def trim (s : String) : String := String.ofList (trimChars s.toList)

/-- Splits off words, with the word read so far in reverse. -/
def wordsFrom : List Char → List Char → List (List Char)
  | [], word => if word.isEmpty then [] else [word.reverse]
  | c :: rest, word =>
    if isBlank c then
      if word.isEmpty then wordsFrom rest [] else word.reverse :: wordsFrom rest []
    else wordsFrom rest (c :: word)

/-- The longest runs without a blank, in order. -/
def words (cs : List Char) : List (List Char) := wordsFrom cs []

/-- Whether characters are blanks, all of them. -/
def IsGap (cs : List Char) : Prop := ∀ c ∈ cs, isBlank c = true

instance (cs : List Char) : Decidable (IsGap cs) := List.decidableBAll _ _

/-- Whether characters are a word: at least one, and none of them blank. -/
structure IsWord (cs : List Char) : Prop where
  nonempty : cs ≠ []
  not_blank : ∀ c ∈ cs, isBlank c = false

/-- Whether characters are the spellings of members in a row, with blanks between each two. -/
inductive Row {α : Type} (spells : List Char → α → Prop) : List Char → List α → Prop
  | nil : Row spells [] []
  | single {cs : List Char} {a : α} : spells cs a → Row spells cs [a]
  | cons {cs gap rest : List Char} {a next : α} {as : List α} : spells cs a → IsGap gap →
    gap ≠ [] → Row spells rest (next :: as) → Row spells (cs ++ (gap ++ rest)) (a :: next :: as)

/-- Whether characters are the spellings of members in a row, with blanks between each two, and
with blanks or none at both ends. -/
def Spaced {α : Type} (spells : List Char → α → Prop) (cs : List Char) (as : List α) : Prop :=
  ∃ front row back, cs = front ++ (row ++ back) ∧ IsGap front ∧ Row spells row as ∧ IsGap back

/-- Whether a word stands somewhere in a text: on either side of it the text ends or has a blank. -/
def HasWord (cs word : List Char) : Prop :=
  ∃ front back, cs = front ++ (word ++ back) ∧ IsWord word ∧
    (∀ c ∈ front.getLast?, isBlank c = true) ∧ ∀ c ∈ back.head?, isBlank c = true

end Rollout.Text
