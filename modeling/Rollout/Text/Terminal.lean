/-!
# What a terminal would show

A text may hold controls of a terminal: single characters, and sequences that begin with an escape.
`Terminal.visible` drops them. Blanks that lay out a text stay.

* A `Sequence` is what was begun and not ended yet, and `Sequence.advance` what one more character
  makes of it.
* A sequence is set aside by a layout character in it: the text goes on to the next control, which
  belongs to the sequence again.
-/

namespace Rollout.Text.Terminal

/-- How far a control sequence has come. -/
inductive Sequence where
  | none
  | escape
  /-- An escape with marks. -/
  | marked
  /-- A control sequence, up to the letter that ends it. -/
  | control
  /-- The head of a string for the device: nothing of it yet, its numbers, its marks. -/
  | device
  | deviceNumbers
  | deviceMarks
  /-- A string that is passed on, up to the string terminator. -/
  | passed
  /-- A command for the window, up to the bell. -/
  | window
deriving DecidableEq, Repr

/-- Whether a character lays out a text. -/
def isLayout (c : Char) : Bool := c = '\t' || c = '\n' || c = '\x0c' || c = '\r'

/-- Whether a character is a printable one of the first half of the byte range. -/
def isPlain (c : Char) : Bool := ' ' ≤ c && c ≤ '~'

/-- Whether a character is a mark in front of the letter that ends a sequence. -/
def isMark (c : Char) : Bool := ' ' ≤ c && c ≤ '/'

/-- Whether a character ends a sequence. -/
def isFinal (c : Char) : Bool := '@' ≤ c && c ≤ '~'

namespace Sequence

/-- What the character behind an escape begins. -/
def opened (c : Char) : Sequence :=
  if isMark c then marked
  else if c = '[' then control
  else if c = ']' then window
  else if c = 'P' then device
  else if c = 'X' ∨ c = '^' ∨ c = '_' then passed
  else if isPlain c then none
  else escape

/-- What a character of the head of a string for the device makes of `s`. -/
def header (s : Sequence) (c : Char) : Sequence :=
  if isMark c then deviceMarks
  else if isFinal c then passed
  else if !isPlain c then s
  else
    match s with
    | device => if c = ':' then passed else deviceNumbers
    | deviceNumbers => if c.isDigit ∨ c = ';' then deviceNumbers else passed
    | _ => passed

/-- What one more character of the first half of the byte range makes of a sequence. -/
def advance (s : Sequence) (c : Char) : Sequence :=
  if c = '\x18' ∨ c = '\x1a' then none
  else if c = '\x1b' then escape
  else
    match s with
    | none => none
    | escape => opened c
    | marked => if isPlain c ∧ !isMark c then none else marked
    | control => if isFinal c then none else control
    | device | deviceNumbers | deviceMarks => s.header c
    | passed => passed
    | window => if c = '\x07' then none else window

/-- Whether a layout character in a sequence is shown. -/
def showsLayout : Sequence → Bool
  | none | escape | marked | control => true
  | _ => false

end Sequence

/-- Whether the byte of the string terminator is one of the bytes that continue a character. -/
def holdsTerminator (c : Char) : Bool :=
  let n := c.toNat
  n % 64 = 0x1C || (0x7FF < n && n / 64 % 64 = 0x1C) || (0xFFFF < n && n / 64 / 64 % 64 = 0x1C)

/-- What a character of several bytes makes of a sequence. -/
def Sequence.across (s : Sequence) (c : Char) : Sequence :=
  if s = .passed ∧ holdsTerminator c then .none else s

/-- The characters that are shown of a text, within a sequence. While `shows` holds, the sequence is
set aside. -/
def visibleFrom : Bool → Sequence → List Char → List Char
  | _, _, [] => []
  | shows, s, c :: rest =>
    if '\x7f' < c then
      if shows || s = .none then c :: visibleFrom true .none rest
      else visibleFrom false (s.across c) rest
    else if (isPlain c && (shows || s = .none)) || (isLayout c && (shows || s.showsLayout)) then
      c :: visibleFrom true s rest
    else visibleFrom false (s.advance c) rest

/-- What a terminal would show of a text that stands between controls of its own. -/
def visible (s : String) : String := String.ofList (visibleFrom true .none s.toList)

end Rollout.Text.Terminal
