import Rollout.Document.Json.Number
import Rollout.Text.Utf8

/-!
# JSON strings

A string is read in two steps.

* `scan` finds the closing mark: it knows the escapes but not what they stand for.
* `assemble` joins the units to text. Two escapes may name one character together, and an escape of
  half a character is a fault, as is a byte that is no part of a character.

A reader who passes over the string takes the first step only.
-/

namespace Rollout.Document.Json

/-- What a string is made of: a character, the code of an escape, or a byte that is no part of a
character. -/
inductive StringUnit where
  | char (c : Char)
  | code (n : Nat)
  | undecodable
deriving Repr, DecidableEq

/-- How a scan of a string ends. -/
inductive StringEnd where
  | closed (rest : Symbols)
  | ended
  | control
  | badEscape
  | badDigits
deriving Repr, DecidableEq

/-- The character of an escape with one letter. -/
def escaped? (c : Char) : Option Char :=
  match c with
  | '"' => some '"'
  | '\\' => some '\\'
  | '/' => some '/'
  | 'b' => some '\x08'
  | 'f' => some '\x0c'
  | 'n' => some '\n'
  | 'r' => some '\r'
  | 't' => some '\t'
  | _ => none

/-- The value of a hexadecimal digit. -/
def hexValue? (s : Option Char) : Option Nat :=
  s.bind fun c =>
    if c.isDigit then some (c.toNat - 48)
    else if 'a' ≤ c ∧ c ≤ 'f' then some (c.toNat - 87)
    else if 'A' ≤ c ∧ c ≤ 'F' then some (c.toNat - 55)
    else none

/-- The number of four hexadecimal digits. -/
def code? (a b c d : Option Char) : Option Nat := do
  return ((← hexValue? a) * 16 + (← hexValue? b)) * 256 + ((← hexValue? c) * 16 + (← hexValue? d))

/-- Whether fewer than four bytes are left. -/
def shorterThanCode (s : Symbols) : Bool :=
  (s.take 4).foldl (fun n c => n + Rollout.Text.Utf8.symbolSize c) 0 < 4

/-- The units of a string up to its end, after those already read, in reverse. -/
def scan : Symbols → List StringUnit → List StringUnit × StringEnd
  | [], read => (read, .ended)
  | none :: rest, read => scan rest (.undecodable :: read)
  | some '"' :: rest, read => (read, .closed rest)
  | some '\\' :: some 'u' :: a :: b :: c :: d :: rest, read =>
    match code? a b c d with
    | some n => scan rest (.code n :: read)
    | none => (read, .badDigits)
  | some '\\' :: some 'u' :: rest, read =>
    (read, if shorterThanCode rest then .ended else .badDigits)
  | some '\\' :: some c :: rest, read =>
    match escaped? c with
    | some c => scan rest (.char c :: read)
    | none => (read, .badEscape)
  | some '\\' :: none :: _, read => (read, .badEscape)
  | [some '\\'], read => (read, .ended)
  | some c :: rest, read => if c.toNat < 32 then (read, .control) else scan rest (.char c :: read)

/-- The fault of a string that is not closed. -/
def StringEnd.fault? : StringEnd → Option GrammarFault
  | closed _ => none
  | ended => some .endInString
  | control => some .controlInString
  | badEscape => some .badEscape
  | badDigits => some .badEscape

/-- The fault of an escape for the first half of a character, where the string ends behind it. -/
def StringEnd.cut : StringEnd → GrammarFault
  | ended => .endInString
  | badDigits => .badEscape
  | _ => .cutEscape

/-- Whether a code is the first half of a character. -/
def isLead (n : Nat) : Bool := 0xD800 ≤ n && n < 0xDC00

/-- Whether a code is the second half of a character. -/
def isTrail (n : Nat) : Bool := 0xDC00 ≤ n && n < 0xE000

/-- Joins units to characters, after those already joined, in reverse. -/
def assemble (end_ : StringEnd) : List StringUnit → List Char → Except GrammarFault (List Char)
  | [], read => .ok read
  | .char c :: rest, read => assemble end_ rest (c :: read)
  | .undecodable :: rest, read => assemble end_ rest read
  | [.code n], read =>
    if isTrail n then .error .loneSurrogate
    else if isLead n then .error end_.cut
    else .ok (Char.ofNat n :: read)
  | .code n :: .code m :: rest, read =>
    if isTrail n then .error .loneSurrogate
    else if isLead n then
      if isTrail m then
        assemble end_ rest (Char.ofNat (0x10000 + (n - 0xD800) * 0x400 + (m - 0xDC00)) :: read)
      else .error .loneSurrogate
    else assemble end_ (.code m :: rest) (Char.ofNat n :: read)
  | .code n :: rest, read =>
    if isTrail n then .error .loneSurrogate
    else if isLead n then .error .cutEscape
    else assemble end_ rest (Char.ofNat n :: read)

/-- The text of units that end so. -/
def unitsText (units : List StringUnit) (end_ : StringEnd) : Text :=
  match assemble end_ units [] with
  | .error fault => .error fault
  | .ok read =>
    match end_.fault? with
    | some fault => .error fault
    | none =>
      if units.contains .undecodable then .error .badText else .ok (String.ofList read.reverse)

/-- Reads a string behind its opening mark: its text, and the text behind its closing mark. -/
def takeString (s : Symbols) : Text × Except GrammarFault Symbols :=
  let (reversed, end_) := scan s []
  let text := unitsText reversed.reverse end_
  match end_ with
  | .closed rest => (text, .ok rest)
  | end_ => (text, .error (end_.fault?.getD .endInString))

end Rollout.Document.Json
