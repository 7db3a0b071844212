import Rollout.Document.Toml.Strings
import Rollout.Document.Value

/-!
# How settings are spelled

Which characters stand for a value in a settings file, said without the functions that read them.

* A string stands between quotation marks, each of its characters as it is or as one of its escapes.
* A number is decimal, a list of strings stands between brackets, and a table on one line between
  braces. Blanks may stand wherever two parts meet.
* `SpellsLines`: each member is a line, with its key, an equals sign and its value.
-/

namespace Rollout.Document.Toml

/-- The greatest integer of settings. -/
def maxInteger : Nat := 0x7fffffffffffffff

/-- Whether characters are blanks of a line. -/
def Blanks (cs : List Char) : Prop := ∀ c ∈ cs, c = ' ' ∨ c = '\t'

/-- The escapes of one character, and what they stand for. -/
def namedEscapes : List (Char × Char) :=
  [('b', '\x08'), ('t', '\t'), ('n', '\n'), ('f', '\x0c'), ('r', '\r'), ('"', '"'), ('\\', '\\')]

/-- Whether hexadecimal digits, in either case, are the code of a character. -/
def SpellsCode (digits : List Char) (c : Char) : Prop :=
  (digits.mapM hexDigit?).map (·.foldl (fun n d => n * 16 + d) 0) = some c.toNat

/-- Whether characters stand for a character inside a string. -/
inductive SpellsChar : List Char → Char → Prop
  | plain {c : Char} : isVisible c = true → c ≠ '"' → c ≠ '\\' → SpellsChar [c] c
  | named {mark c : Char} : (mark, c) ∈ namedEscapes → SpellsChar ['\\', mark] c
  | short {digits : List Char} {c : Char} : digits.length = 4 → SpellsCode digits c →
    SpellsChar ('\\' :: 'u' :: digits) c
  | long {digits : List Char} {c : Char} : digits.length = 8 → SpellsCode digits c →
    SpellsChar ('\\' :: 'U' :: digits) c

/-- Whether characters stand for characters inside a string, one after the other. -/
inductive SpellsChars : List Char → List Char → Prop
  | nil : SpellsChars [] []
  | cons {cs rest s : List Char} {c : Char} : SpellsChar cs c → SpellsChars rest s →
    SpellsChars (cs ++ rest) (c :: s)

/-- Whether characters are a string. -/
def SpellsString (cs : List Char) (s : String) : Prop :=
  ∃ inner, cs = '"' :: (inner ++ ['"']) ∧ SpellsChars inner s.toList

/-- Whether characters are strings with commas between them, up to the closing bracket. -/
inductive SpellsItems : List Char → List String → Prop
  | close {blanks : List Char} : Blanks blanks → SpellsItems (blanks ++ [']']) []
  | last {blanks cs blanks' : List Char} {s : String} : Blanks blanks → SpellsString cs s →
    Blanks blanks' → SpellsItems (blanks ++ (cs ++ (blanks' ++ [']']))) [s]
  | next {blanks cs blanks' rest : List Char} {s : String} {texts : List String} :
    Blanks blanks → SpellsString cs s → Blanks blanks' → SpellsItems rest texts →
      SpellsItems (blanks ++ (cs ++ (blanks' ++ ',' :: rest))) (s :: texts)

/-- Whether characters are a string or a number. -/
inductive SpellsScalar : List Char → Value → Prop
  | string {cs : List Char} {s : String} : SpellsString cs s → SpellsScalar cs (.string s)
  | number (n : Nat) : SpellsScalar (Nat.toDigits 10 n) (.nat n)

/-- Whether characters are a member: its key, an equals sign and its value. -/
inductive SpellsMember (spells : List Char → Value → Prop) : List Char → String × Value → Prop
  | member {front before behind back cs : List Char} {key : String} {v : Value} :
    Blanks front → Blanks before → Blanks behind → spells cs v → Blanks back →
      SpellsMember spells
        (front ++ (key.toList ++ (before ++ '=' :: (behind ++ (cs ++ back))))) (key, v)

/-- Whether characters are members with commas between them, up to the closing brace. -/
inductive SpellsMembers : List Char → List (String × Value) → Prop
  | last {cs : List Char} {m : String × Value} : SpellsMember SpellsScalar cs m →
    SpellsMembers (cs ++ ['\x7d']) [m]
  | next {cs rest : List Char} {m : String × Value} {members : List (String × Value)} :
    SpellsMember SpellsScalar cs m → SpellsMembers rest members →
      SpellsMembers (cs ++ ',' :: rest) (m :: members)

/-- Whether characters are a value. -/
inductive SpellsValue : List Char → Value → Prop
  | scalar {cs : List Char} {v : Value} : SpellsScalar cs v → SpellsValue cs v
  | strings {cs : List Char} {texts : List String} : SpellsItems cs texts →
    SpellsValue ('[' :: cs) (.strings texts)
  | table {cs : List Char} {members : List (String × Value)} : SpellsMembers cs members →
    SpellsValue ('\x7b' :: cs) (.object members)

/-- Whether characters are members, each on its line. The last line need not be ended. -/
inductive SpellsLines : List Char → List (String × Value) → Prop
  | nil : SpellsLines [] []
  | last {cs : List Char} {m : String × Value} : SpellsMember SpellsValue cs m → SpellsLines cs [m]
  | next {cs lineBreak rest : List Char} {m : String × Value} {members : List (String × Value)} :
    SpellsMember SpellsValue cs m → lineBreak = ['\n'] ∨ lineBreak = ['\r', '\n'] →
      SpellsLines rest members → SpellsLines (cs ++ (lineBreak ++ rest)) (m :: members)

end Rollout.Document.Toml
