import Rollout.Document.Value

/-!
# Writing JSON

Two written forms of a value: `compact` on one line without blanks, and `pretty` with one item or
member a line, two blanks deeper than what holds it.
-/

namespace Rollout.Document.Json

/-- A character of a string: marks, the backslash and controls are escaped. -/
def escape (c : Char) : List Char :=
  match c with
  | '"' => ['\\', '"']
  | '\\' => ['\\', '\\']
  | '\x08' => ['\\', 'b']
  | '\t' => ['\\', 't']
  | '\n' => ['\\', 'n']
  | '\x0c' => ['\\', 'f']
  | '\r' => ['\\', 'r']
  | _ =>
    if c.toNat < 32 then
      ['\\', 'u', '0', '0', Nat.digitChar (c.toNat / 16), Nat.digitChar (c.toNat % 16)]
    else [c]

/-- A string between its marks. -/
def string (s : String) : List Char := '"' :: (s.toList.flatMap escape ++ ['"'])

/-- A value without parts. -/
def scalar : Value → List Char
  | .null => "null".toList
  | .bool true => "true".toList
  | .bool false => "false".toList
  | .integer n => (Rollout.Text.Decimal.intText n).toList
  | .float shown => shown.toList
  | .string s => string s
  | .array _ => ['[', ']']
  | .object _ => ['\x7b', '\x7d']

mutual

/-- A value on one line. -/
def compactChars : Value → List Char
  | .array [] => ['[', ']']
  | .array (v :: rest) => '[' :: (compactChars v ++ compactItems rest)
  | .object [] => ['\x7b', '\x7d']
  | .object ((k, v) :: rest) =>
    '\x7b' :: (string k ++ ':' :: (compactChars v ++ compactMembers rest))
  | v => scalar v

/-- The items after the first one, and the closing bracket. -/
def compactItems : List Value → List Char
  | [] => [']']
  | v :: rest => ',' :: (compactChars v ++ compactItems rest)

/-- The members after the first one, and the closing brace. -/
def compactMembers : List (String × Value) → List Char
  | [] => ['\x7d']
  | (k, v) :: rest => ',' :: (string k ++ ':' :: (compactChars v ++ compactMembers rest))

end

/-- A new line and its indentation. -/
def newLine (depth : Nat) : List Char := '\n' :: List.replicate (2 * depth) ' '

mutual

/-- A value over several lines. -/
def prettyChars (depth : Nat) : Value → List Char
  | .array [] => ['[', ']']
  | .array (v :: rest) =>
    '[' :: (newLine (depth + 1) ++ prettyChars (depth + 1) v ++ prettyItems depth rest)
  | .object [] => ['\x7b', '\x7d']
  | .object ((k, v) :: rest) =>
    '\x7b' :: (newLine (depth + 1) ++ string k ++ ':' :: ' ' :: prettyChars (depth + 1) v ++
      prettyMembers depth rest)
  | v => scalar v

/-- The items after the first one, and the closing bracket. -/
def prettyItems (depth : Nat) : List Value → List Char
  | [] => newLine depth ++ [']']
  | v :: rest =>
    ',' :: (newLine (depth + 1) ++ prettyChars (depth + 1) v ++ prettyItems depth rest)

/-- The members after the first one, and the closing brace. -/
def prettyMembers (depth : Nat) : List (String × Value) → List Char
  | [] => newLine depth ++ ['\x7d']
  | (k, v) :: rest =>
    ',' :: (newLine (depth + 1) ++ string k ++ ':' :: ' ' :: prettyChars (depth + 1) v ++
      prettyMembers depth rest)

end

/-- The text of a value on one line. -/
def compact (v : Value) : String := String.ofList (compactChars v)

/-- The text of a value over several lines. -/
def pretty (v : Value) : String := String.ofList (prettyChars 0 v)

end Rollout.Document.Json
