/-!
# Strings and keys of settings files

Strings between quotation marks know escapes, strings between apostrophes do not. Three marks
enclose a string of several lines: a line break right behind them does not count, and line breaks
are single characters however they are written.
-/

namespace Rollout.Document.Toml

/-- Whether a character stands between words of a line. -/
def isSpace (c : Char) : Bool := c = ' ' || c = '\t'

/-- Drops blanks of a line. -/
def skipSpace (cs : List Char) : List Char := cs.dropWhile isSpace

/-- Whether a character may stand in a comment or a string as it is. -/
def isVisible (c : Char) : Bool := c = '\t' || (32 ≤ c.toNat && c.toNat != 127)

/-- Drops a line break. -/
def lineBreak? : List Char → Option (List Char)
  | '\n' :: rest => some rest
  | '\r' :: '\n' :: rest => some rest
  | _ => none

/-- Drops a line break, if there is one. -/
def skipLineBreak (cs : List Char) : List Char := (lineBreak? cs).getD cs

/-- The value of a hexadecimal digit. -/
def hexDigit? (c : Char) : Option Nat :=
  if c.isDigit then some (c.toNat - 48)
  else if 'a' ≤ c ∧ c ≤ 'f' then some (c.toNat - 87)
  else if 'A' ≤ c ∧ c ≤ 'F' then some (c.toNat - 55)
  else none

/-- Reads hexadecimal digits as the code of a character. -/
def codeChar? (digits : List Char) (count : Nat) : Option Char := do
  if digits.length ≠ count then none
  else
    let n := (← digits.mapM hexDigit?).foldl (fun n d => n * 16 + d) 0
    if h : n.isValidChar then some (Char.ofNatAux n h) else none

/-- Reads an escape behind its backslash: the character and the number of characters read. -/
def escape? : List Char → Option (Char × Nat)
  | 'b' :: _ => some ('\x08', 1)
  | 't' :: _ => some ('\t', 1)
  | 'n' :: _ => some ('\n', 1)
  | 'f' :: _ => some ('\x0c', 1)
  | 'r' :: _ => some ('\r', 1)
  | '"' :: _ => some ('"', 1)
  | '\\' :: _ => some ('\\', 1)
  | 'u' :: rest => (codeChar? (rest.take 4) 4).map (·, 5)
  | 'U' :: rest => (codeChar? (rest.take 8) 8).map (·, 9)
  | _ => none

/-- A string and what follows it. -/
abbrev StringRest := Option (List Char × List Char)

/-- Reads a string of one line behind its quotation mark, after the characters already read, in
reverse. -/
def takeQuoted : Nat → List Char → List Char → StringRest
  | 0, _, _ => none
  | _, [], _ => none
  | _, '"' :: rest, read => some (read.reverse, rest)
  | fuel + 1, '\\' :: rest, read => do
    let (c, n) ← escape? rest
    takeQuoted fuel (rest.drop n) (c :: read)
  | fuel + 1, c :: rest, read => if isVisible c then takeQuoted fuel rest (c :: read) else none

/-- Reads a string of one line behind its apostrophe. -/
def takeLiteral : List Char → List Char → StringRest
  | [], _ => none
  | c :: rest, read =>
    if c = '\x27' then some (read.reverse, rest)
    else if isVisible c then takeLiteral rest (c :: read) else none

/-- The characters behind a backslash at the end of a line, up to the next word. -/
def skipFolded (cs : List Char) : Option (List Char) :=
  (lineBreak? (skipSpace cs)).map fun rest => go rest.length rest
where
  /-- Drops blanks and line breaks. -/
  go : Nat → List Char → List Char
    | 0, cs => cs
    | fuel + 1, cs =>
      match lineBreak? (skipSpace cs) with
      | some rest => go fuel rest
      | none => skipSpace cs

/-- Ends a string of several lines at a run of marks: up to two marks before the closing three
belong to the string. -/
def closeLines (mark : Char) (cs read : List Char) : StringRest :=
  let marks := (cs.takeWhile (· = mark)).length
  let inside := min (marks - 3) 2
  some (read.reverse ++ List.replicate inside mark, cs.drop (inside + 3))

/-- Whether a text begins with three marks. -/
def threeMarks (mark : Char) (cs : List Char) : Bool := 3 ≤ (cs.takeWhile (· = mark)).length

/-- Reads a string of several lines behind its quotation marks. -/
def takeQuotedLines : Nat → List Char → List Char → StringRest
  | 0, _, _ => none
  | _, [], _ => none
  | fuel + 1, '\\' :: rest, read =>
    match escape? rest with
    | some (c, n) => takeQuotedLines fuel (rest.drop n) (c :: read)
    | none => do takeQuotedLines fuel (← skipFolded rest) read
  | fuel + 1, c :: rest, read =>
    if threeMarks '"' (c :: rest) then closeLines '"' (c :: rest) read
    else match lineBreak? (c :: rest) with
      | some rest => takeQuotedLines fuel rest ('\n' :: read)
      | none => if isVisible c then takeQuotedLines fuel rest (c :: read) else none

/-- Reads a string of several lines behind its apostrophes. -/
def takeLiteralLines : Nat → List Char → List Char → StringRest
  | 0, _, _ => none
  | _, [], _ => none
  | fuel + 1, c :: rest, read =>
    if threeMarks '\x27' (c :: rest) then closeLines '\x27' (c :: rest) read
    else match lineBreak? (c :: rest) with
      | some rest => takeLiteralLines fuel rest ('\n' :: read)
      | none => if isVisible c then takeLiteralLines fuel rest (c :: read) else none

/-- Reads a string, if one begins here. -/
def takeString? (cs : List Char) : Option StringRest :=
  match cs with
  | '"' :: '"' :: '"' :: rest => some (takeQuotedLines (cs.length + 1) (skipLineBreak rest) [])
  | '"' :: rest => some (takeQuoted (cs.length + 1) rest [])
  | '\x27' :: '\x27' :: '\x27' :: rest =>
    some (takeLiteralLines (cs.length + 1) (skipLineBreak rest) [])
  | '\x27' :: rest => some (takeLiteral rest [])
  | _ => none

/-- Whether a character may stand in a key without marks. -/
def isBare (c : Char) : Bool := c.isAlphanum || c = '_' || c = '-'

/-- Reads one name of a key. -/
def takeName (cs : List Char) : StringRest :=
  match cs with
  | '"' :: rest => takeQuoted (cs.length + 1) rest []
  | '\x27' :: rest => takeLiteral rest []
  | _ =>
    match cs.takeWhile isBare with
    | [] => none
    | name => some (name, cs.dropWhile isBare)

/-- The most names that a key may have, and the most brackets that may be open. -/
def maxDepth : Nat := 80

/-- Reads the names of a key with points between them. -/
def takeNames : Nat → List Char → Option (List String × List Char)
  | 0, _ => none
  | fuel + 1, cs => do
    let (name, rest) ← takeName (skipSpace cs)
    match skipSpace rest with
    | '.' :: rest => do
      let (names, rest) ← takeNames fuel rest
      pure (String.ofList name :: names, rest)
    | rest => pure ([String.ofList name], rest)

/-- Reads a key: the names before the last one, the last one, and what follows. -/
def takeKey (cs : List Char) : Option (List String × String × List Char) := do
  let (names, rest) ← takeNames maxDepth cs
  match names.reverse with
  | [] => none
  | last :: front => if names.length < maxDepth then some (front.reverse, last, rest) else none

end Rollout.Document.Toml
