import Rollout.Document.Json.Strings

/-!
# Reading JSON

`read` turns a text into a document. The tree ends at the first place where the grammar breaks for
every reader; a string whose escapes make no text, or a number that is too large, breaks it only
for those who want the value.
-/

namespace Rollout.Document

/-- A tree, and whether more than blanks follows it. -/
structure Parsed where
  root : Node
  trailing : Bool
deriving Inhabited

namespace Json

/-- Whether a symbol stands between marks without a meaning. -/
def isSpace : Option Char → Bool
  | some c => c = ' ' || c = '\n' || c = '\t' || c = '\r'
  | none => false

/-- Drops blanks. -/
def skipSpace (s : Symbols) : Symbols := s.dropWhile isSpace

/-- Reads the rest of a word. -/
def takeWord (node : Node) : List Char → Symbols → Node × Option Symbols
  | [], s => (node, some s)
  | _ :: _, [] => (.broken .endInValue .endInValue, none)
  | c :: word, x :: s =>
    if x = some c then takeWord node word s else (.broken .unknownWord .unknownWord, none)

/-- Reads a number behind its sign. -/
def takeNumber (negative : Bool) (s : Symbols) : Node × Option Symbols :=
  match takeNumeral negative s with
  | .ok (numeral, rest) => (numeral.node, some rest)
  | .error (read, skip) => (.broken read skip, none)

/-- Reads a string value behind its opening mark. -/
def takeStringNode (s : Symbols) : Node × Option Symbols :=
  match takeString s with
  | (text, .ok rest) => (.string text, some rest)
  | (.error read, .error skip) => (.broken read skip, none)
  | (.ok _, .error skip) => (.broken skip skip, none)

mutual

/-- Reads a value: the value, and what follows it where the grammar held. -/
def takeValue : Nat → Symbols → Node × Option Symbols
  | 0, _ => (.broken .noValue .noValue, none)
  | fuel + 1, s =>
    match skipSpace s with
    | [] => (.absent, none)
    | some '"' :: rest => takeStringNode rest
    | some '[' :: rest =>
      let (items, rest) := takeItems fuel rest
      (.array items, rest)
    | some '\x7b' :: rest =>
      let (members, rest) := takeMembers fuel rest
      (.object members, rest)
    | some 'n' :: rest => takeWord .null ['u', 'l', 'l'] rest
    | some 't' :: rest => takeWord (.bool true) ['r', 'u', 'e'] rest
    | some 'f' :: rest => takeWord (.bool false) ['a', 'l', 's', 'e'] rest
    | some '-' :: rest => takeNumber true rest
    | x :: rest =>
      if isDigit x then takeNumber false (x :: rest) else (.broken .noValue .noValue, none)

/-- Reads items behind the opening bracket. -/
def takeItems : Nat → Symbols → Items × Option Symbols
  | 0, _ => (.broken .endInList .endInList, none)
  | fuel + 1, s =>
    match skipSpace s with
    | [] => (.broken .endInList .endInList, none)
    | some ']' :: rest => (.closed, some rest)
    | s => takeItem fuel s

/-- Reads an item and those after it. -/
def takeItem : Nat → Symbols → Items × Option Symbols
  | 0, _ => (.broken .endInList .endInList, none)
  | fuel + 1, s =>
    match takeValue fuel s with
    | (node, none) => (.item node .closed, none)
    | (node, some rest) =>
      let (items, rest) := takeNextItems fuel rest
      (.item node items, rest)

/-- Reads what follows an item. -/
def takeNextItems : Nat → Symbols → Items × Option Symbols
  | 0, _ => (.broken .endInList .endInList, none)
  | fuel + 1, s =>
    match skipSpace s with
    | [] => (.broken .endInList .endInList, none)
    | some ']' :: rest => (.closed, some rest)
    | some ',' :: rest =>
      match skipSpace rest with
      | [] => (.broken .endInValue .endInValue, none)
      | some ']' :: _ => (.broken .trailingComma .noValue, none)
      | s => takeItem fuel s
    | _ :: _ => (.broken .missingListMark .missingListMark, none)

/-- Reads members behind the opening brace. -/
def takeMembers : Nat → Symbols → Members × Option Symbols
  | 0, _ => (.broken .endInObject .endInObject, none)
  | fuel + 1, s =>
    match skipSpace s with
    | [] => (.broken .endInObject .endInObject, none)
    | some '\x7d' :: rest => (.closed, some rest)
    | some '"' :: rest => takeMember fuel rest
    | s => (.unnamed (takeValue fuel s).1, none)

/-- Reads a member behind the opening mark of its key, and those after it. -/
def takeMember : Nat → Symbols → Members × Option Symbols
  | 0, _ => (.broken .endInObject .endInObject, none)
  | fuel + 1, s =>
    match takeString s with
    | (.error read, .error skip) => (.broken read skip, none)
    | (.ok _, .error skip) => (.broken skip skip, none)
    | (key, .ok rest) =>
      match skipSpace rest with
      | [] => (.dangling key .endInObject, none)
      | some ':' :: rest =>
        match takeValue fuel rest with
        | (node, none) => (.member key node .closed, none)
        | (node, some rest) =>
          let (members, rest) := takeNextMembers fuel rest
          (.member key node members, rest)
      | _ :: _ => (.dangling key .missingColon, none)

/-- Reads what follows a member. -/
def takeNextMembers : Nat → Symbols → Members × Option Symbols
  | 0, _ => (.broken .endInObject .endInObject, none)
  | fuel + 1, s =>
    match skipSpace s with
    | [] => (.broken .endInObject .endInObject, none)
    | some '\x7d' :: rest => (.closed, some rest)
    | some ',' :: rest =>
      match skipSpace rest with
      | [] => (.broken .endInValue .endInObject, none)
      | some '\x7d' :: _ => (.broken .trailingComma .keyNotString, none)
      | some '"' :: rest => takeMember fuel rest
      | _ :: _ => (.broken .keyNotString .keyNotString, none)
    | _ :: _ => (.broken .missingObjectMark .missingObjectMark, none)

end

/-- The document of a sequence of symbols. -/
def readSymbols (s : Symbols) : Parsed :=
  let (root, rest) := takeValue (3 * s.length + 3) s
  ⟨root, match rest with
    | none => false
    | some rest => !(skipSpace rest).isEmpty⟩

/-- The document of a byte string. -/
def readBytes (bytes : Bytes) : Parsed := readSymbols (Rollout.Text.Utf8.symbols bytes)

/-- The document of a text. -/
def read (s : String) : Parsed := readSymbols (s.toList.map some)

end Json

end Rollout.Document
