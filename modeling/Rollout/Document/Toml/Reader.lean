import Rollout.Document.Toml.Scalars
import Rollout.Document.Toml.Tree

/-!
# Reading settings files

`read` turns the text of a settings file into a document. A text that breaks the grammar, or gives
one name two meanings, has none.
-/

namespace Rollout.Document.Toml

/-- Drops a comment up to the end of its line. -/
def skipComment (cs : List Char) : List Char :=
  match cs with
  | '#' :: rest => rest.dropWhile isVisible
  | cs => cs

/-- Drops blanks, comments and line breaks inside brackets. -/
def skipLines : Nat → List Char → List Char
  | 0, cs => cs
  | fuel + 1, cs =>
    match lineBreak? (skipComment (skipSpace cs)) with
    | some rest => skipLines fuel rest
    | none => skipSpace cs

/-- Drops a word. -/
def takeWord? : List Char → List Char → Option (List Char)
  | [], cs => some cs
  | c :: word, x :: cs => if c = x then takeWord? word cs else none
  | _ :: _, [] => none

mutual

/-- Reads a value: `open_` brackets are open around it. -/
def takeValue : Nat → Nat → List Char → Option (Node × List Char)
  | 0, _, _ => none
  | fuel + 1, open_, cs =>
    match takeString? cs with
    | some result => result.map fun (text, rest) => (.string (.ok (String.ofList text)), rest)
    | none =>
      match cs with
      | '[' :: rest =>
        if open_ + 1 < maxDepth then
          (takeItems fuel (open_ + 1) (skipLines rest.length rest)).map fun (nodes, rest) =>
            (.array (.ofList nodes), rest)
        else none
      | '\x7b' :: rest =>
        if open_ + 1 < maxDepth then
          match skipSpace rest with
          | '\x7d' :: rest => some (.object .closed, rest)
          | rest =>
            (takePairs fuel (open_ + 1) rest (.named [])).map fun (t, rest) =>
              (.object (entryNodes t.entries), rest)
        else none
      | 't' :: rest => (takeWord? ['r', 'u', 'e'] rest).map (.bool true, ·)
      | 'f' :: rest => (takeWord? ['a', 'l', 's', 'e'] rest).map (.bool false, ·)
      | 'i' :: _ | 'n' :: _ => takeFloat? cs
      | c :: _ => if c = '+' ∨ c = '-' ∨ c.isDigit then takeNumber? cs else none
      | [] => none

/-- Reads the items of an array up to its closing bracket. -/
def takeItems : Nat → Nat → List Char → Option (List Node × List Char)
  | 0, _, _ => none
  | _, _, ']' :: rest => some ([], rest)
  | fuel + 1, open_, cs => do
    let (node, rest) ← takeValue fuel open_ cs
    match skipLines rest.length rest with
    | ',' :: rest => do
      let (nodes, rest) ← takeItems fuel open_ (skipLines rest.length rest)
      pure (node :: nodes, rest)
    | ']' :: rest => pure ([node], rest)
    | _ => none

/-- Reads the members of a table on one line up to its closing brace. -/
def takePairs : Nat → Nat → List Char → Table → Option (Table × List Char)
  | 0, _, _, _ => none
  | fuel + 1, open_, cs, t => do
    let (path, name, rest) ← takeKey cs
    match rest with
    | '=' :: rest => do
      let (node, rest) ← takeValue fuel open_ (skipSpace rest)
      let t ← t.define path name (.leaf node)
      match skipSpace rest with
      | ',' :: rest => takePairs fuel open_ rest t
      | '\x7d' :: rest => pure (t, rest)
      | _ => none
    | _ => none

end

/-- Drops the rest of a line, where nothing but a comment may stand. -/
def endLine? (cs : List Char) : Option (List Char) :=
  match skipComment (skipSpace cs) with
  | [] => some []
  | cs => lineBreak? cs

/-- Reads one line, or a value of several lines. -/
def takeLine (p : Progress) (cs : List Char) : Option (Progress × List Char) :=
  match cs with
  | '#' :: _ => do pure (p, ← endLine? cs)
  | '[' :: '[' :: rest => do
    let (path, name, rest) ← takeKey rest
    match rest with
    | ']' :: ']' :: rest => do pure (← p.openNext path name, ← endLine? rest)
    | _ => none
  | '[' :: rest => do
    let (path, name, rest) ← takeKey rest
    match rest with
    | ']' :: rest => do pure (← p.openTable path name, ← endLine? rest)
    | _ => none
  | _ =>
    match lineBreak? cs with
    | some rest => some (p, rest)
    | none => do
      let (path, name, rest) ← takeKey cs
      match rest with
      | '=' :: rest => do
        let (node, rest) ← takeValue (3 * rest.length + 3) 0 (skipSpace rest)
        pure (← p.define path name (.leaf node), ← endLine? rest)
      | _ => none

/-- Reads lines up to the end. -/
def takeAll : Nat → Progress → List Char → Option Table
  | 0, _, _ => none
  | fuel + 1, p, cs =>
    match skipSpace cs with
    | [] => p.finish
    | cs => do
      let (p, rest) ← takeLine p cs
      takeAll fuel p rest

/-- The document of a text. A mark of the byte order may stand in front. -/
def read (s : String) : Option Node :=
  let cs := match s.toList with
    | '\uFEFF' :: rest => rest
    | cs => cs
  (takeAll (cs.length + 1) .start cs).map fun t => .object (entryNodes t.entries)

end Rollout.Document.Toml
