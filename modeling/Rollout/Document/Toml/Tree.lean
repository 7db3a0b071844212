import Rollout.Document.Node

/-!
# Trees of settings

The tables of a settings file while it is read.

* A table is `implicit` until a header names it, and `dotted` when only keys with points made it.
* `alter` changes a table that a path leads to and makes the tables on the way. A path with points
  in a key may not lead through a table that a header named, and no path leads through a value.
* A table that a header names moves behind what its parent then holds.
-/

namespace Rollout.Document.Toml

/-- What a name of a table stands for: a value, a table, or a list of tables. -/
inductive Item where
  | leaf (node : Node)
  | table (implicit dotted : Bool) (entries : List (String × Item))
  | tables (all : List (List (String × Item)))

instance : Inhabited Item := ⟨.leaf .null⟩

/-- A table on the way of a path. -/
structure Table where
  implicit : Bool
  dotted : Bool
  entries : List (String × Item)

/-- A table that a header names, or the table at the top. -/
def Table.named (entries : List (String × Item)) : Table := ⟨false, false, entries⟩

/-- A table as an item. -/
def Table.item (t : Table) : Item := .table t.implicit t.dotted t.entries

mutual

/-- A tree as a document. -/
def Item.node : Item → Node
  | .leaf node => node
  | .table _ _ entries => .object (entryNodes entries)
  | .tables all => .array (tableNodes all)

/-- The entries of a table as a document. -/
def entryNodes : List (String × Item) → Members
  | [] => .closed
  | (name, item) :: rest => .member (.ok name) item.node (entryNodes rest)

/-- A list of tables as a document. -/
def tableNodes : List (List (String × Item)) → Items
  | [] => .closed
  | entries :: rest => .item (.object (entryNodes entries)) (tableNodes rest)

end

namespace Table

/-- The table with an item under a name that it has, or at its end. -/
def put (t : Table) (name : String) (item : Item) : Table :=
  if (t.entries.lookup name).isSome then
    { t with entries := t.entries.map fun e => if e.1 = name then (name, item) else e }
  else { t with entries := t.entries ++ [(name, item)] }

/-- The table without a name. -/
def erase (t : Table) (name : String) : Table :=
  { t with entries := t.entries.filter (·.1 != name) }

/-- Changes the table that a path leads to. -/
def alter (dotted : Bool) (f : Table → Option Table) : List String → Table → Option Table
  | [], t => f t
  | name :: path, t => do
    match t.entries.lookup name with
    | none => return t.put name (← alter dotted f path ⟨true, dotted, []⟩).item
    | some (.leaf _) => none
    | some (.tables all) =>
      match all.reverse with
      | [] => none
      | last :: front =>
        let last ← alter dotted f path (named last)
        return t.put name (.tables (last.entries :: front).reverse)
    | some (.table implicit isDotted entries) =>
      if dotted ∧ !implicit then none
      else return t.put name (← alter dotted f path ⟨implicit, isDotted, entries⟩).item

/-- Gives a new name a value. A key without points belongs to a table without points, and a key
with points to one that only such keys made. -/
def define (t : Table) (path : List String) (name : String) (item : Item) : Option Table :=
  alter true
    (fun t =>
      if t.dotted = path.isEmpty ∨ (t.entries.lookup name).isSome then none
      else some (t.put name item))
    path t

end Table

/-- The place of a table that is being filled: the table at the top, a table with a header, or a
table of a list. -/
inductive Place where
  | top
  | header (path : List String) (name : String)
  | inList (path : List String) (name : String)

/-- A settings file on the way: the tables that are finished, and the one being filled. -/
structure Progress where
  root : Table
  current : Table
  place : Place

namespace Progress

/-- Nothing read yet. -/
def start : Progress := ⟨.named [], .named [], .top⟩

/-- Puts the table being filled in its place. -/
def finish (p : Progress) : Option Table :=
  match p.place with
  | .top => some p.current
  | .header path name => p.root.alter false (fun t => some (t.put name p.current.item)) path
  | .inList path name =>
    p.root.alter false
      (fun t =>
        match t.entries.lookup name with
        | none => some (t.put name (.tables [p.current.entries]))
        | some (.tables all) => some (t.put name (.tables (all ++ [p.current.entries])))
        | some _ => none)
      path

/-- Begins the table that a header names. -/
def openTable (p : Progress) (path : List String) (name : String) : Option Progress := do
  let root ← p.finish
  let parent ← root.alter false (fun t =>
    match t.entries.lookup name with
    | none => some t
    | some (.table true false _) => some t
    | some _ => none) path
  let entries := match found parent path with
    | some (.table _ _ entries) => entries
    | _ => []
  let root ← parent.alter false (fun t => some (t.erase name)) path
  return ⟨root, .named entries, .header path name⟩
where
  /-- What the name stands for in the table at the end of a path. -/
  found (t : Table) : List String → Option Item
    | [] => t.entries.lookup name
    | step :: path =>
      match t.entries.lookup step with
      | some (.table implicit dotted entries) => found ⟨implicit, dotted, entries⟩ path
      | some (.tables all) => (all.getLast?).bind fun entries => found (.named entries) path
      | _ => none

/-- Begins the next table of the list that a header names. -/
def openNext (p : Progress) (path : List String) (name : String) : Option Progress := do
  let root ← p.finish
  let root ← root.alter false (fun t =>
    match t.entries.lookup name with
    | none => some (t.put name (.tables []))
    | some (.tables _) => some t
    | some _ => none) path
  return ⟨root, .named [], .inList path name⟩

/-- Gives a name of the table being filled a value. -/
def define (p : Progress) (path : List String) (name : String) (item : Item) : Option Progress := do
  return { p with current := ← p.current.define path name item }

end Progress

end Rollout.Document.Toml
