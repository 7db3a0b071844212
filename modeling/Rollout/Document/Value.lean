import Rollout.Document.Node

/-!
# Values to write

What the program writes as a document: a tree without faults. `Value.node` is the same tree as a
reader sees it, and `Value.ofNode` leads back.
-/

namespace Rollout.Document

/-- A value to write. The members of an object keep their order, and a number that is no integer is
kept as its text. -/
inductive Value where
  | null
  | bool (value : Bool)
  | integer (value : Int)
  | float (shown : String)
  | string (text : String)
  | array (items : List Value)
  | object (members : List (String × Value))

namespace Value

instance : Inhabited Value := ⟨.null⟩

/-- A natural number. -/
def nat (n : Nat) : Value := .integer n

/-- A text or nothing. -/
def optional : Option String → Value
  | none => .null
  | some s => .string s

/-- A list of texts. -/
def strings (texts : List String) : Value := .array (texts.map .string)

/-! ## Parts -/

/-- The members of an object. -/
def members : Value → List (String × Value)
  | object members => members
  | _ => []

/-- The items of an array. -/
def items : Value → List Value
  | array items => items
  | _ => []

/-- Whether an object has a member. -/
def has (v : Value) (key : String) : Bool := (v.members.lookup key).isSome

/-- The value of a member, or null where there is none. -/
def field (v : Value) (key : String) : Value := (v.members.lookup key).getD null

/-- Whether a value is null. -/
def isNull : Value → Bool
  | null => true
  | _ => false

/-- The text of a string. -/
def text? : Value → Option String
  | string s => some s
  | _ => none

/-- The number of an integer that is not negative. -/
def nat? : Value → Option Nat
  | integer (.ofNat n) => some n
  | _ => none

/-! ## The reader's view -/

mutual

/-- The tree as a reader sees it. -/
def node : Value → Node
  | null => .null
  | bool b => .bool b
  | integer n => .integer n
  | float shown => .float shown
  | string s => .string (.ok s)
  | array items => .array (nodes items)
  | object members => .object (memberNodes members)

/-- The items as a reader sees them. -/
def nodes : List Value → Items
  | [] => .closed
  | v :: rest => .item (node v) (nodes rest)

/-- The members as a reader sees them. -/
def memberNodes : List (String × Value) → Members
  | [] => .closed
  | (k, v) :: rest => .member (.ok k) (node v) (memberNodes rest)

end

mutual

/-- The value that a reader sees. What has no value is null, and what stands behind a fault is left
out. -/
def ofNode : Node → Value
  | .bool b => bool b
  | .integer n => integer n
  | .float shown => float shown
  | .string (.ok s) => string s
  | .array items => array (ofItems items)
  | .object members => object (ofMembers members)
  | _ => null

/-- The values of items. -/
def ofItems : Items → List Value
  | .item node rest => ofNode node :: ofItems rest
  | _ => []

/-- The values of members. -/
def ofMembers : Members → List (String × Value)
  | .member (.ok key) value rest => (key, ofNode value) :: ofMembers rest
  | _ => []

end

end Value

end Rollout.Document
