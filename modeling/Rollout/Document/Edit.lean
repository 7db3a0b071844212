import Rollout.Document.Json

/-!
# Edits of documents

The same thing can be said by many documents.

* A `Shape` tells the parts of a document: the items of its lists, and the keys of its objects with
  what stands for a member that is left out.
* An `Edit` of a document permutes members, inserts members under keys that the shape does not have,
  and deletes members that say no more than what stands for them, in any of its objects. An object
  that is `held` is taken in as a whole before it is decoded; what is inserted there has to be
  `admitted`.
* A type is `Kept` by edits when each of its values is decoded from the text of every edit of its
  document.
-/

namespace Rollout.Document

/-- The parts of a document. A key of an object comes with the shape of its value, and with the
value that stands for it when it is left out, if there is one. -/
inductive Shape where
  | plain
  | list (item : Shape)
  | object (held : Bool) (keys : List (String × Shape × Option Value))

/-- The keys of an object. -/
abbrev Keys := List (String × Shape × Option Value)

/-- Whether a value is a string, an integer, a boolean value or null. -/
def Value.IsScalar : Value → Prop
  | null | bool _ | integer _ | string _ => True
  | float _ | array _ | object _ => False

/-- What an edit makes of a document of a shape. -/
inductive Edit (admitted : Value → Prop) : Shape → Value → Value → Prop where
  | refl {shape : Shape} (v : Value) : Edit admitted shape v v
  | trans {shape : Shape} {u v w : Value} (h : Edit admitted shape u v)
      (h' : Edit admitted shape v w) : Edit admitted shape u w
  | item {shape : Shape} {v w : Value} (front back : List Value) (h : Edit admitted shape v w) :
      Edit admitted (.list shape) (.array (front ++ v :: back)) (.array (front ++ w :: back))
  | permute {held : Bool} {keys : Keys} {members others : List (String × Value)}
      (h : members.Perm others) :
      Edit admitted (.object held keys) (.object members) (.object others)
  | insert {held : Bool} {keys : Keys} {key : String} {v : Value}
      (unknown : ∀ k ∈ keys, k.1 ≠ key) (scalar : v.IsScalar) (h : held = true → admitted v)
      (members : List (String × Value)) :
      Edit admitted (.object held keys) (.object members) (.object ((key, v) :: members))
  | delete {held : Bool} {keys : Keys} {key : String} {shape : Shape} {v : Value}
      (h : (key, shape, some v) ∈ keys) (members : List (String × Value)) :
      Edit admitted (.object held keys) (.object ((key, v) :: members)) (.object members)
  | inside {held : Bool} {keys : Keys} {key : String} {shape : Shape} {standard : Option Value}
      {v w : Value} (h : (key, shape, standard) ∈ keys) (h' : Edit admitted shape v w)
      (members : List (String × Value)) :
      Edit admitted (.object held keys) (.object ((key, v) :: members))
        (.object ((key, w) :: members))

namespace Json

/-- The numeral of an integer. -/
def Numeral.ofInt (n : Int) : Numeral := ⟨n < 0, Nat.toDigits 10 n.natAbs, [], none⟩

/-- Whether a reader who takes a value in can hold it: it is no integer beyond the doubles. -/
def Holds : Value → Prop
  | .integer n => (Numeral.ofInt n).node ≠ .hugeNumber
  | _ => True

/-- Whether the values of a type are decoded from the texts of all edits of their documents. -/
def Kept (admitted : Value → Prop) {α : Type} (d : Decoder α) (shape : α → Shape)
    (document : α → Value) : Prop :=
  ∀ a v, Edit admitted (shape a) (document a) v → decode d (compact v) = .ok a

end Json

end Rollout.Document
