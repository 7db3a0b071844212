import Rollout.Document.Node
import Rollout.Text.Quoted

/-!
# Decoding

From documents to the values of the program's types.

* A `Decoder` looks at a node and answers with a value or with a `DecodeError`: what is wrong and
  where in the document it is wrong.
* The parts of a node are met in the order of the text, and the first thing that is wrong counts,
  be it the grammar or the meaning.
* `Record` describes a structure by its fields. It is written as an object, whose members come in
  any order, or as an array of the fields in their order.
* `Manner` tells a text that is read as it goes from a value that was taken in before and from a
  table of settings. They differ in how deep a text may nest and in what becomes of items that no
  field takes.
-/

namespace Rollout.Document

/-! ## What is wrong -/

/-- What was found in the place of something else. -/
inductive Found where
  | null
  | bool (value : Bool)
  | integer (value : Int)
  | float (shown : String)
  | string (value : String)
  | sequence
  | map
deriving DecidableEq, Repr

/-- The words for what was found. -/
def Found.text : Found → String
  | null => "null"
  | bool true => "boolean `true`"
  | bool false => "boolean `false`"
  | integer n => "integer `" ++ Rollout.Text.Decimal.intText n ++ "`"
  | float shown => "floating point `" ++ shown ++ "`"
  | string s => "string " ++ Rollout.Text.quoted s
  | sequence => "sequence"
  | map => "map"

/-- What is wrong with a document. -/
inductive DecodeFault where
  | grammar (fault : GrammarFault)
  | wrongType (found : Found) (expected : String)
  | wrongValue (found : Found) (expected : String)
  | wrongLength (count : Nat) (expected : String)
  | missingField (name : String)
  | duplicateField (name : String)
  | unknownVariant (name : String) (known : List String)
  | notAnAddress
deriving DecidableEq, Repr

/-- A list of names to choose from. -/
def choiceText : List String → String
  | [] => "there are no variants"
  | [a] => "expected `" ++ a ++ "`"
  | [a, b] => "expected `" ++ a ++ "` or `" ++ b ++ "`"
  | names => "expected one of " ++ ", ".intercalate (names.map fun a => "`" ++ a ++ "`")

/-- What is wrong, in words. -/
def DecodeFault.message : DecodeFault → String
  | grammar fault => fault.message
  | wrongType found expected => "invalid type: " ++ found.text ++ ", expected " ++ expected
  | wrongValue found expected => "invalid value: " ++ found.text ++ ", expected " ++ expected
  | wrongLength count expected =>
    "invalid length " ++ Rollout.Text.Decimal.text count ++ ", expected " ++ expected
  | missingField name => "missing field `" ++ name ++ "`"
  | duplicateField name => "duplicate field `" ++ name ++ "`"
  | unknownVariant name known => "unknown variant `" ++ name ++ "`, " ++ choiceText known
  | notAnAddress => "invalid IP address syntax"

/-- Whether the grammar is at fault, and not the meaning. -/
def DecodeFault.isGrammar : DecodeFault → Bool
  | grammar _ => true
  | _ => false

/-- A step from a value to one of its parts; `unknown` leads to a key that could not be read. -/
inductive Segment where
  | field (name : String)
  | index (n : Nat)
  | unknown
deriving DecidableEq, Repr

/-- What is wrong and where. -/
structure DecodeError where
  path : List Segment
  fault : DecodeFault
deriving DecidableEq, Repr

namespace DecodeError

/-- A path: names with points between them, and indices in brackets. -/
def pathText : List Segment → Bool → String
  | [], _ => ""
  | .index n :: rest, _ => "[" ++ Rollout.Text.Decimal.text n ++ "]" ++ pathText rest false
  | .field name :: rest, first => (if first then "" else ".") ++ name ++ pathText rest false
  | .unknown :: rest, first => (if first then "" else ".") ++ "?" ++ pathText rest false

/-- What is wrong, behind the path when it has a known part. -/
def located (e : DecodeError) : String :=
  if e.path.all (· == .unknown) then e.fault.message
  else pathText e.path true ++ ": " ++ e.fault.message

/-- What is wrong. -/
def message (e : DecodeError) : String := e.fault.message

end DecodeError

/-! ## Decoders -/

/-- How a document comes to its decoder: as a text read on the way with some levels left, as a
value taken in before, or as a table of settings. -/
inductive Manner where
  | streamed (levels : Nat)
  | buffered
  | table
deriving DecidableEq, Repr

/-- The levels of nesting of a text. -/
def maxLevels : Nat := 128

/-- A reader of values of a type. -/
abbrev Decoder (α : Type) := Manner → Node → Except DecodeError α

/-- A fault of the value itself. -/
def fail (fault : DecodeFault) : Except DecodeError α := .error ⟨[], fault⟩

/-- A fault of the grammar. -/
def failGrammar (fault : GrammarFault) : Except DecodeError α := fail (.grammar fault)

/-- Puts a step in front of the path of an error. -/
def within (segment : Segment) : Except DecodeError α → Except DecodeError α
  | .ok a => .ok a
  | .error e => .error ⟨segment :: e.path, e.fault⟩

/-- The manner one level deeper. -/
def Manner.deeper : Manner → Except DecodeError Manner
  | streamed levels =>
    match descend levels with
    | .ok levels => .ok (streamed levels)
    | .error fault => failGrammar fault
  | manner => .ok manner

/-- The fault of a node that is not what was expected. -/
def mismatch (expected : String) : Node → DecodeFault
  | .null => .wrongType .null expected
  | .bool b => .wrongType (.bool b) expected
  | .integer n => .wrongType (.integer n) expected
  | .float shown => .wrongType (.float shown) expected
  | .hugeNumber => .grammar .numberTooLarge
  | .string (.ok s) => .wrongType (.string s) expected
  | .string (.error fault) => .grammar fault
  | .array _ => .wrongType .sequence expected
  | .object _ => .wrongType .map expected
  | .absent => .grammar .endInValue
  | .broken read _ => .grammar read

namespace Decode

/-- A number from zero up to but without `bound`. -/
def unsigned (bound : Nat) (expected : String) : Decoder Nat := fun _ node =>
  match node with
  | .integer n =>
    if 0 ≤ n ∧ n < bound then .ok n.toNat else fail (.wrongValue (.integer n) expected)
  | node => fail (mismatch expected node)

/-- A number of sixteen bits. -/
def word16 : Decoder UInt16 := fun manner node =>
  (unsigned UInt16.size "u16" manner node).map UInt16.ofNat

/-- A number of thirty-two bits. -/
def word32 : Decoder UInt32 := fun manner node =>
  (unsigned UInt32.size "u32" manner node).map UInt32.ofNat

/-- A number of seconds. -/
def seconds : Decoder UInt64 := fun manner node =>
  (unsigned UInt64.size "u64" manner node).map UInt64.ofNat

/-- A count. -/
def count : Decoder UInt64 := fun manner node =>
  (unsigned UInt64.size "usize" manner node).map UInt64.ofNat

/-- A text of the kind that the words name. -/
def textOf (expected : String) : Decoder String := fun _ node =>
  match node with
  | .string (.ok s) => .ok s
  | node => fail (mismatch expected node)

/-- A text. -/
def text : Decoder String := textOf "a string"

/-- A path. -/
def path : Decoder String := textOf "path string"

/-- A value, or null for none. -/
def optional (d : Decoder α) : Decoder (Option α) := fun manner node =>
  match node with
  | .null => .ok none
  | node => (d manner node).map some

/-- Items from the one at `index` on. -/
def itemsFrom (d : Decoder α) (manner : Manner) : Nat → Items → Except DecodeError (List α)
  | _, .closed => .ok []
  | _, .broken read _ => failGrammar read
  | index, .item node rest => do
    let a ← within (.index index) (d manner node)
    let more ← itemsFrom d manner (index + 1) rest
    pure (a :: more)

/-- A list. -/
def list (d : Decoder α) : Decoder (List α) := fun manner node =>
  match node with
  | .array items => do itemsFrom d (← manner.deeper) 0 items
  | node => fail (mismatch "a sequence" node)

/-- A value that only has to be got past. -/
def ignored (manner : Manner) (node : Node) : Except DecodeError Unit :=
  match manner with
  | .streamed _ =>
    match node.passed with
    | .ok () => .ok ()
    | .error fault => failGrammar fault
  | _ => .ok ()

/-- A value that is taken in to be decoded later. -/
def takenIn (manner : Manner) (node : Node) : Except DecodeError Unit :=
  match manner with
  | .streamed levels =>
    match node.intact levels with
    | .ok () => .ok ()
    | .error fault => failGrammar fault
  | _ => .ok ()

/-- Items that are taken in to be decoded later. -/
def itemsTakenIn (manner : Manner) (items : Items) : Except DecodeError Unit :=
  match manner with
  | .streamed levels =>
    match items.intact levels with
    | .ok () => .ok ()
    | .error fault => failGrammar fault
  | _ => .ok ()

/-! ## Names of variants -/

/-- The value with a name. -/
def variant (known : List (String × α)) (name : String) : Except DecodeError α :=
  match known.lookup name with
  | some a => .ok a
  | none => fail (.unknownVariant name (known.map Prod.fst))

/-- A name of a variant. -/
def variantName (known : List (String × α)) : Decoder α := fun _ node =>
  match node with
  | .string (.ok name) => variant known name
  | node => fail (mismatch "variant identifier" node)

/-- What may follow the only member of an object. -/
def onlyMember : Members → Except DecodeError Unit
  | .closed => .ok ()
  | .broken .endInObject _ => failGrammar .endInObject
  | _ => failGrammar .noValue

/-- The variant that the first key of an object names; nothing but null stands behind it. -/
def variantObject (known : List (String × α)) (manner : Manner) : Members → Except DecodeError α
  | .closed => failGrammar .noValue
  | .broken .endInObject _ => failGrammar .endInValue
  | .broken read _ => failGrammar read
  | .unnamed node => variantName known manner node
  | .dangling key fault => do
    let _ ← variantName known manner (.string key)
    failGrammar fault
  | .member key value rest => do
    let a ← variantName known manner (.string key)
    match value with
    | .null => onlyMember rest
    | value => within (.field (key.toOption.getD "")) (fail (mismatch "unit" value))
    pure a

/-- One of several names. -/
def choice (known : List (String × α)) : Decoder α := fun manner node =>
  match node with
  | .string (.ok name) => variant known name
  | .string (.error fault) => failGrammar fault
  | .object members => do variantObject known (← manner.deeper) members
  | .absent => failGrammar .endInValue
  | .broken read _ => failGrammar (if read.inString then read else .noValue)
  | _ => failGrammar .noValue

end Decode

/-! ## Records -/

/-- A field of a record whose fields are gathered in `σ`. -/
structure Field (σ : Type) where
  name : String
  /-- Whether the field has no value of its own when it is left out. -/
  required : Bool
  /-- Whether the field was read before. -/
  known : σ → Bool
  /-- Reads the field. -/
  read : Manner → Node → σ → Except DecodeError σ

/-- A field that a decoder reads. -/
def Field.of (name : String) (required : Bool) (d : Decoder β) (get : σ → Option β)
    (set : σ → β → σ) : Field σ :=
  ⟨name, required, fun s => (get s).isSome, fun manner node s => (d manner node).map (set s)⟩

/-- A structure: its name, its fields in order, and how they make it. -/
structure Record (σ α : Type) where
  name : String
  fields : List (Field σ)
  empty : σ
  finish : σ → Except DecodeFault α

/-- The value of a required field. -/
def needed (name : String) : Option β → Except DecodeFault β
  | some b => .ok b
  | none => .error (.missingField name)

namespace Record

/-- What a record expects. -/
def expected (r : Record σ α) : String := "struct " ++ r.name

/-- The field with a name. -/
def field? (r : Record σ α) (name : String) : Option (Field σ) :=
  r.fields.find? (·.name == name)

/-- The record of the fields that were read. -/
def finished (r : Record σ α) (s : σ) : Except DecodeError α :=
  match r.finish s with
  | .ok a => .ok a
  | .error fault => fail fault

/-- Refuses a key that names a field read before. -/
def claim (r : Record σ α) (key : String) (s : σ) : Except DecodeError (Option (Field σ)) :=
  match r.field? key with
  | none => .ok none
  | some f => if f.known s then fail (.duplicateField f.name) else .ok (some f)

/-- Reads the members of an object. -/
def members (r : Record σ α) (manner : Manner) : Members → σ → Except DecodeError α
  | .closed, s => r.finished s
  | .broken read _, _ => within .unknown (failGrammar read)
  | .unnamed _, _ => within .unknown (failGrammar .keyNotString)
  | .dangling (.error fault) _, _ => within .unknown (failGrammar fault)
  | .dangling (.ok key) fault, s => do
    let _ ← r.claim key s
    failGrammar fault
  | .member (.error fault) _ _, _ => within .unknown (failGrammar fault)
  | .member (.ok key) value rest, s => do
    match ← r.claim key s with
    | some f => r.members manner rest (← within (.field key) (f.read manner value s))
    | none =>
      within (.field key) (Decode.ignored manner value)
      r.members manner rest s

/-- The words for a number of elements. -/
def elementsText (count : Nat) : String :=
  Rollout.Text.Decimal.text count ++ (if count = 1 then " element" else " elements") ++
    " in sequence"

/-- What becomes of items behind the last field, of which there are `taken`. -/
def surplus (manner : Manner) (taken : Nat) (rest : Items) : Except DecodeError Unit :=
  match manner, rest with
  | .table, _ => .ok ()
  | _, .closed => .ok ()
  | .buffered, rest => fail (.wrongLength (taken + rest.count) (elementsText taken))
  | .streamed _, .item _ _ => failGrammar .trailingText
  | .streamed _, .broken .endInList _ => failGrammar .endInList
  | .streamed _, .broken .trailingComma _ => failGrammar .trailingComma
  | .streamed _, .broken _ _ => failGrammar .trailingText

/-- Reads fields from the items of an array, from the one at `index` on. A field without an item
keeps its own value, if it has one. -/
def items (r : Record σ α) (manner : Manner) :
    List (Field σ) → Nat → Items → σ → Except DecodeError α
  | [], index, rest, s => do
    let a ← r.finished s
    surplus manner index rest
    pure a
  | f :: fields, index, .item node rest, s => do
    let s ← within (.index index) (f.read manner node s)
    r.items manner fields (index + 1) rest s
  | _ :: _, _, .broken read _, _ => failGrammar read
  | f :: fields, index, .closed, s =>
    if f.required then
      fail (.wrongLength index ("struct " ++ r.name ++ " with " ++
        Rollout.Text.Decimal.text r.fields.length ++ " elements"))
    else r.items manner fields (index + 1) .closed s

/-- Reads a record. -/
def decode (r : Record σ α) : Decoder α := fun manner node =>
  match node with
  | .object members => do r.members (← manner.deeper) members r.empty
  | .array items => do r.items (← manner.deeper) r.fields 0 items r.empty
  | node => fail (mismatch r.expected node)

end Record

end Rollout.Document
