import Rollout.Text.Decimal

/-!
# Documents

A document as a tree that remembers where its text stopped making sense. A reader meets its parts
in the order of the text, so that a fault behind the part that decides does not count.

* `Node` is a value, `Items` and `Members` are what stands between brackets and braces. Both end
  where the closing mark stands or where a fault keeps it from being found.
* A fault has two forms: one for a reader who wants the value, and one for a reader who only wants
  to get past it.
-/

namespace Rollout.Document

/-- What breaks the grammar of a document. -/
inductive GrammarFault where
  | endInList
  | endInObject
  | endInString
  | endInValue
  | missingColon
  | missingListMark
  | missingObjectMark
  | unknownWord
  | noValue
  | badEscape
  | badNumber
  | numberTooLarge
  | badText
  | controlInString
  | keyNotString
  | loneSurrogate
  | trailingComma
  | trailingText
  | cutEscape
  | tooDeep
deriving DecidableEq, Repr, Inhabited

/-- What is wrong, in words. -/
def GrammarFault.message : GrammarFault → String
  | endInList => "EOF while parsing a list"
  | endInObject => "EOF while parsing an object"
  | endInString => "EOF while parsing a string"
  | endInValue => "EOF while parsing a value"
  | missingColon => "expected `:`"
  | missingListMark => "expected `,` or `]`"
  | missingObjectMark => "expected `,` or `\x7d`"
  | unknownWord => "expected ident"
  | noValue => "expected value"
  | badEscape => "invalid escape"
  | badNumber => "invalid number"
  | numberTooLarge => "number out of range"
  | badText => "invalid unicode code point"
  | controlInString => "control character (\\u0000-\\u001F) found while parsing a string"
  | keyNotString => "key must be a string"
  | loneSurrogate => "lone leading surrogate in hex escape"
  | trailingComma => "trailing comma"
  | trailingText => "trailing characters"
  | cutEscape => "unexpected end of hex escape"
  | tooDeep => "recursion limit exceeded"

/-- Whether a fault lies inside a string. -/
def GrammarFault.inString : GrammarFault → Bool
  | endInString | badEscape | badText | controlInString | loneSurrogate | cutEscape => true
  | _ => false

/-- The characters of a string, or what keeps them from being text. -/
abbrev Text := Except GrammarFault String

mutual

/-- A value of a document. A number without a fraction is an integer when it fits sixty-four bits;
any other number keeps only its text. `absent` is the end of the text in the place of a value. -/
inductive Node where
  | null
  | bool (value : Bool)
  | integer (value : Int)
  | float (shown : String)
  | hugeNumber
  | string (text : Text)
  | array (items : Items)
  | object (members : Members)
  | absent
  | broken (read skip : GrammarFault)

/-- The items of an array up to its end. -/
inductive Items where
  | closed
  | broken (read skip : GrammarFault)
  | item (node : Node) (rest : Items)

/-- The members of an object up to its end. `unnamed` is a value where a key should stand, and
`dangling` a key without its colon. -/
inductive Members where
  | closed
  | broken (read skip : GrammarFault)
  | unnamed (node : Node)
  | dangling (key : Text) (fault : GrammarFault)
  | member (key : Text) (value : Node) (rest : Members)

end

instance : Inhabited Node := ⟨.null⟩

/-- The items in a list of nodes. -/
def Items.ofList : List Node → Items
  | [] => .closed
  | n :: rest => .item n (ofList rest)

/-- The members in a list of keys with nodes. -/
def Members.ofList : List (String × Node) → Members
  | [] => .closed
  | (k, n) :: rest => .member (.ok k) n (ofList rest)

/-- The number of items in front of the end. -/
def Items.count : Items → Nat
  | .item _ rest => rest.count + 1
  | _ => 0

/-! ## Getting past a value -/

mutual

/-- The fault met by a reader who passes over a value without looking at it. -/
def Node.passed : Node → Except GrammarFault Unit
  | .absent => .error .endInValue
  | .broken _ skip => .error skip
  | .array items => items.passed
  | .object members => members.passed
  | _ => .ok ()

/-- The fault met by a reader who passes over items. -/
def Items.passed : Items → Except GrammarFault Unit
  | .closed => .ok ()
  | .broken _ skip => .error skip
  | .item node rest => do node.passed; rest.passed

/-- The fault met by a reader who passes over members. -/
def Members.passed : Members → Except GrammarFault Unit
  | .closed => .ok ()
  | .broken _ skip => .error skip
  | .unnamed _ => .error .keyNotString
  | .dangling _ fault => .error fault
  | .member _ value rest => do value.passed; rest.passed

end

/-! ## Taking in a whole value -/

/-- One level less, unless the last level is used up. -/
def descend : Nat → Except GrammarFault Nat
  | 0 | 1 => .error .tooDeep
  | n + 1 => .ok n

mutual

/-- The fault met by a reader who takes in a whole value with that many levels left. -/
def Node.intact (levels : Nat) : Node → Except GrammarFault Unit
  | .absent => .error .endInValue
  | .broken read _ => .error read
  | .hugeNumber => .error .numberTooLarge
  | .string (.error fault) => .error fault
  | .array items => do items.intact (← descend levels)
  | .object members => do members.intact (← descend levels)
  | _ => .ok ()

/-- The fault met by a reader who takes in items. -/
def Items.intact (levels : Nat) : Items → Except GrammarFault Unit
  | .closed => .ok ()
  | .broken read _ => .error read
  | .item node rest => do node.intact levels; rest.intact levels

/-- The fault met by a reader who takes in members. -/
def Members.intact (levels : Nat) : Members → Except GrammarFault Unit
  | .closed => .ok ()
  | .broken read _ => .error read
  | .unnamed _ => .error .keyNotString
  | .dangling (.error fault) _ => .error fault
  | .dangling (.ok _) fault => .error fault
  | .member (.error fault) _ _ => .error fault
  | .member (.ok _) value rest => do value.intact levels; rest.intact levels

end

end Rollout.Document
