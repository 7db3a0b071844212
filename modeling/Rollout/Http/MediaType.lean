/-!
# Media types

The names of kinds of content, such as `application/json`. `isJson` accepts JSON itself and every
application format that is built on it, with any parameters, in either case.
-/

namespace Rollout.Http

/-- A kind of content: `type/subtype`, where a subtype may end in a plus and a suffix. -/
structure MediaType where
  type : List Char
  subtype : List Char
  suffix : Option (List Char)
deriving DecidableEq, Repr

namespace MediaType

/-- Whether a character may stand in a name. -/
def isToken (c : Char) : Bool := c.isAlphanum || "!#$%&\x27*+-.^_\x60|~".toList.contains c

/-- Whether a character may stand in a quoted value. -/
def isQuotable (c : Char) : Bool := ' ' ≤ c && c ≤ '~'

mutual

/-- Whether parameters follow in order, with the number of characters as the bound of the steps. A
bare value may be empty at the end only. -/
def parametersOk : Nat → List Char → Bool
  | 0, _ => false
  | _, [] => true
  | fuel + 1, ' ' :: rest => parametersOk fuel rest
  | fuel + 1, cs =>
    match cs.takeWhile isToken, cs.dropWhile isToken with
    | _ :: _, '=' :: '"' :: rest => quotedOk fuel rest
    | _ :: _, '=' :: rest =>
      match rest.takeWhile isToken, rest.dropWhile isToken with
      | _ :: _, ';' :: rest => parametersOk fuel rest
      | _, [] => true
      | _, _ => false
    | _, _ => false

/-- Whether a quoted value ends and parameters follow. It holds at least one character, and a
quotation mark right behind the first one does not end it. -/
def quotedOk : Nat → List Char → Bool
  | 0, _ => false
  | _, [] => false
  | fuel + 1, first :: rest =>
    isQuotable first &&
      match rest.dropWhile fun c => isQuotable c && c != '"' with
      | '"' :: rest =>
        match rest.dropWhile (· = ' ') with
        | [] => true
        | ';' :: rest => parametersOk fuel rest
        | _ => false
      | _ => false

end

/-- Cuts a subtype at its last plus. -/
def splitSuffix (cs : List Char) : List Char × Option (List Char) :=
  let reversed := cs.reverse
  match reversed.dropWhile (· != '+') with
  | _ :: front@(_ :: _) => (front.reverse, some (reversed.takeWhile (· != '+')).reverse)
  | _ => (cs, none)

/-- Reads a media type, in lower case. -/
def read? (s : String) : Option MediaType :=
  let cs := s.toList.map Char.toLower
  match cs.takeWhile isToken, cs.dropWhile isToken with
  | type@(_ :: _), '/' :: rest =>
    match rest.takeWhile isToken, rest.dropWhile isToken with
    | subtype@(_ :: _), [] =>
      let (name, suffix) := splitSuffix subtype
      some ⟨type, name, suffix⟩
    | subtype@(_ :: _), ';' :: rest =>
      let (name, suffix) := splitSuffix subtype
      if parametersOk (rest.length + 1) rest then some ⟨type, name, suffix⟩ else none
    | _, _ => none
  | _, _ => none

/-- Whether a media type is JSON or built on it. -/
def isJson (m : MediaType) : Bool :=
  m.type == "application".toList &&
    (m.subtype == "json".toList || m.suffix == some "json".toList)

end MediaType

end Rollout.Http
