import Rollout.Text.Utf8

/-!
# HTTP messages

Requests and answers as far as the program looks at them, and how a request can fare on its way.
-/

namespace Rollout.Http

/-- A request. `headers` are those besides the address of the target. -/
structure Request where
  method : String
  target : String
  headers : List (String × String)
  body : Bytes
deriving DecidableEq, Repr

/-- The value of a header. -/
def Request.header? (r : Request) (name : String) : Option String := r.headers.lookup name

/-- What stands behind the first two slashes in a row, with the colon before them, if they do. -/
def behindScheme? : List Char → Option (List Char)
  | ':' :: '/' :: '/' :: rest => some rest
  | '/' :: _ | [] => none
  | _ :: rest => behindScheme? rest

/-- The path of a target, without the query and the fragment behind it. A target that names its
host before the path has the path `/` at least. -/
def pathOf (target : List Char) : List Char :=
  let front := target.takeWhile fun c => c != '?' && c != '#'
  match behindScheme? front with
  | none => front
  | some rest =>
    match rest.dropWhile (· != '/') with
    | [] => ['/']
    | path => path

/-- The path of a request. -/
def Request.path (r : Request) : String := String.ofList (pathOf r.target.toList)

/-- An answer. -/
structure Response where
  status : Nat
  headers : List (String × String)
  body : Bytes
deriving DecidableEq, Repr

/-- The value of a header. -/
def Response.header? (r : Response) (name : String) : Option String := r.headers.lookup name

/-- How a request fares: it is answered, its connection fails, or its time runs out. -/
inductive Delivery where
  | answered (status : Nat) (body : Bytes)
  | failed (reason : String)
  | timedOut
deriving DecidableEq, Repr

/-- The name of the header that says what a body is. -/
def contentType : String := "content-type"

/-- The kind of JSON bodies. -/
def jsonType : String := "application/json"

/-- The kind of plain text bodies. -/
def textType : String := "text/plain; charset=utf-8"

end Rollout.Http
