import Rollout.Control.Request

/-!
# Histories of a table

What was done to a table of pools, and what can be told of a pool from that alone.

* An `Operation` is a request, or the creation of a pool with its members, or a mark for the health
  of a member. A `Logged` operation has its answer with it, and a history is a list of these, the
  oldest first.
* `created`, `standing` and `lastMark?` look at a history only: whether there is a pool, which
  backends were put in and not taken out since, and how one of them was marked since it was put in.
-/

namespace Rollout.Control

/-- What is done to a table. -/
inductive Operation where
  | request (r : Request)
  | seed (pattern : String) (backends : List Backend)
  | mark (pattern : String) (backend : Backend) (healthy : Bool)
deriving DecidableEq, Repr

namespace Operation

/-- Carries out an operation: the answer and the table afterwards. -/
def perform : Operation → Table → Except PoolError Answer × Table
  | request r, t => r.perform t
  | seed pattern backends, t => (.ok .done, t.seed pattern backends)
  | mark pattern b healthy, t => (.ok .done, t.mark pattern b healthy)

/-- The pool that an operation is about. -/
def pattern : Operation → String
  | request (.poolHealth pattern) | request (.addPool pattern _ _)
  | request (.addBackend pattern _) | request (.removeBackend pattern _)
  | seed pattern _ | mark pattern _ _ => pattern

/-- Whether an operation puts no backend twice in a pool. -/
def Distinct : Operation → Prop
  | seed _ backends => backends.Nodup
  | _ => True

end Operation

/-- An operation that was carried out, and its answer. -/
structure Logged where
  operation : Operation
  answer : Except PoolError Answer

namespace Logged

/-- Whether an operation created a pool. -/
def creates (e : Logged) (pattern : String) : Bool :=
  match e.operation with
  | .seed name _ => name == pattern
  | .request (.addPool name _ _) => e.answer.isOk && name == pattern
  | _ => false

/-- The backends that an operation put in a pool, in order. -/
def inserted (e : Logged) (pattern : String) : List Backend :=
  match e.operation with
  | .seed name backends => if name = pattern then backends else []
  | .request (.addBackend name b) => if e.answer.isOk && name == pattern then [b] else []
  | _ => []

/-- Whether an operation took a backend out of a pool, or would have if it had been in. -/
def clears (e : Logged) (pattern : String) (b : Backend) : Bool :=
  match e.operation with
  | .seed name _ => name == pattern
  | .request (.removeBackend name b') => e.answer.isOk && name == pattern && b' == b
  | _ => false

/-- Whether an operation put a backend in a pool or took it out. -/
def touches (e : Logged) (pattern : String) (b : Backend) : Bool :=
  (e.inserted pattern).contains b || e.clears pattern b

/-- The health that an operation marked a backend of a pool with. -/
def mark? (e : Logged) (pattern : String) (b : Backend) : Option Bool :=
  match e.operation with
  | .mark name b' healthy => if name = pattern ∧ b' = b then some healthy else none
  | _ => none

end Logged

/-- Whether a pool was created. -/
def created (pattern : String) (history : List Logged) : Bool := history.any (·.creates pattern)

/-- The backends whose latest insertion in a pool is behind all removals, in the order of these
insertions. -/
def standing (pattern : String) : List Logged → List Backend
  | [] => []
  | e :: later =>
    (e.inserted pattern).filter (fun b => later.all fun e => !e.touches pattern b) ++
      standing pattern later

/-- The last mark of a backend since its latest insertion in a pool. -/
def lastMark? (pattern : String) (b : Backend) (history : List Logged) : Option Bool :=
  (history.reverse.takeWhile fun e => !(e.inserted pattern).contains b).findSome?
    (·.mark? pattern b)

/-- Carries out operations on a table without pools: the history and the table afterwards. -/
def performAll (operations : List Operation) : List Logged × Table :=
  operations.foldl
    (fun (history, t) o => (history ++ [⟨o, (o.perform t).1⟩], (o.perform t).2)) ([], .empty)

end Rollout.Control
