import Rollout.Pool.Basic

/-!
# The pool table

The pools of a load balancer by name. Members keep the order in which they were added, and each is
marked healthy or not.

* `Table.health`, `Table.addBackend`, `Table.removeBackend` and `Table.addPool` are the calls of the
  control plane. A call that fails leaves the table as it was.
* `Table.seed` puts a pool in the table, in place of one with the same name, and `Table.mark` sets
  the health of a member.
-/

namespace Rollout

/-- A member of a pool. -/
structure Member where
  backend : Backend
  healthy : Bool
deriving DecidableEq, Repr

/-- A pool of the table. -/
structure Pool where
  type : PoolType
  checks : HealthChecks
  members : List Member
deriving DecidableEq, Repr

namespace Pool

/-- The backends of a pool, in the order in which they were added. -/
def backends (p : Pool) : List Backend := p.members.map (·.backend)

/-- The health of a pool as a whole. -/
def status (p : Pool) : PoolStatus :=
  if p.members.isEmpty then .empty else if p.members.all (·.healthy) then .full else .degraded

/-- Whether a backend is a member. -/
def has (p : Pool) (b : Backend) : Bool := p.members.any (·.backend == b)

/-- A pool with one more member, which is healthy. -/
def add (p : Pool) (b : Backend) : Pool := { p with members := p.members ++ [⟨b, true⟩] }

/-- A pool without a backend. -/
def drop (p : Pool) (b : Backend) : Pool :=
  { p with members := p.members.filter (·.backend != b) }

/-- A pool where the members that are a backend have a health. -/
def mark (p : Pool) (b : Backend) (healthy : Bool) : Pool :=
  { p with members := p.members.map fun m => if m.backend = b then { m with healthy } else m }

end Pool

/-- The pools of a load balancer by name. -/
structure Table where
  pools : List (String × Pool)
deriving Repr, Inhabited, DecidableEq

namespace Table

/-- No pools. -/
def empty : Table := ⟨[]⟩

/-- The pool with a name. -/
def pool? (t : Table) (pattern : String) : Option Pool := t.pools.lookup pattern

/-- Puts a pool where one has the name, or at the end. -/
def putIn (pattern : String) (p : Pool) : List (String × Pool) → List (String × Pool)
  | [] => [(pattern, p)]
  | (name, q) :: rest =>
    if name = pattern then (name, p) :: rest else (name, q) :: putIn pattern p rest

/-- The table with a pool under a name. -/
def put (t : Table) (pattern : String) (p : Pool) : Table := ⟨putIn pattern p t.pools⟩

/-- Puts a pool with healthy members in the table. -/
def seed (t : Table) (pattern : String) (backends : List Backend) : Table :=
  t.put pattern ⟨.twoChoices, .standard "/healthz", backends.map fun b => ⟨b, true⟩⟩

/-- The members of a pool in order; a pool that is not in the table has none. -/
def backends (t : Table) (pattern : String) : List Backend :=
  ((t.pool? pattern).map Pool.backends).getD []

/-- The names of the pools, sorted. -/
def patterns (t : Table) : List String :=
  (t.pools.map Prod.fst).mergeSort fun a b => decide (a ≤ b)

/-- Whether a pool has the name. -/
def has (t : Table) (pattern : String) : Bool := (t.pool? pattern).isSome

/-- The type and the checks of a pool. -/
def config? (t : Table) (pattern : String) : Option (PoolType × HealthChecks) :=
  (t.pool? pattern).map fun p => (p.type, p.checks)

/-- Sets the health of a member. -/
def mark (t : Table) (pattern : String) (b : Backend) (healthy : Bool) : Table :=
  match t.pool? pattern with
  | some p => t.put pattern (p.mark b healthy)
  | none => t

/-- The health of a pool and its members. -/
def health (t : Table) (pattern : String) : Except PoolError PoolHealth :=
  match t.pool? pattern with
  | some p => .ok ⟨p.status, p.backends⟩
  | none => .error (.poolNotFound pattern)

/-- Adds a backend at the end of a pool. -/
def addBackend (t : Table) (pattern : String) (b : Backend) : Except PoolError Table :=
  match t.pool? pattern with
  | none => .error (.poolNotFound pattern)
  | some p =>
    if p.has b then .error (.backendExists pattern b) else .ok (t.put pattern (p.add b))

/-- Removes a backend from a pool. -/
def removeBackend (t : Table) (pattern : String) (b : Backend) : Except PoolError Table :=
  match t.pool? pattern with
  | none => .error (.poolNotFound pattern)
  | some p =>
    if p.has b then .ok (t.put pattern (p.drop b)) else .error (.backendNotFound pattern b)

/-- Creates a pool without members. -/
def addPool (t : Table) (pattern : String) (type : PoolType) (checks : HealthChecks) :
    Except PoolError Table :=
  match t.pool? pattern with
  | some _ => .error (.poolExists pattern)
  | none => .ok (t.put pattern ⟨type, checks, []⟩)

end Table

end Rollout
