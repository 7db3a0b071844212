import Rollout.Pool.Table
import Rollout.Pool.Text

/-!
# Calls of the control plane

The four things that can be asked of a load balancer, and what a table of pools answers.
-/

namespace Rollout.Control

open Document

/-- What is asked of the load balancer. -/
inductive Request where
  | poolHealth (pattern : String)
  | addPool (pattern : String) (type : PoolType) (checks : HealthChecks)
  | addBackend (pattern : String) (backend : Backend)
  | removeBackend (pattern : String) (backend : Backend)
deriving DecidableEq, Repr

/-- What it answers: the health of a pool, or that it is done. -/
inductive Answer where
  | health (health : PoolHealth)
  | done
deriving DecidableEq, Repr

/-- Carries out a request on a table: the answer and the table afterwards. A request that fails
leaves the table as it was. -/
def Request.perform (r : Request) (t : Table) : Except PoolError Answer × Table :=
  match r with
  | poolHealth pattern =>
    match t.health pattern with
    | .ok h => (.ok (.health h), t)
    | .error e => (.error e, t)
  | addPool pattern type checks => settle t (t.addPool pattern type checks)
  | addBackend pattern b => settle t (t.addBackend pattern b)
  | removeBackend pattern b => settle t (t.removeBackend pattern b)
where
  /-- The answer of a request that changes the table. -/
  settle (before : Table) : Except PoolError Table → Except PoolError Answer × Table
    | .ok after => (.ok .done, after)
    | .error e => (.error e, before)

/-- The places of the control plane where requests go. -/
inductive Endpoint where
  | poolHealth
  | addPool
  | addBackend
  | removeBackend
deriving DecidableEq, Repr

namespace Endpoint

/-- The path of a place. -/
def path : Endpoint → String
  | poolHealth => "/v1/pool/health"
  | addPool => "/v1/pool/add"
  | addBackend => "/v1/backend/add"
  | removeBackend => "/v1/backend/remove"

/-- The place with a path. -/
def ofPath? (p : String) : Option Endpoint :=
  [poolHealth, addPool, addBackend, removeBackend].find? (·.path == p)

end Endpoint

namespace Request

/-- The place where a request goes. -/
def endpoint : Request → Endpoint
  | poolHealth _ => .poolHealth
  | addPool _ _ _ => .addPool
  | addBackend _ _ => .addBackend
  | removeBackend _ _ => .removeBackend

/-- A request as a document. -/
def value : Request → Value
  | poolHealth pattern => .object [("pattern", .string pattern)]
  | addPool pattern type checks =>
    .object [("pattern", .string pattern), ("pool_type", type.value),
      ("health_checks", checks.value)]
  | addBackend pattern b | removeBackend pattern b =>
    .object [("pattern", .string pattern), ("backend", b.value)]

/-- The fields of a request about a backend read so far. -/
structure BackendDraft where
  pattern : Option String
  backend : Option Backend

/-- The fields of a request for a new pool read so far. -/
structure PoolDraft where
  pattern : Option String
  type : Option PoolType
  checks : Option HealthChecks

/-- How a request for the health of a pool is read. -/
def healthRecord : Record (Option String) Request where
  name := "PoolRequest"
  fields := [.of "pattern" true Decode.text id fun _ x => some x]
  empty := none
  finish d := do return .poolHealth (← needed "pattern" d)

/-- How a request about a backend is read. -/
def backendRecord (make : String → Backend → Request) : Record BackendDraft Request where
  name := "BackendRequest"
  fields := [
    .of "pattern" true Decode.text (·.pattern) fun d x => ⟨some x, d.backend⟩,
    .of "backend" true Backend.record.decode (·.backend) fun d x => ⟨d.pattern, some x⟩]
  empty := ⟨none, none⟩
  finish d := do return make (← needed "pattern" d.pattern) (← needed "backend" d.backend)

/-- How a request for a new pool is read. -/
def poolRecord : Record PoolDraft Request where
  name := "AddPoolRequest"
  fields := [
    .of "pattern" true Decode.text (·.pattern) fun d x => ⟨some x, d.type, d.checks⟩,
    .of "pool_type" true PoolType.decode (·.type) fun d x => ⟨d.pattern, some x, d.checks⟩,
    .of "health_checks" true HealthChecks.record.decode (·.checks) fun d x =>
      ⟨d.pattern, d.type, some x⟩]
  empty := ⟨none, none, none⟩
  finish d := do
    return .addPool (← needed "pattern" d.pattern) (← needed "pool_type" d.type)
      (← needed "health_checks" d.checks)

/-- How the requests that go to a place are read. -/
def decode : Endpoint → Decoder Request
  | .poolHealth => healthRecord.decode
  | .addPool => poolRecord.decode
  | .addBackend => (backendRecord addBackend).decode
  | .removeBackend => (backendRecord removeBackend).decode

end Request

end Rollout.Control
