import Rollout.Config.Text
import Rollout.Pool.Basic

/-!
# Pools as documents

How the load balancer's messages are written and read.
-/

namespace Rollout

open Document

namespace PoolStatus

/-- The statuses with their names. -/
def known : List (String × PoolStatus) :=
  [unknown, empty, full, degraded].map fun s => (s.text, s)

/-- Reads a status. -/
def decode : Decoder PoolStatus := Decode.choice known

/-- A status as a document. -/
def value (s : PoolStatus) : Value := .string s.text

end PoolStatus

namespace PoolType

/-- The types with their names. -/
def known : List (String × PoolType) := [twoChoices, roundRobin].map fun t => (t.text, t)

/-- Reads a type. -/
def decode : Decoder PoolType := Decode.choice known

/-- A type as a document. -/
def value (t : PoolType) : Value := .string t.text

end PoolType

namespace PoolHealth

/-- The fields of a report read so far. -/
structure Draft where
  status : Option PoolStatus
  backends : Option (List Backend)

/-- How a report is read. -/
def record : Record Draft PoolHealth where
  name := "PoolHealth"
  fields := [
    .of "status" true PoolStatus.decode (·.status) fun d x => ⟨some x, d.backends⟩,
    .of "backends" true (Decode.list Backend.record.decode) (·.backends) fun d x =>
      ⟨d.status, some x⟩]
  empty := ⟨none, none⟩
  finish d := do return ⟨← needed "status" d.status, ← needed "backends" d.backends⟩

/-- A report as a document. -/
def value (h : PoolHealth) : Value :=
  .object [("status", h.status.value), ("backends", .array (h.backends.map Backend.value))]

end PoolHealth

namespace StatusCheck

/-- The fields of a check read so far. -/
structure Draft where
  urlPath : Option String
  healthyValues : Option (List String)

/-- How a check is read. -/
def record : Record Draft StatusCheck where
  name := "StatusCheck"
  fields := [
    .of "url_path" true Decode.text (·.urlPath) fun d x => ⟨some x, d.healthyValues⟩,
    .of "healthy_values" true (Decode.list Decode.text) (·.healthyValues) fun d x =>
      ⟨d.urlPath, some x⟩]
  empty := ⟨none, none⟩
  finish d := do
    return ⟨← needed "url_path" d.urlPath, ← needed "healthy_values" d.healthyValues⟩

/-- A check as a document. -/
def value (c : StatusCheck) : Value :=
  .object [("url_path", .string c.urlPath), ("healthy_values", .strings c.healthyValues)]

end StatusCheck

namespace HealthChecks

/-- The fields of checks read so far. -/
structure Draft where
  checks : Option (List StatusCheck)
  intervalSecs : Option UInt64

/-- How checks are read. -/
def record : Record Draft HealthChecks where
  name := "HealthChecks"
  fields := [
    .of "checks" true (Decode.list StatusCheck.record.decode) (·.checks) fun d x =>
      ⟨some x, d.intervalSecs⟩,
    .of "interval_secs" true Decode.seconds (·.intervalSecs) fun d x => ⟨d.checks, some x⟩]
  empty := ⟨none, none⟩
  finish d := do
    return ⟨← needed "checks" d.checks, ← needed "interval_secs" d.intervalSecs⟩

/-- Checks as a document. -/
def value (h : HealthChecks) : Value :=
  .object [("checks", .array (h.checks.map StatusCheck.value)),
    ("interval_secs", .nat h.intervalSecs.toNat)]

end HealthChecks

end Rollout
