import Rollout.Pool.Text
import Rollout.Proofs.Document.Decode
import Rollout.Proofs.Document.Json.Values
import Rollout.Proofs.Net.Ip

/-!
# What the load balancer's messages say is read back

Each value of a message is decoded to what it was made of (`Restores`), and is written without loss
(`Value.Exact`). A value needs one level more than the values inside it.
-/

namespace Rollout

open Document

/-! ## Decoded -/

theorem IpAddr.decode_text (ip : IpAddr) (manner : Manner) :
    IpAddr.decode manner (Value.string ip.text).node = .ok ip := by
  simp only [IpAddr.decode, Decode.textOf, Value.node, bind, Except.bind, IpAddr.read?_text]
  rfl

theorem IpAddr.restores : Restores IpAddr.decode 0 fun ip => .string ip.text :=
  fun ip _ _ => ip.decode_text _

theorem Backend.restores : Restores Backend.record.decode 1 Backend.value := by
  intro b levels h
  have hip := IpAddr.restores b.ip (levels - 1) (by omega)
  have hport := Restores.word16 b.port (levels - 1) (by omega)
  rw [Backend.value, Record.decode_object (by omega), Record.members_of rfl rfl hip,
    Record.members_of rfl rfl hport]
  rfl

theorem PoolStatus.restores : Restores PoolStatus.decode 0 PoolStatus.value :=
  .choice fun s => by cases s <;> rfl

theorem PoolType.restores : Restores PoolType.decode 0 PoolType.value :=
  .choice fun t => by cases t <;> rfl

theorem PoolHealth.restores : Restores PoolHealth.record.decode 3 PoolHealth.value := by
  intro health levels h
  have hstatus := PoolStatus.restores health.status (levels - 1) (by omega)
  have hbackends := Backend.restores.list health.backends (levels - 1) (by omega)
  rw [PoolHealth.value, Record.decode_object (by omega), Record.members_of rfl rfl hstatus,
    Record.members_of rfl rfl hbackends]
  rfl

theorem StatusCheck.restores : Restores StatusCheck.record.decode 2 StatusCheck.value := by
  intro check levels h
  have hpath := Restores.text check.urlPath (levels - 1) (by omega)
  have hvalues := Restores.text.list check.healthyValues (levels - 1) (by omega)
  rw [StatusCheck.value, Record.decode_object (by omega), Record.members_of rfl rfl hpath,
    Value.strings, Record.members_of rfl rfl hvalues]
  rfl

theorem HealthChecks.restores : Restores HealthChecks.record.decode 4 HealthChecks.value := by
  intro checks levels h
  have hchecks := StatusCheck.restores.list checks.checks (levels - 1) (by omega)
  have hinterval := Restores.seconds checks.intervalSecs (levels - 1) (by omega)
  rw [HealthChecks.value, Record.decode_object (by omega), Record.members_of rfl rfl hchecks,
    Record.members_of rfl rfl hinterval]
  rfl

/-! ## Written -/

theorem Backend.exact (b : Backend) : b.value.Exact :=
  ⟨trivial, Value.exact_nat (Nat.lt_trans b.port.toNat_lt (by decide)), trivial⟩

theorem PoolHealth.exact (h : PoolHealth) : h.value.Exact :=
  ⟨trivial, Value.exact_map Backend.exact h.backends, trivial⟩

theorem StatusCheck.exact (c : StatusCheck) : c.value.Exact :=
  ⟨trivial, Value.exact_strings c.healthyValues, trivial⟩

theorem HealthChecks.exact (h : HealthChecks) : h.value.Exact :=
  ⟨Value.exact_map StatusCheck.exact h.checks, Value.exact_nat h.intervalSecs.toNat_lt, trivial⟩

end Rollout
