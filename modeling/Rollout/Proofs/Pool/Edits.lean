import Rollout.Pool.Shape
import Rollout.Proofs.Config.Text

/-!
# Documents keep what they say

The load balancer's messages are records with a layout, as configurations are. Each value is decoded
from the text of every edit of its document (`documents_kept`), with one exception: an integer
beyond the doubles must not be inserted into a transport (`documents_not_kept`), which is taken in
whole.
-/

namespace Rollout

open Document

variable {outer manner deeper inner : Manner}

/-! ## Messages -/

theorem PoolStatus.reads : ∀ s : PoolStatus, Reads decode manner .plain s.value s :=
  Reads.choice fun s => by cases s <;> rfl

theorem PoolType.reads : ∀ t : PoolType, Reads decode manner .plain t.value t :=
  Reads.choice fun t => by cases t <;> rfl

/-- The slots of a report. -/
def PoolHealth.layout (hm : manner.deeper = .ok deeper) (hd : deeper.deeper = .ok inner) :
    Layout manner PoolHealth.record where
  slots := [
    .plain "status" PoolStatus.decode (·.status) (fun d x => ⟨some x, d.backends⟩) (·.status) none
      PoolStatus.value PoolStatus.reads,
    ⟨"backends", Decode.list Backend.record.decode, (·.backends), fun d x => ⟨d.status, some x⟩,
      (·.backends), none, fun _ => .list Backend.shape, fun bs => .array (bs.map Backend.value),
      Reads.listOf hm (Backend.reads hd)⟩]
  fields := rfl
  empty := by simp [Slot.plain, record]
  finish d b h := by
    simp only [Slot.Filled, Slot.plain, List.forall_mem_cons, Option.or_none] at h
    simp [record, needed, h, pure, Except.pure, bind, Except.bind]

/-- The slots of a check. -/
def StatusCheck.layout (hm : manner.deeper = .ok deeper) : Layout manner StatusCheck.record where
  slots := [
    .plain "url_path" Decode.text (·.urlPath) (fun d x => ⟨some x, d.healthyValues⟩) (·.urlPath)
      none .string Reads.text,
    ⟨"healthy_values", Decode.list Decode.text, (·.healthyValues), fun d x => ⟨d.urlPath, some x⟩,
      (·.healthyValues), none, fun _ => .list .plain, .strings, Reads.strings hm⟩]
  fields := rfl
  empty := by simp [Slot.plain, record]
  finish d b h := by
    simp only [Slot.Filled, Slot.plain, List.forall_mem_cons, Option.or_none] at h
    simp [record, needed, h, pure, Except.pure, bind, Except.bind]

theorem StatusCheck.reads (ho : outer.deeper = .ok manner) (hm : manner.deeper = .ok deeper)
    (c : StatusCheck) : Reads record.decode outer shape c.value c :=
  (layout hm).reads ho c

/-- The slots of checks. -/
def HealthChecks.layout (hm : manner.deeper = .ok deeper) (hd : deeper.deeper = .ok inner)
    {innermost : Manner} (hi : inner.deeper = .ok innermost) :
    Layout manner HealthChecks.record where
  slots := [
    ⟨"checks", Decode.list StatusCheck.record.decode, (·.checks),
      fun d x => ⟨some x, d.intervalSecs⟩, (·.checks), none, fun _ => .list StatusCheck.shape,
      fun cs => .array (cs.map StatusCheck.value), Reads.listOf hm (StatusCheck.reads hd hi)⟩,
    .plain "interval_secs" Decode.seconds (·.intervalSecs) (fun d x => ⟨d.checks, some x⟩)
      (·.intervalSecs) none (.nat ·.toNat) Reads.seconds]
  fields := rfl
  empty := by simp [Slot.plain, record]
  finish d b h := by
    simp only [Slot.Filled, Slot.plain, List.forall_mem_cons, Option.or_none] at h
    simp [record, needed, h, pure, Except.pure, bind, Except.bind]

/-! ## Texts -/

theorem Document.Json.Kept.of_reads {α : Type} {d : Decoder α} {shape : α → Shape}
    {document : α → Value} (hwhole : ∀ a, (document a).Whole)
    (h : ∀ a, Reads d (.streamed maxLevels) (shape a) (document a) a) :
    Kept Holds d shape document := by
  intro a v he
  rw [decode_compact d v (he.whole (hwhole a)), h a v he]

/-- Each value is decoded from the text of every edit of its document, where no integer beyond the
doubles is inserted into a transport. -/
theorem documents_kept : DocumentsKept Json.Holds := by
  refine ⟨?backend, ?health, ?status, ?type, ?check, ?checks, ?access, ?transport, ?config⟩
  case backend => exact .of_reads (fun b => Json.whole_of_exact b.exact) (Backend.reads rfl)
  case health =>
    exact .of_reads (fun h => Json.whole_of_exact h.exact) ((PoolHealth.layout rfl rfl).reads rfl)
  case status => exact .of_reads (fun _ => trivial) PoolStatus.reads
  case type => exact .of_reads (fun _ => trivial) PoolType.reads
  case check => exact .of_reads (fun c => Json.whole_of_exact c.exact) (StatusCheck.reads rfl rfl)
  case checks =>
    exact .of_reads (fun h => Json.whole_of_exact h.exact)
      ((HealthChecks.layout rfl rfl rfl).reads rfl)
  case access => exact .of_reads SshAccess.whole (SshAccess.reads rfl)
  case transport => exact .of_reads Transport.whole (Transport.reads rfl)
  case config => exact .of_reads Config.whole (Config.reads rfl rfl)

/-- The standard transport with its kind at the end, a key more and a member less. -/
theorem documents_kept_transport :
    Json.decode Transport.decode (Json.compact (.object [("Via", .integer (-1)), ("Port", .nat 22),
      ("Identity", .null), ("Kind", .string "Ssh")])) = .ok (.ssh .standard) := by
  obtain ⟨-, -, -, -, -, -, -, htransport, -⟩ := documents_kept
  have hmove := List.perm_append_singleton (Transport.tag, Value.string "Ssh")
    SshAccess.standard.members
  have hdelete : ("User", Shape.plain, some Value.null) ∈
      (Transport.tag, Shape.plain, none) :: SshAccess.keys :=
    List.mem_cons_of_mem _ List.mem_cons_self
  have hunknown : ∀ k ∈ (Transport.tag, Shape.plain, none) :: SshAccess.keys, k.1 ≠ "Via" := by
    simp [SshAccess.keys, Transport.tag]
  have hscalar : (Value.integer (-1)).IsScalar := trivial
  have hholds : Json.Holds (.integer (-1)) := Json.holds_integer (by decide) (by decide)
  exact htransport (.ssh .standard) _ (.trans (.permute hmove.symm)
    (.trans (.delete hdelete _) (.insert hunknown hscalar (fun _ => hholds) _)))

/-! ## Integers beyond the doubles -/

/-- A transport is refused when an integer that no double comes near to stands in front of it. -/
theorem Transport.decode_unheld {key : String} {n : Int} (hkey : key ≠ tag)
    (hn : ¬ Json.Holds (.integer n)) {levels : Nat}
    (hm : outer.deeper = .ok (.streamed levels)) (members : List (String × Value)) :
    decode outer (Json.parsed (.object ((key, .integer n) :: members))) =
      .error ⟨[], .grammar .numberTooLarge⟩ := by
  have hhuge : Json.parsed (.integer n) = .hugeNumber := not_not.mp hn
  have htaken : Decode.takenIn (.streamed levels) (Json.parsed (.integer n)) =
      failGrammar .numberTooLarge := by
    rw [hhuge]
    rfl
  show decode outer (.object (Json.parsedMembers ((key, .integer n) :: members))) = _
  simp only [decode, hm, Json.parsedMembers, gather, if_neg hkey, htaken, bind, Except.bind]
  rfl

/-- A one and three hundred and nine zeros. -/
def huge : Nat := Nat.pow 10 309

theorem not_holds_huge : ¬ Json.Holds (.integer huge) :=
  Json.not_holds (by decide +kernel) (Option.isNone_iff_eq_none.mp (by decide +kernel))

/-- Not every integer may be inserted into a transport. -/
theorem documents_not_kept : ¬ DocumentsKept fun _ => True := by
  rintro ⟨-, -, -, -, -, -, -, htransport, -⟩
  have hunknown : ∀ k ∈ [(Transport.tag, Shape.plain, (none : Option Value))], k.1 ≠ "Via" := by
    simp [Transport.tag]
  have hscalar : (Value.integer huge).IsScalar := trivial
  have hinsert : Edit (fun _ => True) Transport.onMachine.shape Transport.onMachine.value
      (.object [("Via", .integer huge), (Transport.tag, .string "Local")]) :=
    .insert hunknown hscalar (fun _ => trivial) _
  have hkept := htransport .onMachine _ hinsert
  rw [Json.decode_compact _ _ (hinsert.whole Transport.onMachine.whole),
    Transport.decode_unheld (by decide) not_holds_huge rfl] at hkept
  cases hkept

end Rollout
