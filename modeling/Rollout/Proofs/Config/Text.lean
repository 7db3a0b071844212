import Rollout.Config.Shape
import Rollout.Proofs.Document.Record
import Rollout.Proofs.Pool.Text

/-!
# Configurations are read from every edit

Backends, accesses and configurations are records with a layout. A transport is taken in whole: its
kind is found wherever it stands (`Transport.gather_kind`), and the members besides are read by the
kind (`Transport.decode_spelled`).
-/

namespace Rollout

open Document

variable {outer manner deeper : Manner}

/-! ## Backends -/

/-- The slots of a backend. -/
def Backend.layout (manner : Manner) : Layout manner Backend.record where
  slots := [
    .plain "ip" IpAddr.decode (·.ip) (fun d x => ⟨some x, d.port⟩) (·.ip) none (.string ·.text)
      fun ip => .plain (ip.decode_text manner),
    .plain "port" Decode.word16 (·.port) (fun d x => ⟨d.ip, some x⟩) (·.port) none
      (.nat ·.toNat) Reads.word16]
  fields := rfl
  empty := by simp [Slot.plain, record]
  finish d b h := by
    simp only [Slot.Filled, Slot.plain, List.forall_mem_cons, Option.or_none] at h
    simp [record, needed, h, pure, Except.pure, bind, Except.bind]

theorem Backend.reads (hm : outer.deeper = .ok manner) (b : Backend) :
    Reads record.decode outer shape b.value b :=
  (layout manner).reads hm b

/-! ## Transports -/

/-- The slots of an access. -/
def SshAccess.layout (manner : Manner) : Layout manner SshAccess.record where
  slots := [
    .plain "User" (Decode.optional Decode.text) (·.user)
      (fun d x => ⟨some x, d.port, d.identity⟩) (·.user) (some none) .optional
      (Reads.optional Reads.text),
    .plain "Port" Decode.word16 (·.port) (fun d x => ⟨d.user, some x, d.identity⟩) (·.port)
      (some standardPort) (.nat ·.toNat) Reads.word16,
    .plain "Identity" (Decode.optional Decode.path) (·.identity)
      (fun d x => ⟨d.user, d.port, some x⟩) (·.identity) (some none) .optional
      (Reads.optional Reads.path)]
  fields := rfl
  empty := by simp [Slot.plain, record]
  finish d a h := by
    simp only [Slot.Filled, Slot.plain, List.forall_mem_cons, Option.or_some,
      Option.some.injEq] at h
    simp [record, h]

theorem SshAccess.whole (a : SshAccess) : (Value.object a.members).Whole :=
  ⟨Value.whole_optional a.user, trivial, Value.whole_optional a.identity, trivial⟩

theorem SshAccess.reads (hm : outer.deeper = .ok manner) (a : SshAccess) :
    Reads record.decode outer shape (.object a.members) a :=
  (layout manner).reads hm a

namespace Transport

/-- What is asked for under the key of the kind. -/
def kindAsked (name : String) : Asked where
  key := tag
  shape := .plain
  standard := none
  Answers v := v = .string name
  Spare := False
  answers_edit h he := he.eq_of_plain.trans h
  spare_of := nofun

section Gather

variable {front back members : List (String × Value)}

/-- Whether a member is taken in to be read by the kind. -/
def Besides (manner : Manner) (m : String × Value) : Prop :=
  m.1 ≠ tag ∧ Decode.takenIn manner (Json.parsed m.2) = .ok ()

theorem gather_besides (kind : Option Kind) (h : ∀ m ∈ members, Besides manner m) :
    gather manner (Json.parsedMembers members) kind .closed =
      .ok (kind, Json.parsedMembers members) := by
  induction members with
  | nil => rfl
  | cons m members ih =>
    obtain ⟨⟨hkey, htaken⟩, hrest⟩ := List.forall_mem_cons.mp h
    simp only [Json.parsedMembers, gather, if_neg hkey, htaken, ih hrest, bind, Except.bind]
    rfl

/-- The kind is found wherever it stands. -/
theorem gather_kind {v : Value} {kind : Kind}
    (hv : Decode.variantName kinds manner (Json.parsed v) = .ok kind)
    (hfront : ∀ m ∈ front, Besides manner m) (hback : ∀ m ∈ back, Besides manner m) :
    gather manner (Json.parsedMembers (front ++ (tag, v) :: back)) none .closed =
      .ok (some kind, Json.parsedMembers (front ++ back)) := by
  induction front with
  | nil =>
    rw [List.nil_append, Json.parsedMembers, gather, if_pos rfl, hv]
    exact gather_besides (some kind) hback
  | cons m front ih =>
    obtain ⟨⟨hkey, htaken⟩, hrest⟩ := List.forall_mem_cons.mp hfront
    simp only [List.cons_append, Json.parsedMembers, gather, if_neg hkey, htaken, ih hrest, bind,
      Except.bind]
    rfl

end Gather

/-- A transport is read by its kind from the members besides. -/
theorem decode_spelled {name : String} {kind : Kind} {asked : List Asked} {other : Value → Prop}
    {members : List (String × Value)} (hm : outer.deeper = .ok manner)
    (hname : kinds.lookup name = some kind) (hasked : ∀ q ∈ asked, q.key ≠ tag)
    (h : Spells (kindAsked name :: asked) other members)
    (htaken : ∀ m ∈ members, Decode.takenIn manner (Json.parsed m.2) = .ok ()) :
    ∃ rest, decode outer (Json.parsed (.object members)) =
        ofKind kind (.object (Json.parsedMembers rest)) ∧ Spells asked other rest := by
  obtain ⟨⟨key, v⟩, hmem, hkey⟩ : ∃ m ∈ members, m.1 = tag := by
    by_contra hn
    push Not at hn
    exact h.spare _ List.mem_cons_self hn
  obtain rfl : key = tag := hkey
  obtain rfl : v = .string name := h.answers _ List.mem_cons_self _ hmem rfl
  obtain ⟨front, back, rfl⟩ := List.append_of_mem hmem
  refine ⟨front ++ back, ?_, (h.permute List.perm_middle).besides hasked⟩
  have hbesides : ∀ m ∈ front ++ back, Besides manner m := by
    have hpairs := (h.permute List.perm_middle).once
    intro m hmem
    refine ⟨fun heq => ?_, htaken m ?_⟩
    · exact List.rel_of_pairwise_cons hpairs hmem heq.symm _ List.mem_cons_self rfl
    · exact List.perm_middle.mem_iff.mpr (List.mem_cons_of_mem _ hmem)
  have hkind : Decode.variantName kinds manner (Json.parsed (.string name)) = .ok kind := by
    show Decode.variant kinds name = .ok kind
    rw [Decode.variant, hname]
  have hgather := gather_kind hkind (fun m hm => hbesides m (List.mem_append_left _ hm))
    fun m hm => hbesides m (List.mem_append_right _ hm)
  show decode outer (.object (Json.parsedMembers (front ++ (tag, .string name) :: back))) = _
  simp only [decode, hm, hgather, bind, Except.bind]

/-- The members besides the kind decide over every edit of a transport. -/
theorem decode_edit (name : String) {kind : Kind} {asked : List Asked} {other : Value → Prop}
    {members : List (String × Value)} {w : Value} (hm : outer.deeper = .ok manner)
    (hname : kinds.lookup name = some kind) (hkeys : (tag :: asked.map Asked.key).Nodup)
    (hflat : ∀ q ∈ asked, q.shape = .plain) (hs : Spells asked other members)
    (hbesides : ∀ m ∈ members, Besides manner m) (hother : ∀ v, other v)
    (he : Edit Json.Holds (.object true ((tag, .plain, none) :: asked.map Asked.entry))
      (.object ((tag, .string name) :: members)) w) :
    ∃ rest, decode outer (Json.parsed w) = ofKind kind (.object (Json.parsedMembers rest)) ∧
      Spells asked other rest := by
  have hasked : ∀ q ∈ asked, q.key ≠ tag := fun q hq heq =>
    (List.nodup_cons.mp hkeys).1 (heq ▸ List.mem_map_of_mem hq)
  have hstart : Spells (kindAsked name :: asked) other ((tag, .string name) :: members) :=
    hs.cons rfl hasked fun m hmem => (hbesides m hmem).1
  obtain ⟨others, rfl, hspells⟩ := hstart.edit hkeys (fun v _ _ => hother v) he
  have htaken : ∃ others', Value.object others = .object others' ∧
      ∀ m ∈ others', Decode.takenIn manner (Json.parsed m.2) = .ok () := by
    refine he.object_flat ?_ (fun v hv h => Json.takenIn_of_isScalar hv (h rfl)) ?_
    · refine List.forall_mem_cons.mpr ⟨rfl, fun k hk => ?_⟩
      obtain ⟨q, hq, rfl⟩ := List.mem_map.mp hk
      exact hflat q hq
    · refine List.forall_mem_cons.mpr ⟨?_, fun m hmem => (hbesides m hmem).2⟩
      exact Json.takenIn_of_isScalar trivial trivial
  obtain ⟨others', heq, htaken⟩ := htaken
  cases heq
  exact decode_spelled hm hname hasked hspells htaken

theorem besides_members (a : SshAccess) : ∀ m ∈ a.members, Besides manner m := by
  have hoptional : ∀ o, Decode.takenIn manner (Json.parsed (.optional o)) = .ok () := by
    intro o
    cases o <;> exact Json.takenIn_of_isScalar trivial trivial
  have hholds : Json.Holds (.nat a.port.toNat) := by
    have hport := a.port.toNat_lt
    exact Json.holds_integer (by omega) (by simp [UInt64.size]; omega)
  have hport : Decode.takenIn manner (Json.parsed (.nat a.port.toNat)) = .ok () :=
    Json.takenIn_of_isScalar trivial hholds
  simp [SshAccess.members, Besides, tag, hoptional, hport]

theorem whole (t : Transport) : t.value.Whole := by
  cases t with
  | ssh a => exact ⟨trivial, a.whole⟩
  | onMachine => exact ⟨trivial, trivial⟩

/-- A transport is read from every edit of its document. -/
theorem reads (hm : outer.deeper = .ok manner) (t : Transport) :
    Reads decode outer t.shape t.value t := by
  intro w he
  cases t with
  | ssh a =>
    obtain ⟨rest, hdecode, hrest⟩ := decode_edit "Ssh" hm rfl
      (by simp [SshAccess.layout, Slot.plain, Slot.asked, tag])
      (by simp [SshAccess.layout, Slot.plain, Slot.asked])
      ((SshAccess.layout .buffered).spells_members _) (besides_members a) (fun _ => rfl) he
    have haccess : SshAccess.record.decode .buffered (Json.parsed (.object rest)) = .ok a :=
      (SshAccess.layout .buffered).decode_spelled rfl hrest
    rw [hdecode]
    exact congrArg (Except.map Transport.ssh) haccess
  | onMachine =>
    obtain ⟨rest, hdecode, -⟩ := decode_edit "Local" hm rfl (by simp) (by simp)
      (.nil fun _ => True) (by simp) (fun _ => trivial) he
    exact hdecode

end Transport

/-! ## Configurations -/

/-- The slots of a configuration. -/
def Config.layout (hm : manner.deeper = .ok deeper) : Layout manner Config.record where
  slots := [
    .plain "Concurrency" Decode.count (·.concurrency) (fun d x => { d with concurrency := some x })
      (·.concurrency) none (.nat ·.toNat) Reads.count,
    .plain "CanaryNum" Decode.count (·.canaryNum) (fun d x => { d with canaryNum := some x })
      (·.canaryNum) (some 0) (.nat ·.toNat) Reads.count,
    .plain "MaxFailures" Decode.word32 (·.maxFailures)
      (fun d x => { d with maxFailures := some x }) (·.maxFailures) (some 0) (.nat ·.toNat)
      Reads.word32,
    .plain "Src" Decode.path (·.src) (fun d x => { d with src := some x }) (·.src) none .string
      Reads.path,
    .plain "LB" Decode.text (·.lb) (fun d x => { d with lb := some x }) (·.lb) none .string
      Reads.text,
    .plain "Pattern" Decode.text (·.pattern) (fun d x => { d with pattern := some x }) (·.pattern)
      none .string Reads.text,
    ⟨"Backends", Decode.list Decode.text, (·.backends), fun d x => { d with backends := some x },
      (·.backends), none, fun _ => .list .plain, .strings, Reads.strings hm⟩,
    .plain "Dst" (Decode.optional Decode.text) (·.dst) (fun d x => { d with dst := some x })
      (·.dst) (some none) .optional (Reads.optional Reads.text),
    ⟨"Args", Decode.list Decode.text, (·.args), fun d x => { d with args := some x }, (·.args),
      some [], fun _ => .list .plain, .strings, Reads.strings hm⟩,
    .plain "HealthPath" Decode.text (·.healthPath) (fun d x => { d with healthPath := some x })
      (·.healthPath) (some standardHealthPath) .string Reads.text,
    ⟨"Transport", Transport.decode, (·.transport), fun d x => { d with transport := some x },
      (·.transport), some (.ssh .standard), Transport.shape, Transport.value,
      Transport.reads hm⟩,
    .plain "PreconditionTimeoutSecs" Decode.seconds (·.preconditionTimeoutSecs)
      (fun d x => { d with preconditionTimeoutSecs := some x }) (·.preconditionTimeoutSecs)
      (some standardPreconditionTimeout) (.nat ·.toNat) Reads.seconds,
    .plain "ActionTimeoutSecs" Decode.seconds (·.actionTimeoutSecs)
      (fun d x => { d with actionTimeoutSecs := some x }) (·.actionTimeoutSecs)
      (some standardActionTimeout) (.nat ·.toNat) Reads.seconds,
    .plain "CanaryCooldownSecs" Decode.seconds (·.canaryCooldownSecs)
      (fun d x => { d with canaryCooldownSecs := some x }) (·.canaryCooldownSecs)
      (some standardCanaryCooldown) (.nat ·.toNat) Reads.seconds,
    .plain "RetryPasses" Decode.word32 (·.retryPasses)
      (fun d x => { d with retryPasses := some x }) (·.retryPasses) (some standardRetryPasses)
      (.nat ·.toNat) Reads.word32,
    .plain "RetryDelaySecs" Decode.seconds (·.retryDelaySecs)
      (fun d x => { d with retryDelaySecs := some x }) (·.retryDelaySecs) (some standardRetryDelay)
      (.nat ·.toNat) Reads.seconds]
  fields := rfl
  empty := by simp [Slot.plain, record, Draft.empty]
  finish d c h := by
    simp only [Slot.Filled, Slot.plain, List.forall_mem_cons, Option.or_none, Option.or_some,
      Option.some.injEq] at h
    simp [record, needed, h, pure, Except.pure, bind, Except.bind]

theorem Config.whole (c : Config) : c.value.Whole := by
  simp [value, Value.Whole, Value.MembersWhole, Value.nat, Value.whole_optional,
    Value.whole_strings, c.transport.whole]

/-- A configuration is read from every edit of its document. -/
theorem Config.reads (ho : outer.deeper = .ok manner) (hm : manner.deeper = .ok deeper)
    (c : Config) : Reads record.decode outer c.shape c.value c :=
  (layout hm).reads ho c

end Rollout
