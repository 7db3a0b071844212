import Mathlib.Tactic.Push
import Rollout.Proofs.Document.Decode
import Rollout.Proofs.Document.Edit

/-!
# Records are read from every edit

* A `Slot` tells how a part of a value stands in its document: under which key, in which shape, and
  what stands for it when it is left out.
* A `Layout` describes a record by its slots. What is put into one slot of a draft stands there, and
  the others are as they were.
* `Layout.members_answered`: a record is read from members that answer what its slots ask for, by
  induction over the members. The slots of the members that are left are vacant, and all others are
  filled.
* `Layout.reads`: a record is read from every edit of its document.
-/

namespace Rollout.Document

/-! ## Parts -/

namespace Reads

variable {manner deeper : Manner}

theorem text (s : String) : Reads Decode.text manner .plain (.string s) s := plain rfl

theorem path (s : String) : Reads Decode.path manner .plain (.string s) s := plain rfl

theorem optional {d : Decoder String} (h : ∀ s, Reads d manner .plain (.string s) s) :
    ∀ o, Reads (Decode.optional d) manner .plain (.optional o) o
  | none => plain rfl
  | some s => plain (congrArg (Except.map some) (h s).here)

/-- A number is read where sixty-four bits hold it. -/
theorem number {β : Type} {bound : Nat} {expected : String} {ofNat : Nat → β} {toNat : β → Nat}
    (hbound : bound ≤ UInt64.size) (hlt : ∀ n, toNat n < bound) (hof : ∀ n, ofNat (toNat n) = n)
    (n : β) :
    Reads (fun manner node => (Decode.unsigned bound expected manner node).map ofNat) manner .plain
      (.nat (toNat n)) n := by
  refine plain ?_
  rw [Json.parsed_of_exact (Value.exact_nat (Nat.lt_of_lt_of_le (hlt n) hbound)),
    Restores.unsigned (hlt n)]
  exact congrArg Except.ok (hof n)

theorem word16 : ∀ n : UInt16, Reads Decode.word16 manner .plain (.nat n.toNat) n :=
  number (by decide) UInt16.toNat_lt fun _ => UInt16.ofNat_toNat

theorem word32 : ∀ n : UInt32, Reads Decode.word32 manner .plain (.nat n.toNat) n :=
  number (by decide) UInt32.toNat_lt fun _ => UInt32.ofNat_toNat

theorem count : ∀ n : UInt64, Reads Decode.count manner .plain (.nat n.toNat) n :=
  number (by decide) UInt64.toNat_lt fun _ => UInt64.ofNat_toNat

theorem seconds : ∀ n : UInt64, Reads Decode.seconds manner .plain (.nat n.toNat) n :=
  number (by decide) UInt64.toNat_lt fun _ => UInt64.ofNat_toNat

/-- A name is read as what has it. -/
theorem choice {α : Type} {known : List (String × α)} {name : α → String}
    (h : ∀ a, known.lookup (name a) = some a) (a : α) :
    Reads (Decode.choice known) manner .plain (.string (name a)) a := by
  refine plain ?_
  show Decode.variant known (name a) = .ok a
  rw [Decode.variant, h a]

theorem listOf {α : Type} {d : Decoder α} {shape : Shape} {document : α → Value}
    (hm : manner.deeper = .ok deeper) (h : ∀ a, Reads d deeper shape (document a) a)
    (as : List α) : Reads (Decode.list d) manner (.list shape) (.array (as.map document)) as :=
  list hm (List.forall₂_map_left_iff.mpr (List.forall₂_same.mpr fun a _ => h a))

theorem strings (hm : manner.deeper = .ok deeper) (texts : List String) :
    Reads (Decode.list Decode.text) manner (.list .plain) (.strings texts) texts :=
  listOf hm text texts

end Reads

/-! ## Layouts -/

/-- How a part of a value of `α` stands in its document, and in the drafts of a record that is read
in a manner. -/
structure Slot (manner : Manner) (σ α : Type) where
  {β : Type}
  key : String
  decoder : Decoder β
  get : σ → Option β
  set : σ → β → σ
  part : α → β
  standard : Option β
  shape : β → Shape
  document : β → Value
  /-- Each part is read from every edit of its document. -/
  reads : ∀ b, Reads decoder manner (shape b) (document b) b

namespace Slot

variable {manner : Manner} {σ α : Type}

/-- The slot of a part without parts. -/
def plain {β : Type} (key : String) (decoder : Decoder β) (get : σ → Option β) (set : σ → β → σ)
    (part : α → β) (standard : Option β) (document : β → Value)
    (reads : ∀ b, Reads decoder manner .plain (document b) b) : Slot manner σ α :=
  ⟨key, decoder, get, set, part, standard, fun _ => .plain, document, reads⟩

/-- The field that a slot describes. -/
def field (s : Slot manner σ α) : Field σ := .of s.key s.standard.isNone s.decoder s.get s.set

/-- The member for a part. -/
def member (a : α) (s : Slot manner σ α) : String × Value := (s.key, s.document (s.part a))

/-- Whether a draft has the part of a slot, read or standing for it. -/
def Filled (s : Slot manner σ α) (a : α) (d : σ) : Prop :=
  (s.get d).or s.standard = some (s.part a)

/-- What a slot asks of a document. -/
def asked (a : α) (s : Slot manner σ α) : Asked where
  key := s.key
  shape := s.shape (s.part a)
  standard := s.standard.map s.document
  Answers v := Reads s.decoder manner (s.shape (s.part a)) v (s.part a)
  Spare := s.standard = some (s.part a)
  answers_edit hv he := hv.edit he
  spare_of {v} hv hreads := by
    obtain ⟨b, hb, rfl⟩ := Option.map_eq_some_iff.mp hv
    rw [hb, Except.ok.inj ((s.reads b).here.symm.trans hreads.here)]

end Slot

/-- The slots of a record. -/
structure Layout {σ α : Type} (manner : Manner) (r : Record σ α) where
  slots : List (Slot manner σ α)
  fields : r.fields = slots.map Slot.field
  keys : (slots.map Slot.key).Nodup := by simp [Slot.plain]
  empty : ∀ s ∈ slots, s.get r.empty = none
  get_set : ∀ s ∈ slots, ∀ d b, s.get (s.set d b) = some b := by simp [Slot.plain]
  frame : ∀ s ∈ slots, ∀ t ∈ slots, s.key ≠ t.key → ∀ d b, t.get (s.set d b) = t.get d := by
    simp [Slot.plain]
  finish : ∀ d a, (∀ s ∈ slots, s.Filled a d) → r.finish d = .ok a

namespace Layout

variable {manner : Manner} {σ α : Type} {r : Record σ α} (l : Layout manner r)

theorem eq_of_key {s t : Slot manner σ α} (hs : s ∈ l.slots) (ht : t ∈ l.slots)
    (h : s.key = t.key) : s = t :=
  List.inj_on_of_nodup_map l.keys hs ht h

theorem field?_unknown {key : String} (h : ∀ s ∈ l.slots, s.key ≠ key) : r.field? key = none := by
  rw [Record.field?, l.fields, List.find?_eq_none]
  intro f hf hkey
  obtain ⟨s, hs, rfl⟩ := List.mem_map.mp hf
  exact h s hs (beq_iff_eq.mp hkey)

/-- A slot is found by its key. -/
theorem field?_key {s : Slot manner σ α} (hs : s ∈ l.slots) : r.field? s.key = some s.field := by
  cases hf : r.field? s.key with
  | none =>
    rw [Record.field?, l.fields, List.find?_eq_none] at hf
    exact absurd (beq_self_eq_true s.key) (hf s.field (List.mem_map_of_mem hs))
  | some f =>
    rw [Record.field?, l.fields] at hf
    obtain ⟨t, ht, rfl⟩ := List.mem_map.mp (List.mem_of_find?_eq_some hf)
    have hkey : t.key = s.key := by simpa [Slot.field, Field.of] using List.find?_some hf
    rw [l.eq_of_key ht hs hkey]

section Members

variable {a : α} {d : σ} {key : String} {v : Value} {members : List (String × Value)}

/-- A member of a vacant slot is put into it. -/
theorem members_slot {s : Slot manner σ α} (hs : s ∈ l.slots) (hd : s.get d = none)
    (hv : s.decoder manner (Json.parsed v) = .ok (s.part a)) :
    r.members manner (Json.parsedMembers ((s.key, v) :: members)) d =
      r.members manner (Json.parsedMembers members) (s.set d (s.part a)) := by
  rw [Json.parsedMembers, Record.members, Record.claim, l.field?_key hs]
  simp [Slot.field, Field.of, hd, hv, within, Except.map, bind, Except.bind]

/-- A member under another key is passed over. -/
theorem members_other (hkey : ∀ s ∈ l.slots, s.key ≠ key)
    (hv : Decode.ignored manner (Json.parsed v) = .ok ()) :
    r.members manner (Json.parsedMembers ((key, v) :: members)) d =
      r.members manner (Json.parsedMembers members) d := by
  rw [Json.parsedMembers, Record.members, Record.claim, l.field?_unknown hkey]
  simp [hv, within, bind, Except.bind]

/-- A record is read from members that answer what its slots ask for. -/
theorem members_answered
    (h : Answered (l.slots.map (Slot.asked a))
      (fun v => Decode.ignored manner (Json.parsed v) = .ok ()) members)
    (hvacant : ∀ s ∈ l.slots, ∀ m ∈ members, m.1 = s.key → s.get d = none)
    (hfilled : ∀ s ∈ l.slots, (∀ m ∈ members, m.1 ≠ s.key) → s.Filled a d) :
    r.members manner (Json.parsedMembers members) d = .ok a := by
  induction members generalizing d with
  | nil =>
    rw [Json.parsedMembers, Record.members, Record.finished,
      l.finish d a fun s hs => hfilled s hs (by simp)]
  | cons m members ih =>
    obtain ⟨key, v⟩ := m
    by_cases hkey : ∀ s ∈ l.slots, s.key ≠ key
    · have hv := h.other (key, v) List.mem_cons_self (by simpa [Slot.asked] using hkey)
      rw [l.members_other hkey hv]
      refine ih h.tail (fun s hs m hm => hvacant s hs m (List.mem_cons_of_mem _ hm)) ?_
      intro s hs hn
      refine hfilled s hs fun m hm => ?_
      rcases List.mem_cons.mp hm with rfl | hm
      · exact (hkey s hs).symm
      · exact hn m hm
    · push Not at hkey
      obtain ⟨s, hs, rfl⟩ := hkey
      have hv : Reads s.decoder manner (s.shape (s.part a)) v (s.part a) :=
        h.answers (s.asked a) (List.mem_map_of_mem hs) _ List.mem_cons_self rfl
      rw [l.members_slot hs (hvacant s hs _ List.mem_cons_self rfl) hv.here]
      refine ih h.tail ?_ ?_
      · intro t ht m hm hmt
        have hst : s.key ≠ t.key := fun heq =>
          List.rel_of_pairwise_cons h.once hm (heq.trans hmt.symm) (s.asked a)
            (List.mem_map_of_mem hs) rfl
        rw [l.frame s hs t ht hst]
        exact hvacant t ht m (List.mem_cons_of_mem _ hm) hmt
      · intro t ht hn
        by_cases hst : s.key = t.key
        · cases l.eq_of_key hs ht hst
          rw [Slot.Filled, l.get_set s hs, Option.some_or]
        · rw [Slot.Filled, l.frame s hs t ht hst]
          refine hfilled t ht fun m hm => ?_
          rcases List.mem_cons.mp hm with rfl | hm
          · exact hst
          · exact hn m hm

end Members

/-! ## The record -/

section Record

variable {outer : Manner} {held : Bool} {a : α} {members : List (String × Value)}

theorem decode_spelled (hm : outer.deeper = .ok manner)
    (h : Spells (l.slots.map (Slot.asked a))
      (fun v => Decode.ignored manner (Json.parsed v) = .ok ()) members) :
    r.decode outer (Json.parsed (.object members)) = .ok a := by
  show (do r.members (← outer.deeper) (Json.parsedMembers members) r.empty) = _
  rw [hm]
  refine l.members_answered h.toAnswered (fun s hs _ _ _ => l.empty s hs) fun s hs hn => ?_
  have hspare : s.standard = some (s.part a) := h.spare (s.asked a) (List.mem_map_of_mem hs) hn
  rw [Slot.Filled, l.empty s hs, hspare, Option.none_or]

/-- The document of a value answers what the slots ask for. -/
theorem spells_members (other : Value → Prop) :
    Spells (l.slots.map (Slot.asked a)) other (l.slots.map (Slot.member a)) where
  once := by
    have hkeys := List.pairwise_map.mp l.keys
    exact List.pairwise_map.mpr (hkeys.imp fun hne heq => absurd heq hne)
  answers q hq m hm hkey := by
    obtain ⟨s, hs, rfl⟩ := List.mem_map.mp hq
    obtain ⟨t, ht, rfl⟩ := List.mem_map.mp hm
    cases l.eq_of_key ht hs hkey
    exact s.reads (s.part a)
  other m hm hn := by
    obtain ⟨s, hs, rfl⟩ := List.mem_map.mp hm
    exact absurd rfl (hn (s.asked a) (List.mem_map_of_mem hs))
  spare q hq hn := by
    obtain ⟨s, hs, rfl⟩ := List.mem_map.mp hq
    exact absurd rfl (hn (s.member a) (List.mem_map_of_mem hs))

theorem nodup_asked : ((l.slots.map (Slot.asked a)).map Asked.key).Nodup := by
  rw [List.map_map]
  exact l.keys

/-- A record is read from every edit of its document. -/
theorem reads (hm : outer.deeper = .ok manner) (a : α) :
    Reads r.decode outer (.object held ((l.slots.map (Slot.asked a)).map Asked.entry))
      (.object (l.slots.map (Slot.member a))) a := by
  intro w hw
  have hother : ∀ v : Value, v.IsScalar → (held = true → Json.Holds v) →
      Decode.ignored manner (Json.parsed v) = .ok () := fun v hv _ =>
    Json.ignored_of_isScalar hv
  obtain ⟨members, rfl, hs⟩ := (l.spells_members _).edit l.nodup_asked hother hw
  exact l.decode_spelled hm hs

end Record

end Layout

end Rollout.Document
