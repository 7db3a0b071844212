import Mathlib.Data.List.Forall2
import Mathlib.Data.List.Nodup
import Rollout.Document.Decode
import Rollout.Document.Edit
import Rollout.Proofs.Document.Json.Values

/-!
# What edits keep

A decoder `Reads` a value from a document when it reads it from every edit of the document. This is
kept by edits by its own terms, so that one part of a document is dealt with after the other.

* `Edit.object_induction`: what holds of the members of an object and is kept by each kind of edit
  holds of the members after all of them.
* `Spells`: the members of an object answer what is asked for under its keys, each key at most once
  and in any order. Edits keep this (`Spells.edit`).
-/

namespace Rollout.Document

namespace Edit

variable {admitted : Value → Prop} {shape : Shape} {held : Bool} {keys : Keys} {v w : Value}

/-- A value without parts is not edited. -/
theorem eq_of_plain (h : Edit admitted .plain v w) : w = v := by
  generalize hs : Shape.plain = s at h
  induction h with
  | refl => rfl
  | trans _ _ ih ih' => exact (ih' hs).trans (ih hs)
  | _ => cases hs

/-- What holds of the items of a list and is kept when one of them is edited. -/
theorem list_induction {P : List Value → Prop}
    (item : ∀ {v w front back}, Edit admitted shape v w → P (front ++ v :: back) →
      P (front ++ w :: back))
    {items : List Value} (h : Edit admitted (.list shape) (.array items) w) (hi : P items) :
    ∃ others, w = .array others ∧ P others := by
  generalize hs : Shape.list shape = s at h
  generalize hv : Value.array items = v at h
  induction h generalizing items with
  | refl => exact ⟨items, hv.symm, hi⟩
  | trans _ _ ih ih' =>
    obtain ⟨others, rfl, ho⟩ := ih hi hs hv
    exact ih' ho hs rfl
  | item front back h =>
    cases hs
    cases hv
    exact ⟨_, rfl, item h hi⟩
  | _ => cases hs

/-- What holds of the members of an object and is kept by each kind of edit. -/
theorem object_induction {P : List (String × Value) → Prop}
    (permute : ∀ {members others}, members.Perm others → P members → P others)
    (insert : ∀ {key v members}, (∀ k ∈ keys, k.1 ≠ key) → v.IsScalar →
      (held = true → admitted v) → P members → P ((key, v) :: members))
    (delete : ∀ {key shape v members}, (key, shape, some v) ∈ keys → P ((key, v) :: members) →
      P members)
    (inside : ∀ {key shape standard v w members}, (key, shape, standard) ∈ keys →
      Edit admitted shape v w → P ((key, v) :: members) → P ((key, w) :: members))
    {members : List (String × Value)}
    (h : Edit admitted (.object held keys) (.object members) w) (hm : P members) :
    ∃ others, w = .object others ∧ P others := by
  generalize hs : Shape.object held keys = s at h
  generalize hv : Value.object members = v at h
  induction h generalizing members with
  | refl => exact ⟨members, hv.symm, hm⟩
  | trans _ _ ih ih' =>
    obtain ⟨others, rfl, ho⟩ := ih hm hs hv
    exact ih' ho hs rfl
  | permute h =>
    cases hs
    cases hv
    exact ⟨_, rfl, permute h hm⟩
  | insert unknown scalar h members =>
    cases hs
    cases hv
    exact ⟨_, rfl, insert unknown scalar h hm⟩
  | delete h members =>
    cases hs
    cases hv
    exact ⟨_, rfl, delete h hm⟩
  | inside h h' members =>
    cases hs
    cases hv
    exact ⟨_, rfl, inside h h' hm⟩
  | item => cases hs

/-- What holds of each member of an object without parts and of all that is inserted. -/
theorem object_flat {P : Value → Prop} (hflat : ∀ k ∈ keys, k.2.1 = .plain)
    (insert : ∀ v : Value, v.IsScalar → (held = true → admitted v) → P v)
    {members : List (String × Value)} (h : Edit admitted (.object held keys) (.object members) w)
    (hm : ∀ m ∈ members, P m.2) : ∃ others, w = .object others ∧ ∀ m ∈ others, P m.2 := by
  refine h.object_induction (P := fun members => ∀ m ∈ members, P m.2) ?_ ?_ ?_ ?_ hm
  · exact fun hperm hm m hmem => hm m (hperm.mem_iff.mpr hmem)
  · exact fun _ scalar h hm => List.forall_mem_cons.mpr ⟨insert _ scalar h, hm⟩
  · exact fun _ hm => (List.forall_mem_cons.mp hm).2
  · intro key shape standard v w members hkey he hm
    obtain rfl : shape = .plain := hflat _ hkey
    rwa [he.eq_of_plain]

/-- Edits put no doubles into a document. -/
theorem whole (h : Edit admitted shape v w) (hv : v.Whole) : w.Whole := by
  induction h with
  | refl => exact hv
  | trans _ _ ih ih' => exact ih' (ih hv)
  | item front back _ ih =>
    have hitems := Value.itemsWhole_iff.mp hv
    refine Value.itemsWhole_iff.mpr fun u hu => ?_
    rcases List.mem_append.mp hu with hu | hu
    · exact hitems u (List.mem_append_left _ hu)
    · rcases List.mem_cons.mp hu with rfl | hu
      · exact ih (hitems _ (List.mem_append_right _ List.mem_cons_self))
      · exact hitems u (List.mem_append_right _ (List.mem_cons_of_mem _ hu))
  | permute h =>
    have hmembers := Value.membersWhole_iff.mp hv
    exact Value.membersWhole_iff.mpr fun m hm => hmembers m (h.mem_iff.mpr hm)
  | @insert _ _ _ v _ scalar _ _ =>
    have hwhole : v.Whole := by cases v <;> first | exact scalar | trivial
    exact ⟨hwhole, hv⟩
  | delete _ _ => exact hv.2
  | inside _ _ _ ih => exact ⟨ih hv.1, hv.2⟩

/-- Members that say what stands for them may be left out. -/
theorem leaveOut {members : List (String × Value)} {kept : String × Value → Bool}
    (h : ∀ m ∈ members, kept m = false → ∃ shape, (m.1, shape, some m.2) ∈ keys)
    (front : List (String × Value)) :
    Edit admitted (.object held keys) (.object (front ++ members))
      (.object (front ++ members.filter kept)) := by
  induction members generalizing front with
  | nil => exact .refl _
  | cons m members ih =>
    have hrest := ih fun m hm => h m (List.mem_cons_of_mem _ hm)
    cases hm : kept m with
    | true =>
      rw [List.filter_cons_of_pos hm]
      simpa using hrest (front ++ [m])
    | false =>
      obtain ⟨shape, hkey⟩ := h m List.mem_cons_self hm
      rw [List.filter_cons_of_neg (by simp [hm])]
      exact ((permute List.perm_middle).trans (delete hkey _)).trans (hrest front)

/-- A member may be edited wherever it stands. -/
theorem replace {members : List (String × Value)} {key : String} {standard : Option Value}
    (hkey : (key, shape, standard) ∈ keys) (he : Edit admitted shape v w)
    (h : ∀ m ∈ members, m.1 = key → m.2 = v) (front : List (String × Value)) :
    Edit admitted (.object held keys) (.object (front ++ members))
      (.object (front ++ members.map fun m => if m.1 = key then (m.1, w) else m)) := by
  induction members generalizing front with
  | nil => exact .refl _
  | cons m members ih =>
    have hrest := ih fun m hm => h m (List.mem_cons_of_mem _ hm)
    obtain ⟨k, u⟩ := m
    rw [List.map_cons]
    split
    · rename_i heq
      obtain rfl : k = key := heq
      obtain rfl : u = v := h _ List.mem_cons_self rfl
      have hin : Edit admitted (.object held keys) (.object (front ++ (k, u) :: members))
          (.object (front ++ (k, w) :: members)) :=
        ((permute List.perm_middle).trans (inside hkey he _)).trans (permute List.perm_middle.symm)
      exact hin.trans (by simpa using hrest (front ++ [(k, w)]))
    · simpa using hrest (front ++ [(k, u)])

end Edit

/-! ## Reading every edit -/

/-- Whether a decoder reads `a` from every edit of a document. -/
def Reads {α : Type} (d : Decoder α) (manner : Manner) (shape : Shape) (v : Value) (a : α) : Prop :=
  ∀ w, Edit Json.Holds shape v w → d manner (Json.parsed w) = .ok a

namespace Reads

variable {α : Type} {d : Decoder α} {manner : Manner} {shape : Shape} {v w : Value} {a : α}

theorem here (h : Reads d manner shape v a) : d manner (Json.parsed v) = .ok a := h v (.refl v)

theorem edit (h : Reads d manner shape v a) (he : Edit Json.Holds shape v w) :
    Reads d manner shape w a :=
  fun u hu => h u (he.trans hu)

theorem plain (h : d manner (Json.parsed v) = .ok a) : Reads d manner .plain v a := by
  intro w hw
  rw [hw.eq_of_plain, h]

theorem itemsFrom {items : List Value} {as : List α}
    (h : List.Forall₂ (Reads d manner shape) items as) (index : Nat) :
    Decode.itemsFrom d manner index (Json.parsedItems items) = .ok as := by
  induction h generalizing index with
  | nil => rfl
  | cons hv _ ih =>
    rw [Json.parsedItems, Decode.itemsFrom, hv.here, ih]
    rfl

/-- An item may be edited where it stands. -/
theorem item {front back : List Value} {as : List α} (he : Edit Json.Holds shape v w)
    (h : List.Forall₂ (Reads d manner shape) (front ++ v :: back) as) :
    List.Forall₂ (Reads d manner shape) (front ++ w :: back) as := by
  induction front generalizing as with
  | nil =>
    cases h with
    | cons hv hback => exact .cons (hv.edit he) hback
  | cons u front ih =>
    cases h with
    | cons hu hrest => exact .cons hu (ih hrest)

theorem list {deeper : Manner} {items : List Value} {as : List α}
    (hm : manner.deeper = .ok deeper) (h : List.Forall₂ (Reads d deeper shape) items as) :
    Reads (Decode.list d) manner (.list shape) (.array items) as := by
  intro w hw
  obtain ⟨others, rfl, ho⟩ :=
    hw.list_induction (P := (List.Forall₂ (Reads d deeper shape) · as)) (fun he => item he) h
  show (do Decode.itemsFrom d (← manner.deeper) 0 (Json.parsedItems others)) = .ok as
  rw [hm]
  exact itemsFrom ho 0

end Reads

/-! ## Objects that answer what is asked for -/

/-- What an object is asked for under a key. -/
structure Asked where
  key : String
  shape : Shape
  /-- What stands for a member that is left out. -/
  standard : Option Value
  /-- Whether a value answers the question. -/
  Answers : Value → Prop
  /-- Whether the member may be left out. -/
  Spare : Prop
  answers_edit : ∀ {v w}, Answers v → Edit Json.Holds shape v w → Answers w
  spare_of : ∀ {v}, standard = some v → Answers v → Spare

namespace Asked

/-- The key of a question, with its shape and its standard. -/
def entry (q : Asked) : String × Shape × Option Value := (q.key, q.shape, q.standard)

theorem eq_of_key {asked : List Asked} (hkeys : (asked.map key).Nodup) {p q : Asked}
    (hp : p ∈ asked) (hq : q ∈ asked) (h : p.key = q.key) : p = q :=
  List.inj_on_of_nodup_map hkeys hp hq h

end Asked

/-- Whether the members of an object answer questions, each of them at most one, and hold `other`
values besides. -/
structure Answered (asked : List Asked) (other : Value → Prop) (members : List (String × Value)) :
    Prop where
  once : members.Pairwise fun m n => m.1 = n.1 → ∀ q ∈ asked, q.key ≠ m.1
  answers : ∀ q ∈ asked, ∀ m ∈ members, m.1 = q.key → q.Answers m.2
  other : ∀ m ∈ members, (∀ q ∈ asked, q.key ≠ m.1) → other m.2

/-- Whether the members of an object answer all questions. -/
structure Spells (asked : List Asked) (other : Value → Prop) (members : List (String × Value)) :
    Prop extends Answered asked other members where
  spare : ∀ q ∈ asked, (∀ m ∈ members, m.1 ≠ q.key) → q.Spare

variable {asked : List Asked} {other : Value → Prop} {members : List (String × Value)}

theorem Answered.tail {m : String × Value} (h : Answered asked other (m :: members)) :
    Answered asked other members where
  once := h.once.tail
  answers q hq m hm := h.answers q hq m (List.mem_cons_of_mem _ hm)
  other m hm := h.other m (List.mem_cons_of_mem _ hm)

namespace Spells

/-- An object that is asked for nothing may be empty. -/
theorem nil (other : Value → Prop) : Spells [] other [] where
  once := .nil
  answers _ hq := absurd hq List.not_mem_nil
  other _ hm := absurd hm List.not_mem_nil
  spare _ hq := absurd hq List.not_mem_nil

theorem permute {others : List (String × Value)} (hs : Spells asked other members)
    (h : members.Perm others) : Spells asked other others where
  once := h.pairwise hs.once fun hmn heq q hq => heq ▸ hmn heq.symm q hq
  answers q hq m hm := hs.answers q hq m (h.mem_iff.mpr hm)
  spare q hq hn := hs.spare q hq fun m hm => hn m (h.mem_iff.mp hm)
  other m hm := hs.other m (h.mem_iff.mpr hm)

theorem insert {key : String} {v : Value} (hs : Spells asked other members)
    (unknown : ∀ q ∈ asked, q.key ≠ key) (h : other v) :
    Spells asked other ((key, v) :: members) where
  once := .cons (fun _ _ _ => unknown) hs.once
  answers q hq m hm hkey := by
    rcases List.mem_cons.mp hm with rfl | hm
    · exact absurd hkey.symm (unknown q hq)
    · exact hs.answers q hq m hm hkey
  spare q hq hn := hs.spare q hq fun m hm => hn m (List.mem_cons_of_mem _ hm)
  other m hm hq := by
    rcases List.mem_cons.mp hm with rfl | hm
    · exact h
    · exact hs.other m hm hq

/-- A member may be left out when what it answers stands for it anyway. -/
theorem delete {q : Asked} {v : Value} (hs : Spells asked other ((q.key, v) :: members))
    (hkeys : (asked.map Asked.key).Nodup) (hq : q ∈ asked) (hv : q.standard = some v) :
    Spells asked other members where
  toAnswered := hs.tail
  spare p hp hn := by
    by_cases hpq : p.key = q.key
    · cases Asked.eq_of_key hkeys hp hq hpq
      exact q.spare_of hv (hs.answers q hq _ List.mem_cons_self rfl)
    · refine hs.spare p hp fun m hm => ?_
      rcases List.mem_cons.mp hm with rfl | hm
      · exact Ne.symm hpq
      · exact hn m hm

/-- What a member answers may be edited. -/
theorem inside {q : Asked} {v w : Value} (hs : Spells asked other ((q.key, v) :: members))
    (hkeys : (asked.map Asked.key).Nodup) (hq : q ∈ asked) (he : Edit Json.Holds q.shape v w) :
    Spells asked other ((q.key, w) :: members) where
  once := .cons (fun _ hm => List.rel_of_pairwise_cons hs.once hm) hs.once.tail
  answers p hp m hm hkey := by
    rcases List.mem_cons.mp hm with rfl | hm
    · cases Asked.eq_of_key hkeys hp hq hkey.symm
      exact q.answers_edit (hs.answers q hq _ List.mem_cons_self rfl) he
    · exact hs.answers p hp m (List.mem_cons_of_mem _ hm) hkey
  spare p hp hn := hs.spare p hp fun m hm => by
    rcases List.mem_cons.mp hm with rfl | hm
    · exact hn (q.key, w) List.mem_cons_self
    · exact hn m (List.mem_cons_of_mem _ hm)
  other m hm hn := by
    rcases List.mem_cons.mp hm with rfl | hm
    · exact absurd rfl (hn q hq)
    · exact hs.other m (List.mem_cons_of_mem _ hm) hn

/-- One more question is answered by one more member. -/
theorem cons {q : Asked} {v : Value} (hs : Spells asked other members) (hv : q.Answers v)
    (hq : ∀ p ∈ asked, p.key ≠ q.key) (hm : ∀ m ∈ members, m.1 ≠ q.key) :
    Spells (q :: asked) other ((q.key, v) :: members) where
  once := by
    refine .cons (fun m hmem heq => absurd heq.symm (hm m hmem)) (hs.once.imp_of_mem ?_)
    intro m n hmem _ h heq
    exact List.forall_mem_cons.mpr ⟨(hm m hmem).symm, h heq⟩
  answers p hp m hmem hkey := by
    rcases List.mem_cons.mp hp with rfl | hp <;> rcases List.mem_cons.mp hmem with rfl | hmem
    · exact hv
    · exact absurd hkey (hm m hmem)
    · exact absurd hkey.symm (hq p hp)
    · exact hs.answers p hp m hmem hkey
  spare p hp hn := by
    rcases List.mem_cons.mp hp with rfl | hp
    · exact absurd rfl (hn (p.key, v) List.mem_cons_self)
    · exact hs.spare p hp fun m hmem => hn m (List.mem_cons_of_mem _ hmem)
  other m hmem hn := by
    rcases List.mem_cons.mp hmem with rfl | hmem
    · exact absurd rfl (hn q List.mem_cons_self)
    · exact hs.other m hmem fun p hp => hn p (List.mem_cons_of_mem _ hp)

/-- What is besides a member answers the other questions. -/
theorem besides {q : Asked} {v : Value} {asked : List Asked}
    (hs : Spells (q :: asked) other ((q.key, v) :: members))
    (hq : ∀ p ∈ asked, p.key ≠ q.key) : Spells asked other members where
  once := hs.once.tail.imp fun h heq p hp => h heq p (List.mem_cons_of_mem _ hp)
  answers p hp m hm := hs.answers p (List.mem_cons_of_mem _ hp) m (List.mem_cons_of_mem _ hm)
  spare p hp hn := by
    refine hs.spare p (List.mem_cons_of_mem _ hp) fun m hm => ?_
    rcases List.mem_cons.mp hm with rfl | hm
    · exact (hq p hp).symm
    · exact hn m hm
  other m hm hn := by
    refine hs.other m (List.mem_cons_of_mem _ hm) fun p hp => ?_
    rcases List.mem_cons.mp hp with rfl | hp
    · exact fun heq => List.rel_of_pairwise_cons hs.once hm heq _ List.mem_cons_self rfl
    · exact hn p hp

/-- An edited object still answers all questions. -/
theorem edit {held : Bool} {w : Value} (hs : Spells asked other members)
    (hkeys : (asked.map Asked.key).Nodup)
    (hother : ∀ v : Value, v.IsScalar → (held = true → Json.Holds v) → other v)
    (he : Edit Json.Holds (.object held (asked.map Asked.entry)) (.object members) w) :
    ∃ others, w = .object others ∧ Spells asked other others := by
  refine he.object_induction (fun hp h => h.permute hp) ?_ ?_ ?_ hs
  · intro key v members unknown scalar h hs
    exact hs.insert (fun q hq => unknown q.entry (List.mem_map_of_mem hq)) (hother v scalar h)
  · intro key shape v members hmem hs
    obtain ⟨q, hq, hentry⟩ := List.mem_map.mp hmem
    obtain ⟨rfl, -, hv⟩ : q.key = key ∧ q.shape = shape ∧ q.standard = some v := by
      simpa [Asked.entry] using hentry
    exact hs.delete hkeys hq hv
  · intro key shape standard v w members hmem he hs
    obtain ⟨q, hq, hentry⟩ := List.mem_map.mp hmem
    cases hentry
    exact hs.inside hkeys hq he

end Spells

end Rollout.Document
