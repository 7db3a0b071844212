import Rollout.Document.Decode
import Rollout.Document.Value

/-!
# Values are decoded to what they were made of

A decoder `Restores` what its values are made of when it gives each of them back from a text with
enough levels left. The decoders of numbers, texts, names and lists do so, and a record does when
its fields do: `Record.members_of` reads one member, and a record is read member by member.
-/

namespace Rollout.Document

variable {α β σ : Type}

/-- What comes of two steps comes of the second, and so the first succeeded. -/
theorem exists_of_bind {ε : Type} {x : Except ε α} {f : α → Except ε β} {b : β}
    (h : x >>= f = .ok b) : ∃ a, x = .ok a ∧ f a = .ok b := by
  cases x with
  | error e => cases h
  | ok a => exact ⟨a, rfl, h⟩

/-- A decoder gives back what a value was made of, when the value is in a text with more levels
left than `depth`. -/
def Restores (d : Decoder α) (depth : Nat) (value : α → Value) : Prop :=
  ∀ (a : α) (levels : Nat), depth < levels → d (.streamed levels) (value a).node = .ok a

theorem deeper_streamed {levels : Nat} (h : 1 < levels) :
    (Manner.streamed levels).deeper = .ok (.streamed (levels - 1)) := by
  match levels, h with
  | _ + 2, _ => rfl

namespace Restores

theorem text : Restores Decode.text 0 .string := fun _ _ _ => rfl

theorem unsigned {bound n : Nat} (h : n < bound) (expected : String) (manner : Manner) :
    Decode.unsigned bound expected manner (Value.nat n).node = .ok n := by
  have hin : 0 ≤ (n : Int) ∧ (n : Int) < bound := ⟨Int.natCast_nonneg n, Int.ofNat_lt.mpr h⟩
  exact if_pos hin

theorem word16 : Restores Decode.word16 0 fun n => .nat n.toNat := by
  intro n levels _
  rw [Decode.word16, unsigned n.toNat_lt]
  exact congrArg Except.ok n.ofNat_toNat

theorem seconds : Restores Decode.seconds 0 fun n => .nat n.toNat := by
  intro n levels _
  rw [Decode.seconds, unsigned n.toNat_lt]
  exact congrArg Except.ok n.ofNat_toNat

theorem choice {known : List (String × α)} {name : α → String}
    (h : ∀ a, known.lookup (name a) = some a) :
    Restores (Decode.choice known) 0 fun a => .string (name a) := by
  intro a levels _
  show Decode.variant known (name a) = .ok a
  rw [Decode.variant, h a]

theorem itemsFrom {d : Decoder α} {value : α → Value} {manner : Manner}
    (h : ∀ a, d manner (value a).node = .ok a) (as : List α) (index : Nat) :
    Decode.itemsFrom d manner index (Value.nodes (as.map value)) = .ok as := by
  induction as generalizing index with
  | nil => rfl
  | cons a as ih =>
    rw [List.map_cons, Value.nodes, Decode.itemsFrom, h a, ih]
    rfl

theorem list {d : Decoder α} {depth : Nat} {value : α → Value} (h : Restores d depth value) :
    Restores (Decode.list d) (depth + 1) fun as => .array (as.map value) := by
  intro as levels hlevels
  show (do Decode.itemsFrom d (← (Manner.streamed levels).deeper) 0 _) = .ok as
  rw [deeper_streamed (by omega)]
  exact itemsFrom (fun a => h a _ (by omega)) as 0

end Restores

/-! ## Records -/

namespace Record

variable {r : Record σ α} {manner : Manner} {members : List (String × Value)}

/-- A record is read from the members of an object, one level deeper. -/
theorem decode_object {levels : Nat} (h : 1 < levels) :
    r.decode (.streamed levels) (Value.object members).node =
      r.members (.streamed (levels - 1)) (Value.memberNodes members) r.empty := by
  show (do r.members (← (Manner.streamed levels).deeper) (Value.memberNodes members) r.empty) = _
  rw [deeper_streamed h]
  rfl

/-- A member whose field was not read before is read by the decoder of the field. -/
theorem members_of {name : String} {required : Bool} {d : Decoder β} {get : σ → Option β}
    {set : σ → β → σ} {v : Value} {b : β} {s : σ}
    (hf : r.field? name = some (.of name required d get set)) (hs : get s = none)
    (hd : d manner v.node = .ok b) :
    r.members manner (Value.memberNodes ((name, v) :: members)) s =
      r.members manner (Value.memberNodes members) (set s b) := by
  rw [Value.memberNodes, Record.members, claim, hf]
  simp [Field.of, hs, hd, within, Except.map, bind, Except.bind]

/-! What is read of a record is made of its fields, in whatever way the record is written. -/

variable {s : σ} {a : α}

theorem finish_of_finished (h : r.finished s = .ok a) : r.finish s = .ok a := by
  unfold finished at h
  split at h
  · rename_i a' hs
    cases h
    exact hs
  · cases h

theorem exists_of_members {ms : Members} (h : r.members manner ms s = .ok a) :
    ∃ s', r.finish s' = .ok a := by
  fun_induction Record.members r manner ms s with
  | case1 s => exact ⟨s, finish_of_finished h⟩
  | case2 | case3 | case4 | case6 => cases h
  | case5 key fault s =>
    obtain ⟨_, -, h⟩ := exists_of_bind h
    cases h
  | case7 key value rest s ih₁ ih₂ =>
    obtain ⟨f, -, h⟩ := exists_of_bind h
    cases f with
    | some f =>
      obtain ⟨s', -, h⟩ := exists_of_bind h
      exact ih₁ s' h
    | none =>
      obtain ⟨_, -, h⟩ := exists_of_bind h
      exact ih₂ h

theorem exists_of_items {fields : List (Field σ)} {index : Nat} {rest : Items}
    (h : r.items manner fields index rest s = .ok a) : ∃ s', r.finish s' = .ok a := by
  fun_induction Record.items r manner fields index rest s with
  | case1 index rest s =>
    obtain ⟨a', ha, h⟩ := exists_of_bind h
    obtain ⟨_, -, h⟩ := exists_of_bind h
    cases h
    exact ⟨s, finish_of_finished ha⟩
  | case2 f fields index node rest s ih =>
    obtain ⟨s', -, h⟩ := exists_of_bind h
    exact ih s' h
  | case3 | case4 => cases h
  | case5 f fields index s hf ih => exact ih h

theorem exists_of_decode {node : Node} (h : r.decode manner node = .ok a) :
    ∃ s, r.finish s = .ok a := by
  unfold decode at h
  split at h
  · obtain ⟨_, -, h⟩ := exists_of_bind h
    exact exists_of_members h
  · obtain ⟨_, -, h⟩ := exists_of_bind h
    exact exists_of_items h
  · cases h

end Record

end Rollout.Document
