import Mathlib.Data.List.Induction
import Rollout.Text.Decimal

/-!
# Digits and what they stand for

What is written as digits reads as the number that was written, and a number is read from what
spells it and from nothing else.

* `takeWhile_append_of_stops` and `dropWhile_append_of_stops` cut a run off the text behind it.
* `Decimal.foldl_toDigits` reads the digits of a number in any base. They begin with a zero for zero
  only (`Decimal.head_toDigits`).
* Digits without a zero in front are those of their number (`Decimal.toDigits_value`).
* `Decimal.read?_eq_some_iff` and `Decimal.readUnsigned?_eq_some_iff`: what is read is what is
  spelled.
-/

namespace Rollout.Text

/-! ## Runs -/

section Run

variable {α : Type} {p : α → Bool} {run rest : List α}

/-- Whether a list does not begin with a member of a kind. -/
def Stops (p : α → Bool) (rest : List α) : Prop := ∀ a ∈ rest.head?, p a = false

theorem stops_nil (p : α → Bool) : Stops p [] := fun _ h => absurd h (Option.not_mem_none _)

theorem takeWhile_append_of_stops (hrun : ∀ a ∈ run, p a = true) (hrest : Stops p rest) :
    (run ++ rest).takeWhile p = run := by
  rw [List.takeWhile_append_of_pos hrun]
  cases rest with
  | nil => rw [List.takeWhile_nil, List.append_nil]
  | cons a rest => rw [List.takeWhile_cons_of_neg (by simp [hrest a rfl]), List.append_nil]

theorem dropWhile_append_of_stops (hrun : ∀ a ∈ run, p a = true) (hrest : Stops p rest) :
    (run ++ rest).dropWhile p = rest := by
  rw [List.dropWhile_append_of_pos hrun]
  cases rest with
  | nil => rfl
  | cons a rest => rw [List.dropWhile_cons_of_neg (by simp [hrest a rfl])]

/-- What is left of a list behind a run does not go on with it. -/
theorem stops_dropWhile (p : α → Bool) (cs : List α) : Stops p (cs.dropWhile p) := by
  intro a ha
  have h := List.head?_dropWhile_not p cs
  rw [show (cs.dropWhile p).head? = some a from ha] at h
  simpa using h

end Run

namespace Decimal

/-! ## Digits -/

variable {n : Nat} {cs : List Char}

theorem isDigit_toDigits {c : Char} (h : c ∈ Nat.toDigits 10 n) : c.isDigit = true :=
  Nat.isDigit_of_mem_toDigits (by decide) (by decide) h

/-- Digits are written for what is less than the base. -/
theorem exists_of_mem_toDigits {b : Nat} {c : Char} (hb : 1 < b) (h : c ∈ Nat.toDigits b n) :
    ∃ d < b, c = Nat.digitChar d := by
  induction n using Nat.strongRecOn with
  | ind n ih =>
    rw [Nat.toDigits_eq_if hb] at h
    split at h
    · exact ⟨n, ‹_›, List.mem_singleton.mp h⟩
    · rcases List.mem_append.mp h with h | h
      · exact ih (n / b) (Nat.div_lt_self (by omega) hb) h
      · exact ⟨n % b, Nat.mod_lt n (by omega), List.mem_singleton.mp h⟩

/-- Only zero begins with a zero. -/
theorem head_toDigits {b : Nat} (hb : 1 < b) (h : (Nat.toDigits b n).head? = some '0') :
    n = 0 := by
  induction n using Nat.strongRecOn with
  | ind n ih =>
    rw [Nat.toDigits_eq_if hb] at h
    split at h
    · exact Nat.digitChar_eq_zero.mp (Option.some.inj h)
    · rename_i hle
      have hpos : 0 < n := by omega
      have hfront : (Nat.toDigits b (n / b)).head? = some '0' := by
        obtain ⟨c, cs, hcs⟩ :=
          List.exists_cons_of_ne_nil (Nat.toDigits_ne_nil (b := b) (n := n / b))
        rw [hcs] at h ⊢
        exact h
      have hzero := ih (n / b) (Nat.div_lt_self hpos hb) hfront
      exact absurd ((Nat.div_eq_zero_iff_lt (by omega)).mp hzero) hle

/-- The digits of a number are read back, whatever the base and however its digits are. -/
theorem foldl_toDigits {b : Nat} (hb : 1 < b) {digit : Char → Nat}
    (hd : ∀ d < b, digit (Nat.digitChar d) = d) (n : Nat) :
    (Nat.toDigits b n).foldl (fun n c => n * b + digit c) 0 = n := by
  induction n using Nat.strongRecOn with
  | ind n ih =>
    rw [Nat.toDigits_eq_if hb]
    split
    · rename_i hlt
      simp [hd n hlt]
    · rename_i hle
      have hlt : n / b < n := Nat.div_lt_self (by omega) hb
      rw [List.foldl_append, ih _ hlt, List.foldl_cons, List.foldl_nil,
        hd _ (Nat.mod_lt n (by omega)), Nat.mul_comm]
      exact Nat.div_add_mod n b

@[simp]
theorem value_toDigits (n : Nat) : value (Nat.toDigits 10 n) 0 = n :=
  foldl_toDigits (by decide) (by decide) n

/-! ## Spellings -/

theorem digit_lt {c : Char} (h : c.isDigit = true) : digit c < 10 := by
  simp only [Char.isDigit, Bool.and_eq_true, decide_eq_true_eq] at h
  have hle : c.toNat ≤ 57 := h.2
  rw [digit]
  omega

theorem digitChar_digit {c : Char} (h : c.isDigit = true) : Nat.digitChar (digit c) = c := by
  simp only [Char.isDigit, Bool.and_eq_true, decide_eq_true_eq] at h
  have hge : 48 ≤ c.toNat := h.1
  have hle : c.toNat ≤ 57 := h.2
  have hall : ∀ n < 10, Nat.digitChar n = Char.ofNat (n + 48) := by decide
  rw [digit, hall _ (by omega), Nat.sub_add_cancel hge, Char.ofNat_toNat]

theorem value_concat (cs : List Char) (c : Char) :
    value (cs ++ [c]) 0 = value cs 0 * 10 + digit c := by
  rw [value, List.foldl_append]
  rfl

/-- Digits without a zero in front are those that are written for their number. -/
theorem toDigits_value (h : ∀ c ∈ cs, c.isDigit = true) (hne : cs ≠ [])
    (hzero : cs.head? = some '0' → cs.length = 1) : Nat.toDigits 10 (value cs 0) = cs := by
  induction cs using List.reverseRecOn with
  | nil => exact absurd rfl hne
  | append_singleton cs c ih =>
    have hc : c.isDigit = true := h c (by simp)
    have hlt := digit_lt hc
    rw [value_concat]
    by_cases hcs : cs = []
    · subst hcs
      rw [Nat.toDigits_eq_if (by decide), if_pos (by simpa [value] using hlt)]
      simp [value, digitChar_digit hc]
    · -- The digits before the last one do not begin with a zero, so their value is positive.
      have hhead : cs.head? ≠ some '0' := fun h0 => by
        have := hzero (by rw [List.head?_append, h0]; rfl)
        rw [List.length_append, List.length_singleton] at this
        exact hcs (List.length_eq_zero_iff.mp (by omega))
      have hfront := ih (fun c hc => h c (List.mem_append_left _ hc)) hcs (absurd · hhead)
      have hpos : value cs 0 ≠ 0 := fun h0 => by
        rw [h0] at hfront
        rw [← hfront] at hhead
        exact hhead rfl
      rw [Nat.toDigits_eq_if (by decide), if_neg (by omega),
        show (value cs 0 * 10 + digit c) / 10 = value cs 0 by omega,
        show (value cs 0 * 10 + digit c) % 10 = digit c by omega, hfront, digitChar_digit hc]

theorem spells_toDigits (n : Nat) : Spells (Nat.toDigits 10 n) n :=
  ⟨Nat.toDigits_ne_nil, fun _ hc => isDigit_toDigits hc, value_toDigits n⟩

theorem read?_eq_some_iff : read? cs = some n ↔ Spells cs n := by
  unfold read?
  constructor
  · intro h
    split at h
    · cases h
    · rename_i hcs
      simp only [Bool.or_eq_true, Bool.not_eq_true', not_or, Bool.not_eq_false,
        List.isEmpty_iff] at hcs
      exact ⟨hcs.1, List.all_eq_true.mp hcs.2, Option.some.inj h⟩
  · rintro ⟨hne, hdigits, rfl⟩
    rw [if_neg]
    simp only [Bool.or_eq_true, Bool.not_eq_true', not_or, Bool.not_eq_false, List.isEmpty_iff]
    exact ⟨hne, List.all_eq_true.mpr hdigits⟩

/-- A sign is no digit. -/
theorem Spells.head_ne {m : Nat} {rest : List Char} : ¬ Spells ('+' :: rest) m :=
  fun h => absurd (h.digits '+' List.mem_cons_self) (by decide)

theorem readUnsigned?_eq_some_iff {bound : Nat} :
    readUnsigned? bound cs = some n ↔ SpellsUnsigned cs n ∧ n < bound := by
  unfold readUnsigned?
  rw [Option.filter_eq_some_iff, read?_eq_some_iff, decide_eq_true_eq]
  refine and_congr_left fun _ => ?_
  split
  · constructor
    · intro h
      exact ⟨_, h, .inr rfl⟩
    · rintro ⟨digits, h, rfl | hcs⟩
      · exact absurd h Spells.head_ne
      · cases hcs
        exact h
  · rename_i hplus
    constructor
    · intro h
      exact ⟨_, h, .inl rfl⟩
    · rintro ⟨digits, h, rfl | rfl⟩
      · exact h
      · exact absurd rfl (hplus digits)

end Decimal

end Rollout.Text
