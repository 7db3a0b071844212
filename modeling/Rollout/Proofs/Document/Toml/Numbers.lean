import Rollout.Document.Toml.Scalars
import Rollout.Proofs.Document.Toml.Strings

/-!
# Numbers of settings are read as they are spelled

The digits of a number are no date and no time (`takeMoment?_digits`), have no fraction
(`takeFloat?_digits`), and are the integer (`takeInteger?_digits`): what follows a value is none of
the marks that would make them something else (`Closes`).
-/

namespace Rollout.Document.Toml

open Rollout.Text (Stops)

/-- What may follow a value: a blank, the end of its line, or what closes the value around it. -/
def closers : List Char := [' ', '\t', '\n', '\r', ',', ']', '\x7d']

/-- Whether characters may follow a value. -/
def Closes (rest : List Char) : Prop := ∀ c ∈ rest.head?, c ∈ closers

variable {digits rest : List Char} {n : Nat}

theorem Closes.stops (h : Closes rest) {p : Char → Bool} (hp : (closers.all (!p ·)) = true) :
    Stops p rest := fun c hc => by
  simpa using List.all_eq_true.mp hp c (h c hc)

theorem Closes.isDigit (h : Closes rest) : Stops Char.isDigit rest := h.stops (by decide)

/-! ## Dates and times -/

/-- A number of so many digits is read where there are so many. -/
theorem takeFixed?_digits (hrest : Closes rest) (count : Nat) :
    takeFixed? count (digits ++ rest) = none ∨
    ∃ value, takeFixed? count (digits ++ rest) = some (value, digits.drop count ++ rest) := by
  by_cases hcount : count ≤ digits.length
  · by_cases hread : ((digits ++ rest).take count).length = count ∧
        ((digits ++ rest).take count).all Char.isDigit = true
    · exact .inr ⟨_, by rw [takeFixed?, if_pos hread, List.drop_append_of_le_length hcount]⟩
    · exact .inl (if_neg hread)
  · refine .inl (if_neg fun ⟨hlength, hall⟩ => ?_)
    obtain ⟨more, hmore⟩ : ∃ more, count = digits.length + (more + 1) :=
      ⟨count - digits.length - 1, by omega⟩
    rw [hmore, List.take_length_add_append] at hlength hall
    cases rest with
    | nil => simp at hlength
    | cons c rest =>
      have hc : c.isDigit = true := List.all_eq_true.mp hall c (by simp)
      rw [hrest.isDigit c rfl] at hc
      exact absurd hc (by decide)

section Fixed

variable (hdigits : ∀ c ∈ digits, c.isDigit = true) (hrest : Closes rest)
include hdigits hrest

/-- Behind digits there is neither a digit nor a mark of a date. -/
theorem takeMark?_digits {mark : Char} (hmark : mark.isDigit = false) (hcloser : mark ∉ closers) :
    takeMark? mark (digits ++ rest) = none := by
  cases digits with
  | nil =>
    cases rest with
    | nil => rfl
    | cons c rest =>
      refine if_neg fun heq => hcloser ?_
      rw [← heq]
      exact hrest c rfl
  | cons c digits =>
    refine if_neg fun heq => ?_
    rw [← heq, hdigits c List.mem_cons_self] at hmark
    exact absurd hmark (by decide)

/-- Digits are no date. -/
theorem takeDate?_digits : takeDate? (digits ++ rest) = none := by
  rcases takeFixed?_digits hrest 4 with hyear | ⟨year, hyear⟩
  · rw [takeDate?, hyear]
    rfl
  · have hafter : ∀ c ∈ digits.drop 4, c.isDigit = true := fun c hc =>
      hdigits c (List.mem_of_mem_drop hc)
    have hmark : takeMark? '-' (digits.drop 4 ++ rest) = none :=
      takeMark?_digits hafter hrest (by decide) (by decide)
    simp [takeDate?, hyear, hmark]

/-- Digits are no time of the day. -/
theorem takeTime?_digits : takeTime? (digits ++ rest) = none := by
  rcases takeFixed?_digits hrest 2 with hhour | ⟨hour, hhour⟩
  · rw [takeTime?, hhour]
    rfl
  · have hafter : ∀ c ∈ digits.drop 2, c.isDigit = true := fun c hc =>
      hdigits c (List.mem_of_mem_drop hc)
    have hmark : takeMark? ':' (digits.drop 2 ++ rest) = none :=
      takeMark?_digits hafter hrest (by decide) (by decide)
    simp [takeTime?, hhour, hmark]

theorem takeMoment?_digits : takeMoment? (digits ++ rest) = none := by
  rw [takeMoment?, takeDate?_digits hdigits hrest, takeTime?_digits hdigits hrest]
  rfl

end Fixed

/-! ## Numbers -/

theorem takeDigits_digits {isDigit : Char → Bool} (hdigits : ∀ c ∈ digits, isDigit c = true)
    (hmark : isDigit '_' = false) (hrest : Stops (fun c => isDigit c || c == '_') rest) :
    takeDigits isDigit (digits ++ rest) = (digits, rest) := by
  induction digits with
  | nil =>
    cases rest with
    | nil => rfl
    | cons c rest =>
      have hc := hrest c rfl
      simp only [Bool.or_eq_false_iff, beq_eq_false_iff_ne] at hc
      rw [List.nil_append, takeDigits.eq_2 _ _ _ (by rintro _ _ rfl; exact absurd rfl hc.2), hc.1]
      rfl
  | cons c digits ih =>
    obtain ⟨hc, hdigits⟩ := List.forall_mem_cons.mp hdigits
    rw [List.cons_append, takeDigits.eq_2, if_pos hc, ih hdigits]
    rintro _ _ rfl
    simp [hmark] at hc

/-- The digits of a number begin with one, and with a zero only for zero itself. -/
theorem exists_toDigits_cons (n : Nat) : ∃ c more, Nat.toDigits 10 n = c :: more ∧
    c.isDigit = true ∧ (c = '0' → n = 0) := by
  obtain ⟨c, more, hcs⟩ := List.exists_cons_of_ne_nil (Nat.toDigits_ne_nil (b := 10) (n := n))
  refine ⟨c, more, hcs, Text.Decimal.isDigit_toDigits (hcs ▸ List.mem_cons_self), ?_⟩
  rintro rfl
  exact Text.Decimal.head_toDigits (b := 10) (by decide) (by rw [hcs]; rfl)

theorem takeSign_digits (n : Nat) (rest : List Char) :
    takeSign (Nat.toDigits 10 n ++ rest) = (false, Nat.toDigits 10 n ++ rest) := by
  obtain ⟨c, more, hcs, hc, -⟩ := exists_toDigits_cons n
  rw [hcs, takeSign.eq_3]
  · rintro _ ⟨⟩
    exact absurd hc (by decide)
  · rintro _ ⟨⟩
    exact absurd hc (by decide)

/-- The digits of a number are read up to what closes it. -/
theorem takeWhole?_digits (n : Nat) (hrest : Closes rest) :
    takeWhole? (Nat.toDigits 10 n ++ rest) = some (Nat.toDigits 10 n, rest) := by
  obtain ⟨c, more, hcs, hc, hzero⟩ := exists_toDigits_cons n
  by_cases h : c = '0'
  · rw [hzero h]
    rfl
  · have hrun : takeDigits Char.isDigit (Nat.toDigits 10 n ++ rest) = (Nat.toDigits 10 n, rest) :=
      takeDigits_digits (fun c hc => Text.Decimal.isDigit_toDigits hc) (by decide)
        (hrest.stops (by decide))
    rw [takeWhole?.eq_2 _ (by rw [hcs]; rintro _ ⟨⟩; exact h rfl)]
    rw [hcs] at hrun ⊢
    rw [List.cons_append, takeRun?, if_pos hc, ← List.cons_append, hrun]

theorem takePower?_closes (hrest : Closes rest) : takePower? rest = some (none, rest) := by
  cases rest with
  | nil => rfl
  | cons c rest =>
    have hc : ¬ (c = 'e' ∨ c = 'E') := by
      rintro (rfl | rfl) <;> exact absurd (hrest _ rfl) (by decide)
    rw [takePower?, if_neg hc]

/-- Digits alone have no fraction and no exponent. -/
theorem takeFloat?_digits (n : Nat) (hrest : Closes rest) :
    takeFloat? (Nat.toDigits 10 n ++ rest) = none := by
  obtain ⟨c, more, hcs, hc, -⟩ := exists_toDigits_cons n
  have hwhole := takeWhole?_digits n hrest
  unfold takeFloat?
  rw [takeSign_digits]
  rw [hcs, List.cons_append] at hwhole ⊢
  simp only
  split
  · rename_i heq
    obtain rfl := (List.cons.inj heq).1
    exact absurd hc (by decide)
  · rename_i heq
    obtain rfl := (List.cons.inj heq).1
    exact absurd hc (by decide)
  · simp only [hwhole, Option.bind_eq_bind, Option.bind_some]
    split
    · exact absurd (hrest '.' rfl) (by decide)
    · simp [takePower?_closes hrest]

/-- The digits of a number are its integer. -/
theorem takeInteger?_digits (hn : n ≤ maxInteger) (hrest : Closes rest) :
    takeInteger? (Nat.toDigits 10 n ++ rest) = some (.integer n, rest) := by
  have hvalue : valueOf 10 (Nat.toDigits 10 n) = n :=
    Text.Decimal.foldl_toDigits (by decide) (by decide) n
  have hnode : integerNode? n = some (.integer n) :=
    if_pos ⟨Int.le_trans (by decide) (Int.natCast_nonneg n),
      Int.le_trans (Int.ofNat_le.mpr hn) (by decide)⟩
  -- a zero is no base: it stands alone
  have hbase : ∀ mark more, Nat.toDigits 10 n ++ rest = '0' :: mark :: more →
      mark ∈ closers := by
    intro mark more heq
    obtain ⟨c, digits, hcs, -, hzero⟩ := exists_toDigits_cons n
    rw [hcs] at heq
    obtain rfl := hzero (List.cons.inj heq).1
    obtain rfl : [] = digits := (List.cons.inj hcs).2
    obtain rfl : rest = mark :: more := (List.cons.inj heq).2
    exact hrest mark rfl
  rw [takeInteger?.eq_4, takeSign_digits]
  · simp [takeWhole?_digits n hrest, hvalue, hnode]
  · exact fun more heq => absurd (hbase 'x' more heq) (by decide)
  · exact fun more heq => absurd (hbase 'o' more heq) (by decide)
  · exact fun more heq => absurd (hbase 'b' more heq) (by decide)

/-- A number is read from its digits. -/
theorem takeNumber?_digits (hn : n ≤ maxInteger) (hrest : Closes rest) :
    takeNumber? (Nat.toDigits 10 n ++ rest) = some (.integer n, rest) := by
  rw [takeNumber?, takeMoment?_digits (fun c hc => Text.Decimal.isDigit_toDigits hc) hrest,
    takeFloat?_digits n hrest, takeInteger?_digits hn hrest]

end Rollout.Document.Toml
