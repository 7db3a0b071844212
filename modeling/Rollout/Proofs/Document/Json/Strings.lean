import Rollout.Document.Json.Strings
import Rollout.Document.Json.Writer

/-!
# JSON strings are read back

A string that was written, with any text behind it, is read as the string.

* `scan_escape`: the escape of a character is one unit (`unitOf`), the character itself or its code.
* `assemble_units`: the units of characters are joined to the characters.
* `takeString_string`: both together.
-/

namespace Rollout.Document.Json

/-- Whether a character is written as its code. -/
def isCoded (c : Char) : Bool :=
  c.toNat < 32 && !(['\x08', '\t', '\n', '\x0c', '\r'].contains c)

/-- The unit that the escape of a character is read as. -/
def unitOf (c : Char) : StringUnit := if isCoded c then .code c.toNat else .char c

theorem unitOf_ne_undecodable (c : Char) : unitOf c ≠ .undecodable := by
  unfold unitOf
  split <;> exact nofun

theorem hexValue_digitChar : ∀ n < 16, hexValue? (some (Nat.digitChar n)) = some n := by
  decide

/-- The code of a control. -/
theorem code_control {n : Nat} (h : n < 32) :
    code? (some '0') (some '0') (some (Nat.digitChar (n / 16))) (some (Nat.digitChar (n % 16))) =
      some n := by
  have hzero : hexValue? (some '0') = some 0 := rfl
  unfold code?
  rw [hzero, hexValue_digitChar _ (by omega), hexValue_digitChar _ (by omega)]
  simp only [Option.pure_def, Option.bind_eq_bind, Option.bind_some, Option.some.injEq]
  omega

/-- The escape of a character is one unit. -/
theorem scan_escape (c : Char) (rest : Symbols) (read : List StringUnit) :
    scan ((escape c).map some ++ rest) read = scan rest (unitOf c :: read) := by
  unfold escape
  split
  iterate 7 rfl
  rename_i hquote hbackslash h₈ h₉ h₁₀ h₁₂ h₁₃
  split
  · rename_i hlt
    have hunit : unitOf c = .code c.toNat := by
      have hcoded : isCoded c = true := by
        simp only [isCoded, List.contains_cons, List.contains_nil, Bool.and_eq_true,
          decide_eq_true_eq, Bool.not_eq_true', Bool.or_eq_false_iff, beq_eq_false_iff_ne]
        exact ⟨hlt, h₈, h₉, h₁₀, h₁₂, h₁₃, trivial⟩
      rw [unitOf, if_pos hcoded]
    simp only [List.map_cons, List.map_nil, List.cons_append, List.nil_append, scan,
      code_control hlt, hunit]
  · rename_i hge
    have hunit : unitOf c = .char c := by
      have hcoded : ¬ isCoded c = true := by simp [isCoded, hge]
      rw [unitOf, if_neg hcoded]
    simp only [List.map_cons, List.map_nil, List.cons_append, List.nil_append]
    -- The side goals of the last equation of `scan` are that `c` begins no escape and ends nothing.
    rw [scan, if_neg hge, hunit]
    all_goals first | exact hquote | (intros; exact hbackslash ‹_›)

theorem scan_escapes (cs : List Char) (rest : Symbols) (read : List StringUnit) :
    scan ((cs.flatMap escape).map some ++ rest) read =
      scan rest ((cs.map unitOf).reverse ++ read) := by
  induction cs generalizing read with
  | nil => rfl
  | cons c cs ih =>
    rw [List.flatMap_cons, List.map_append, List.append_assoc, scan_escape, ih]
    simp

/-- A code that is no half of a character is the character. -/
theorem assemble_code {n : Nat} (h : n < 0xD800) (end_ : StringEnd) (rest : List StringUnit)
    (read : List Char) :
    assemble end_ (.code n :: rest) read = assemble end_ rest (Char.ofNat n :: read) := by
  have hlead : isLead n = false := by
    simp only [isLead, Bool.and_eq_false_imp, decide_eq_true_eq]
    omega
  have htrail : isTrail n = false := by
    simp only [isTrail, Bool.and_eq_false_imp, decide_eq_true_eq]
    omega
  cases rest with
  | nil => simp [assemble, hlead, htrail]
  | cons u rest => cases u <;> simp [assemble, hlead, htrail]

/-- Units are joined to the characters that they were made of. -/
theorem assemble_units (end_ : StringEnd) (cs read : List Char) :
    assemble end_ (cs.map unitOf) read = .ok (cs.reverse ++ read) := by
  induction cs generalizing read with
  | nil => simp [assemble]
  | cons c cs ih =>
    rw [List.map_cons, unitOf]
    split
    · rename_i hcoded
      have hlt : c.toNat < 32 := by
        simp only [isCoded, Bool.and_eq_true, decide_eq_true_eq] at hcoded
        exact hcoded.1
      rw [assemble_code (by omega), Char.ofNat_toNat, ih]
      simp
    · rw [assemble, ih]
      simp

/-- A string that was written is read as the string. -/
theorem takeString_string (s : String) (rest : List Char) :
    takeString ((s.toList.flatMap escape ++ '"' :: rest).map some) =
      (.ok s, .ok (rest.map some)) := by
  have hscan : scan ((s.toList.flatMap escape ++ '"' :: rest).map some) [] =
      ((s.toList.map unitOf).reverse, .closed (rest.map some)) := by
    rw [List.map_append, scan_escapes, List.append_nil]
    rfl
  have hdecodable : ((s.toList.map unitOf).contains .undecodable) = false := by
    rw [Bool.eq_false_iff]
    intro hmem
    obtain ⟨c, -, hc⟩ := List.mem_map.mp (List.contains_iff_mem.mp hmem)
    exact unitOf_ne_undecodable c hc
  rw [takeString, hscan]
  simp only [List.reverse_reverse, unitsText, assemble_units, StringEnd.fault?, hdecodable,
    List.append_nil, Bool.false_eq_true, if_false, String.ofList_toList]

end Rollout.Document.Json
