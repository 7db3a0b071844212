import Rollout.Text.Path

/-!
# Cutting at a separator

`Path.split` cuts characters like `List.splitOn`, whose laws hold of it: no part has the separator,
and the parts with a separator between them are the characters. The name of a file is the last
component of its path, and has no slash.
-/

namespace Rollout.Text.Path

variable {sep c : Char} {cs part : List Char} {parts : List (List Char)}

theorem splitFrom_eq (sep : Char) (cs part : List Char) :
    splitFrom sep cs part = (cs.splitOn sep).modifyHead (part.reverse ++ ·) := by
  induction cs generalizing part with
  | nil => simp [splitFrom]
  | cons c cs ih =>
    obtain ⟨first, rest, hcs⟩ := List.exists_cons_of_ne_nil (List.splitOn_ne_nil sep cs)
    rw [splitFrom, List.splitOn_cons_eq_if_modifyHead, ih, ih, hcs]
    by_cases h : c = sep <;> simp [h]

theorem split_eq_splitOn (sep : Char) (cs : List Char) : split sep cs = cs.splitOn sep := by
  rw [split, splitFrom_eq]
  cases cs.splitOn sep <;> rfl

theorem split_ne_nil (sep : Char) (cs : List Char) : split sep cs ≠ [] := by
  rw [split_eq_splitOn]
  exact List.splitOn_ne_nil sep cs

theorem split_append_sep (sep : Char) (front back : List Char) :
    split sep (front ++ sep :: back) = split sep front ++ split sep back := by
  simp only [split_eq_splitOn, List.splitOn]
  exact List.splitOnP_append_cons front back (beq_self_eq_true sep)

theorem split_of_not_mem (h : sep ∉ cs) : split sep cs = [cs] := by
  rw [split_eq_splitOn, List.splitOn_eq_singleton h]

theorem intercalate_split (sep : Char) (cs : List Char) :
    [sep].intercalate (split sep cs) = cs := by
  rw [split_eq_splitOn, List.intercalate_splitOn]

theorem split_intercalate (h : ∀ part ∈ parts, sep ∉ part) (hne : parts ≠ []) :
    split sep ([sep].intercalate parts) = parts := by
  rw [split_eq_splitOn, List.splitOn_intercalate sep h hne]

/-- The first part begins as the characters do. -/
theorem exists_split_cons (h : c ≠ sep) (cs : List Char) :
    ∃ part parts, split sep (c :: cs) = (c :: part) :: parts := by
  obtain ⟨first, rest, hcs⟩ := List.exists_cons_of_ne_nil (List.splitOn_ne_nil sep cs)
  rw [split_eq_splitOn, List.splitOn_cons_eq_if_modifyHead, if_neg (by simpa using h), hcs]
  exact ⟨first, rest, rfl⟩

/-- No part has the separator. -/
theorem sep_not_mem (h : part ∈ split sep cs) : sep ∉ part := by
  rw [split_eq_splitOn] at h
  induction cs generalizing part with
  | nil => simp_all
  | cons c cs ih =>
    obtain ⟨first, rest, hcs⟩ := List.exists_cons_of_ne_nil (List.splitOn_ne_nil sep cs)
    rw [List.splitOn_cons_eq_if_modifyHead, hcs] at h
    rw [hcs] at ih
    split at h
    · rcases List.mem_cons.mp h with rfl | h
      · exact List.not_mem_nil
      · exact ih h
    · rename_i hne
      rcases List.mem_cons.mp h with rfl | h
      · exact List.not_mem_cons_of_ne_of_not_mem (fun heq => hne (by simp [heq]))
          (ih List.mem_cons_self)
      · exact ih (List.mem_cons_of_mem _ h)

/-! ## File names -/

section FileName

variable {path name : String}

theorem getLast?_components (h : fileName? path = some name) :
    (components path).getLast? = some name.toList := by
  obtain ⟨last, hlast, rfl⟩ := Option.map_eq_some_iff.mp h
  rw [(Option.filter_eq_some_iff.mp hlast).1, String.toList_ofList]

theorem slash_not_mem_fileName (h : fileName? path = some name) : '/' ∉ name.toList :=
  sep_not_mem (List.mem_filter.mp (List.mem_of_getLast? (getLast?_components h))).1

end FileName

end Rollout.Text.Path
