import Mathlib.Data.List.Basic
import Rollout.Proofs.Text.Decimal
import Rollout.Text.Blank

/-!
# Words between blanks

A text is cut into its words at the blanks, and nowhere else.

* **The cut** (`words_cut`): a blank parts the words in front of it from those behind it. All laws
  of `words` follow from this one, with what has no blank as the base (`blank_induction`).
* **Each word** (`mem_words_iff`): the words are what stands between blanks or ends.
* **All of them** (`mapM_words_eq_some_iff`): to read every word is to read a row of spellings, in
  order, whatever the blanks between them and at the ends.
-/

namespace Rollout.Text

variable {cs front rest gap word : List Char} {b : Char}

/-! ## Blanks and words apart -/

theorem wordsFrom_blank (hb : isBlank b = true) (rest word : List Char) :
    wordsFrom (b :: rest) word = wordsFrom [] word ++ words rest := by
  simp only [wordsFrom, words, hb, if_true]
  split <;> rfl

theorem wordsFrom_letter {c : Char} (hc : isBlank c = false) (rest word : List Char) :
    wordsFrom (c :: rest) word = wordsFrom rest (c :: word) := by
  simp [wordsFrom, hc]

theorem wordsFrom_letters (h : ∀ c ∈ cs, isBlank c = false) (word : List Char) :
    wordsFrom cs word = wordsFrom [] (cs.reverse ++ word) := by
  induction cs generalizing word with
  | nil => rfl
  | cons c cs ih =>
    rw [wordsFrom_letter (h c List.mem_cons_self), ih fun c hc => h c (List.mem_cons_of_mem _ hc),
      List.reverse_cons, List.append_assoc, List.singleton_append]

theorem words_nil : words [] = [] := rfl

/-- A word is its only word. -/
theorem IsWord.words (h : IsWord word) : words word = [word] := by
  rw [Text.words, wordsFrom_letters h.not_blank, List.append_nil, wordsFrom,
    if_neg (by simpa using h.nonempty), List.reverse_reverse]

theorem wordsFrom_cut (hb : isBlank b = true) (front rest word : List Char) :
    wordsFrom (front ++ b :: rest) word = wordsFrom front word ++ words rest := by
  induction front generalizing word with
  | nil => exact wordsFrom_blank hb rest word
  | cons c front ih =>
    cases hc : isBlank c with
    | true =>
      rw [List.cons_append, wordsFrom_blank hc, wordsFrom_blank hc, List.append_assoc]
      exact congrArg _ (ih [])
    | false => rw [List.cons_append, wordsFrom_letter hc, wordsFrom_letter hc, ih]

/-- A blank parts the words in front of it from those behind it. -/
theorem words_cut (hb : isBlank b = true) (front rest : List Char) :
    words (front ++ b :: rest) = words front ++ words rest :=
  wordsFrom_cut hb front rest []

theorem words_blank (hb : isBlank b = true) (rest : List Char) : words (b :: rest) = words rest :=
  words_cut hb [] rest

/-- Blanks in front of a text are part of no word. -/
theorem IsGap.words_append (h : IsGap gap) (rest : List Char) :
    words (gap ++ rest) = words rest := by
  induction gap with
  | nil => rfl
  | cons b gap ih =>
    rw [List.cons_append, words_blank (h b List.mem_cons_self),
      ih fun c hc => h c (List.mem_cons_of_mem _ hc)]

theorem IsGap.words (h : IsGap gap) : words gap = [] := by
  have hwords := h.words_append []
  rwa [List.append_nil, words_nil] at hwords

/-- A word that ends is the first one, and the others stand behind it. -/
theorem IsWord.words_append (h : IsWord word) (hrest : ∀ c ∈ rest.head?, isBlank c = true) :
    Text.words (word ++ rest) = word :: Text.words rest := by
  cases rest with
  | nil => rw [List.append_nil, h.words, words_nil]
  | cons b rest =>
    have hb := hrest b rfl
    rw [words_cut hb, h.words, words_blank hb, List.singleton_append]

/-- What holds of characters without a blank, and in front of them and a blank whenever it holds
behind, holds of all characters. -/
theorem blank_induction {P : List Char → Prop} (whole : ∀ cs, (∀ c ∈ cs, isBlank c = false) → P cs)
    (cut : ∀ front b rest, (∀ c ∈ front, isBlank c = false) → isBlank b = true → P rest →
      P (front ++ b :: rest))
    (cs : List Char) : P cs := by
  induction hn : cs.length using Nat.strongRecOn generalizing cs with
  | ind n ih =>
    have hfront : ∀ c ∈ cs.takeWhile (!isBlank ·), isBlank c = false := fun c hc => by
      simpa using List.all_eq_true.mp List.all_takeWhile c hc
    have hcs := List.takeWhile_append_dropWhile (p := (!isBlank ·)) (l := cs)
    cases hdrop : cs.dropWhile (!isBlank ·) with
    | nil =>
      rw [hdrop, List.append_nil] at hcs
      rw [hcs] at hfront
      exact whole cs hfront
    | cons b rest =>
      have hb : isBlank b = true := by
        simpa using stops_dropWhile (!isBlank ·) cs b (by rw [hdrop]; rfl)
      rw [hdrop] at hcs
      have hlength : rest.length < n := by
        rw [← hn, ← hcs, List.length_append, List.length_cons]
        omega
      rw [← hcs]
      exact cut _ b rest hfront hb (ih _ hlength rest rfl)

/-- Characters without a blank are none, or a word. -/
theorem eq_nil_or_isWord (h : ∀ c ∈ cs, isBlank c = false) : cs = [] ∨ IsWord cs := by
  by_cases hne : cs = []
  · exact .inl hne
  · exact .inr ⟨hne, h⟩

/-- Characters without a blank have no word but themselves. -/
theorem eq_of_mem_words (h : ∀ c ∈ cs, isBlank c = false) (hmem : word ∈ words cs) :
    word = cs ∧ IsWord cs := by
  rcases eq_nil_or_isWord h with rfl | hword
  · rw [words_nil] at hmem
    cases hmem
  · rw [hword.words] at hmem
    exact ⟨List.mem_singleton.mp hmem, hword⟩

theorem not_isBlank_of_isDigit {c : Char} (h : c.isDigit = true) : isBlank c = false := by
  have hall : ∀ d < 10, isBlank (Nat.digitChar d) = false := by decide
  rw [← Decimal.digitChar_digit h]
  exact hall _ (Decimal.digit_lt h)

/-- A number is a word, with a sign or without one. -/
theorem isWord_of_spellsUnsigned {n : Nat} (h : Decimal.SpellsUnsigned cs n) : IsWord cs := by
  obtain ⟨digits, hdigits, rfl | rfl⟩ := h
  · exact ⟨hdigits.nonempty, fun c hc => not_isBlank_of_isDigit (hdigits.digits c hc)⟩
  · refine ⟨List.cons_ne_nil _ _, List.forall_mem_cons.mpr ⟨rfl, fun c hc => ?_⟩⟩
    exact not_isBlank_of_isDigit (hdigits.digits c hc)

/-! ## Each word -/

theorem HasWord.self (h : IsWord word) : HasWord word word :=
  ⟨[], [], (List.append_nil _).symm, h, nofun, nofun⟩

theorem HasWord.first (h : IsWord word) (hb : isBlank b = true) (rest : List Char) :
    HasWord (word ++ b :: rest) word :=
  ⟨[], b :: rest, rfl, h, nofun, fun _ hc => Option.some.inj hc ▸ hb⟩

/-- A word behind a blank is one of the text. -/
theorem HasWord.behind (h : HasWord cs word) (hb : isBlank b = true) (front : List Char) :
    HasWord (front ++ b :: cs) word := by
  obtain ⟨before, back, rfl, hword, hbefore, hback⟩ := h
  refine ⟨front ++ b :: before, back, by simp, hword, ?_, hback⟩
  rcases List.eq_nil_or_concat' before with rfl | ⟨before, d, rfl⟩
  · intro c hc
    rw [List.getLast?_concat] at hc
    exact Option.some.inj hc ▸ hb
  · intro c hc
    rw [← List.cons_append, ← List.append_assoc, List.getLast?_concat] at hc
    exact hbefore c (by rw [List.getLast?_concat]; exact hc)

theorem hasWord_of_mem_words (h : word ∈ words cs) : HasWord cs word := by
  induction cs using blank_induction with
  | whole cs hcs =>
    obtain ⟨rfl, hword⟩ := eq_of_mem_words hcs h
    exact .self hword
  | cut front b rest hfront hb ih =>
    rw [words_cut hb, List.mem_append] at h
    rcases h with h | h
    · obtain ⟨rfl, hword⟩ := eq_of_mem_words hfront h
      exact .first hword hb rest
    · exact (ih h).behind hb front

/-- The words of a text are what stands in it between blanks or ends. -/
theorem mem_words_iff : word ∈ words cs ↔ HasWord cs word := by
  refine ⟨hasWord_of_mem_words, ?_⟩
  rintro ⟨front, back, rfl, hword, hfront, hback⟩
  have hmem : word ∈ words (word ++ back) := by
    rw [hword.words_append hback]
    exact List.mem_cons_self
  rcases List.eq_nil_or_concat' front with rfl | ⟨front, b, rfl⟩
  · exact hmem
  · rw [List.append_assoc, List.singleton_append, words_cut (hfront b List.getLast?_concat)]
    exact List.mem_append_right _ hmem

/-! ## All words in order -/

section Row

variable {α : Type} {spells : List Char → α → Prop} {read : List Char → Option α} {a : α}
  {as : List α}

/-- Members have a row: what is written of each, with the same blanks between each two. -/
theorem row_intercalate {write : α → List Char} (h : ∀ a ∈ as, spells (write a) a)
    (hgap : IsGap gap) (hne : gap ≠ []) : Row spells (gap.intercalate (as.map write)) as := by
  induction as with
  | nil => exact .nil
  | cons a as ih =>
    have ha := h a List.mem_cons_self
    cases as with
    | nil =>
      rw [List.map_singleton, List.intercalate_singleton]
      exact .single ha
    | cons next as =>
      rw [List.map_cons, List.map_cons, List.intercalate_cons_cons, List.append_assoc]
      exact .cons ha hgap hne (ih fun a ha => h a (List.mem_cons_of_mem _ ha))

theorem spaced_nil (spells : List Char → α → Prop) : Spaced spells [] [] :=
  ⟨[], [], [], rfl, nofun, .nil, nofun⟩

theorem spaced_single (h : spells cs a) : Spaced spells cs [a] :=
  ⟨[], cs, [], (List.append_nil _).symm, nofun, .single h, nofun⟩

/-- A blank in front of a row changes nothing. -/
theorem Spaced.blank (h : Spaced spells cs as) (hb : isBlank b = true) :
    Spaced spells (b :: cs) as := by
  obtain ⟨front, row, back, rfl, hfront, hrow, hback⟩ := h
  exact ⟨b :: front, row, back, rfl, List.forall_mem_cons.mpr ⟨hb, hfront⟩, hrow, hback⟩

/-- A spelling and a blank in front of a row make it longer by a member. -/
theorem Spaced.spelled (h : Spaced spells cs as) (hword : spells word a) (hb : isBlank b = true) :
    Spaced spells (word ++ b :: cs) (a :: as) := by
  obtain ⟨front, row, back, rfl, hfront, hrow, hback⟩ := h
  have hgap : IsGap (b :: front) := List.forall_mem_cons.mpr ⟨hb, hfront⟩
  cases as with
  | nil =>
    cases hrow
    exact ⟨[], word, b :: (front ++ back), rfl, nofun, .single hword,
      fun c hc => (List.mem_append.mp hc).elim (hgap c) (hback c)⟩
  | cons next as =>
    exact ⟨[], word ++ (b :: front ++ row), back, by simp, nofun,
      .cons hword hgap (List.cons_ne_nil _ _) hrow, hback⟩

/-- A row is read spelling by spelling, with blanks behind it. -/
theorem mapM_words_row (hread : ∀ {cs a}, spells cs a → IsWord cs ∧ read cs = some a)
    (h : Row spells cs as) (hgap : IsGap gap) : (words (cs ++ gap)).mapM read = some as := by
  have hhead : ∀ {gap : List Char}, IsGap gap → ∀ c ∈ gap.head?, isBlank c = true :=
    fun hgap c hc => hgap c (List.mem_of_mem_head? hc)
  induction h with
  | nil =>
    rw [List.nil_append, hgap.words]
    rfl
  | single hcs =>
    obtain ⟨hword, ha⟩ := hread hcs
    rw [hword.words_append (hhead hgap), hgap.words, List.mapM_cons, ha]
    rfl
  | @cons cs between rest a next as hcs hbetween hne _ ih =>
    obtain ⟨hword, ha⟩ := hread hcs
    -- The blanks behind the spelling are there, so that it ends with them.
    have hends : ∀ c ∈ (between ++ (rest ++ gap)).head?, isBlank c = true := by
      rw [List.head?_append_of_ne_nil _ hne]
      exact hhead hbetween
    rw [List.append_assoc, List.append_assoc, hword.words_append hends, hbetween.words_append,
      List.mapM_cons, ha, ih]
    rfl

theorem spaced_of_mapM_words (hread : ∀ {cs a}, IsWord cs → read cs = some a → spells cs a)
    (h : (words cs).mapM read = some as) : Spaced spells cs as := by
  induction cs using blank_induction generalizing as with
  | whole cs hcs =>
    rcases eq_nil_or_isWord hcs with rfl | hword
    · cases h
      exact spaced_nil spells
    · rw [hword.words] at h
      obtain ⟨a, ha, rfl⟩ : ∃ a, read cs = some a ∧ [a] = as := by
        simpa [Option.bind_eq_some_iff] using h
      exact spaced_single (hread hword ha)
  | cut front b rest hfront hb ih =>
    rw [words_cut hb] at h
    rcases eq_nil_or_isWord hfront with rfl | hword
    · exact (ih h).blank hb
    · rw [hword.words, List.singleton_append, List.mapM_cons] at h
      obtain ⟨a, ha, as', has, rfl⟩ :
          ∃ a, read front = some a ∧ ∃ as', (words rest).mapM read = some as' ∧ a :: as' = as := by
        simpa [Option.bind_eq_some_iff] using h
      exact (ih has).spelled (hread hword ha) hb

/-- To read every word of a text is to read a row of spellings. -/
theorem mapM_words_eq_some_iff
    (hread : ∀ {cs a}, spells cs a ↔ IsWord cs ∧ read cs = some a) :
    (words cs).mapM read = some as ↔ Spaced spells cs as := by
  constructor
  · exact spaced_of_mapM_words fun hword ha => hread.mpr ⟨hword, ha⟩
  · rintro ⟨front, row, back, rfl, hfront, hrow, hback⟩
    rw [hfront.words_append]
    exact mapM_words_row hread.mp hrow hback

end Row

end Rollout.Text
