import Rollout.Document.Toml.Spelling
import Rollout.Proofs.Text.Decimal

/-!
# Strings and keys of settings are read as they are spelled

* **Blanks** (`skipSpace_blanks`): blanks are dropped up to a word.
* **Strings** (`takeString?_spells`): each character is read from any of its spellings, by induction
  over the characters with the part that is read already. Each of them has a length, so that the
  fuel is enough.
* **Spellings** (`exists_spellsString`): every string has one.
* **Keys** (`takeKey_spells`): a key without marks is read up to the equals sign.
-/

namespace Rollout.Document.Toml

open Rollout.Text (Stops)

variable {cs rest s : List Char} {c : Char}

/-! ## Blanks -/

theorem isSpace_of_blanks {blanks : List Char} (h : Blanks blanks) :
    ∀ c ∈ blanks, isSpace c = true := by
  intro c hc
  rcases h c hc with rfl | rfl <;> rfl

/-- Blanks are dropped up to a word. -/
theorem skipSpace_blanks {blanks : List Char} (h : Blanks blanks) (hrest : Stops isSpace rest) :
    skipSpace (blanks ++ rest) = rest :=
  Text.dropWhile_append_of_stops (isSpace_of_blanks h) hrest

/-- Where blanks stop a run, they do so together with what stops it behind them. -/
theorem stops_blanks {blanks : List Char} (h : Blanks blanks) {p : Char → Bool}
    (hp : p ' ' = false ∧ p '\t' = false) (hrest : Stops p rest) : Stops p (blanks ++ rest) := by
  cases blanks with
  | nil => exact hrest
  | cons b blanks =>
    intro c hc
    obtain rfl : b = c := Option.some.inj hc
    rcases h b List.mem_cons_self with rfl | rfl
    · exact hp.1
    · exact hp.2

/-! ## Strings -/

theorem codeChar?_of_valid {digits : List Char} {values : List Nat} {count n : Nat}
    (hlength : digits.length = count) (hvalues : digits.mapM hexDigit? = some values)
    (hn : values.foldl (fun n d => n * 16 + d) 0 = n) (h : n.isValidChar) :
    codeChar? digits count = some (Char.ofNatAux n h) := by
  subst hn
  rw [codeChar?, if_neg (not_not.mpr hlength), hvalues]
  exact dif_pos h

theorem codeChar?_spells {digits : List Char} {count : Nat} (hlength : digits.length = count)
    (h : SpellsCode digits c) : codeChar? digits count = some c := by
  obtain ⟨values, hvalues, hcode⟩ := Option.map_eq_some_iff.mp h
  exact codeChar?_of_valid hlength hvalues hcode c.valid

theorem escape?_named {mark : Char} (h : (mark, c) ∈ namedEscapes) (rest : List Char) :
    escape? (mark :: rest) = some (c, 1) := by
  simp only [namedEscapes, List.mem_cons, Prod.mk.injEq, List.not_mem_nil, or_false] at h
  rcases h with h | h | h | h | h | h | h <;> obtain ⟨rfl, rfl⟩ := h <;> rfl

/-- A character is read from any of its spellings. -/
theorem takeQuoted_char (h : SpellsChar cs c) (fuel : Nat) (rest read : List Char) :
    takeQuoted (fuel + 1) (cs ++ rest) read = takeQuoted fuel rest (c :: read) := by
  cases h with
  | plain hvisible hquote hbackslash =>
    rw [List.singleton_append, takeQuoted.eq_5 _ _ _ _ hquote hbackslash, if_pos hvisible]
  | named hmem =>
    rw [List.cons_append, takeQuoted, List.singleton_append, escape?_named hmem]
    rfl
  | @short digits _ hlength hcode =>
    have hescape : escape? ('u' :: (digits ++ rest)) = some (c, 5) := by
      rw [escape?, List.take_left' hlength, codeChar?_spells hlength hcode]
      rfl
    rw [List.cons_append, takeQuoted, List.cons_append, hescape]
    show takeQuoted fuel ((digits ++ rest).drop 4) (c :: read) = _
    rw [List.drop_left' hlength]
  | @long digits _ hlength hcode =>
    have hescape : escape? ('U' :: (digits ++ rest)) = some (c, 9) := by
      rw [escape?, List.take_left' hlength, codeChar?_spells hlength hcode]
      rfl
    rw [List.cons_append, takeQuoted, List.cons_append, hescape]
    show takeQuoted fuel ((digits ++ rest).drop 8) (c :: read) = _
    rw [List.drop_left' hlength]

theorem SpellsChar.exists_cons (h : SpellsChar cs c) : ∃ first more, cs = first :: more ∧
    first ≠ '"' := by
  cases h with
  | plain _ hquote _ => exact ⟨_, _, rfl, hquote⟩
  | _ => exact ⟨_, _, rfl, by decide⟩

/-- Characters are read from any of their spellings, up to the mark at the end. -/
theorem takeQuoted_chars (h : SpellsChars cs s) {fuel : Nat} (hfuel : cs.length < fuel)
    (rest read : List Char) :
    takeQuoted fuel (cs ++ '"' :: rest) read = some (read.reverse ++ s, rest) := by
  induction h generalizing fuel read with
  | nil => rw [List.nil_append, takeQuoted.eq_3 _ _ _ (by omega), List.append_nil]
  | @cons cs more s c hchar _ ih =>
    obtain ⟨first, others, hcs, -⟩ := hchar.exists_cons
    have hlength : 0 < cs.length := by simp [hcs]
    obtain ⟨fuel, rfl⟩ : ∃ n, fuel = n + 1 := ⟨fuel - 1, by omega⟩
    rw [List.append_assoc, takeQuoted_char hchar, ih (by rw [List.length_append] at hfuel; omega),
      List.reverse_cons, List.append_assoc, List.singleton_append]

/-- A string is read from any of its spellings, where no third mark follows two. -/
theorem takeString?_spells {s : String} (h : SpellsString cs s) (hrest : rest.head? ≠ some '"') :
    takeString? (cs ++ rest) = some (some (s.toList, rest)) := by
  obtain ⟨inner, rfl, hinner⟩ := h
  rw [List.cons_append, List.append_assoc, List.singleton_append, takeString?.eq_2,
    takeQuoted_chars hinner]
  · rfl
  · simp only [List.length_cons, List.length_append]
    omega
  · generalize s.toList = text at hinner
    intro others heq
    cases hinner with
    | nil => exact hrest (by rw [(List.cons.inj heq).2]; rfl)
    | cons hchar _ =>
      obtain ⟨first, more, rfl, hfirst⟩ := hchar.exists_cons
      exact hfirst (List.cons.inj heq).1

theorem SpellsString.exists_cons {s : String} (h : SpellsString cs s) : ∃ more, cs = '"' :: more :=
  let ⟨_, hcs, _⟩ := h
  ⟨_, hcs⟩

/-! ## Spellings -/

theorem hexDigit?_digitChar : ∀ n < 16, hexDigit? (Nat.digitChar n) = some n := by decide

/-- Each character has a spelling: as it is, or as an escape. -/
theorem exists_spellsChar (c : Char) : ∃ cs, SpellsChar cs c := by
  by_cases hquote : c = '"'
  · subst hquote
    exact ⟨['\\', '"'], .named (by decide)⟩
  by_cases hbackslash : c = '\\'
  · subst hbackslash
    exact ⟨['\\', '\\'], .named (by decide)⟩
  by_cases hvisible : isVisible c = true
  · exact ⟨_, .plain hvisible hquote hbackslash⟩
  · have hcode : c.toNat < 128 := by
      simp only [isVisible, Bool.or_eq_true, Bool.and_eq_true, decide_eq_true_eq,
        bne_iff_ne] at hvisible
      omega
    let digits := ['0', '0', Nat.digitChar (c.toNat / 16), Nat.digitChar (c.toNat % 16)]
    refine ⟨'\\' :: 'u' :: digits, .short rfl ?_⟩
    have hzero : hexDigit? '0' = some 0 := rfl
    simp [SpellsCode, digits, hzero, hexDigit?_digitChar (c.toNat / 16) (by omega),
      hexDigit?_digitChar (c.toNat % 16) (by omega)]
    omega

theorem exists_spellsChars (s : List Char) : ∃ cs, SpellsChars cs s := by
  induction s with
  | nil => exact ⟨_, .nil⟩
  | cons c s ih =>
    obtain ⟨cs, hcs⟩ := exists_spellsChar c
    obtain ⟨rest, hrest⟩ := ih
    exact ⟨_, .cons hcs hrest⟩

/-- Each string has a spelling. -/
theorem exists_spellsString (s : String) : ∃ cs, SpellsString cs s :=
  let ⟨inner, hinner⟩ := exists_spellsChars s.toList
  ⟨_, inner, rfl, hinner⟩

theorem exists_spellsItems (texts : List String) : ∃ cs, SpellsItems cs texts := by
  have hblanks : Blanks [] := nofun
  induction texts with
  | nil => exact ⟨_, .close hblanks⟩
  | cons s texts ih =>
    obtain ⟨cs, hcs⟩ := exists_spellsString s
    obtain ⟨rest, hrest⟩ := ih
    exact ⟨_, .next hblanks hcs hblanks hrest⟩

theorem exists_spellsMember {spells : List Char → Value → Prop} {m : String × Value}
    (h : ∃ cs, spells cs m.2) : ∃ cs, SpellsMember spells cs m := by
  have hblanks : Blanks [] := nofun
  obtain ⟨cs, hcs⟩ := h
  exact ⟨_, .member hblanks hblanks hblanks hcs hblanks⟩

/-- A table has a spelling if its members have. -/
theorem exists_spellsMembers {members : List (String × Value)} (hne : members ≠ [])
    (h : ∀ m ∈ members, ∃ cs, SpellsScalar cs m.2) : ∃ cs, SpellsMembers cs members := by
  induction members with
  | nil => exact absurd rfl hne
  | cons m members ih =>
    obtain ⟨hm, hrest⟩ := List.forall_mem_cons.mp h
    obtain ⟨cs, hcs⟩ := exists_spellsMember hm
    cases members with
    | nil => exact ⟨_, .last hcs⟩
    | cons m' members =>
      obtain ⟨rest, hmembers⟩ := ih (List.cons_ne_nil _ _) hrest
      exact ⟨_, .next hcs hmembers⟩

/-- Members have a spelling on lines if their values have. -/
theorem exists_spellsLines {members : List (String × Value)}
    (h : ∀ m ∈ members, ∃ cs, SpellsValue cs m.2) : ∃ cs, SpellsLines cs members := by
  induction members with
  | nil => exact ⟨_, .nil⟩
  | cons m members ih =>
    obtain ⟨hm, hrest⟩ := List.forall_mem_cons.mp h
    obtain ⟨cs, hcs⟩ := exists_spellsMember hm
    obtain ⟨rest, hlines⟩ := ih hrest
    exact ⟨_, .next hcs (.inl rfl) hlines⟩

/-! ## Keys -/

/-- Whether a text is a key that needs no marks. -/
def IsKey (key : String) : Prop := key.toList ≠ [] ∧ ∀ c ∈ key.toList, isBare c = true

instance (key : String) : Decidable (IsKey key) :=
  decidable_of_iff (key.toList.isEmpty = false ∧ key.toList.all isBare = true) (by simp [IsKey])

theorem takeName_bare (hne : cs ≠ []) (hbare : ∀ c ∈ cs, isBare c = true)
    (hrest : Stops isBare rest) : takeName (cs ++ rest) = some (cs, rest) := by
  obtain ⟨c, more, rfl⟩ := List.exists_cons_of_ne_nil hne
  have hc : isBare c = true := hbare c List.mem_cons_self
  rw [takeName.eq_3, Text.takeWhile_append_of_stops hbare hrest,
    Text.dropWhile_append_of_stops hbare hrest]
  · rintro others ⟨⟩
    exact absurd hc (by decide)
  · rintro others ⟨⟩
    exact absurd hc (by decide)

theorem isSpace_of_isBare {c : Char} (h : isBare c = true) : isSpace c = false := by
  by_contra hspace
  simp only [isSpace, Bool.or_eq_true, decide_eq_true_eq, Bool.not_eq_false] at hspace
  rcases hspace with rfl | rfl <;> exact absurd h (by decide)

/-- A key is read up to the equals sign. -/
theorem takeKey_spells {front before : List Char} {key : String} (hkey : IsKey key)
    (hfront : Blanks front) (hbefore : Blanks before) (rest : List Char) :
    takeKey (front ++ (key.toList ++ (before ++ '=' :: rest))) = some ([], key, '=' :: rest) := by
  obtain ⟨c, more, hcs⟩ := List.exists_cons_of_ne_nil hkey.1
  have hword : Stops isSpace (key.toList ++ (before ++ '=' :: rest)) := by
    intro d hd
    rw [hcs] at hd
    obtain rfl : c = d := Option.some.inj hd
    exact isSpace_of_isBare (hkey.2 c (by simp [hcs]))
  have hend : Stops isBare (before ++ '=' :: rest) :=
    stops_blanks hbefore ⟨rfl, rfl⟩ fun d hd => by cases hd; rfl
  have hname := takeName_bare hkey.1 hkey.2 hend
  have hsign : skipSpace (before ++ '=' :: rest) = '=' :: rest :=
    skipSpace_blanks hbefore fun d hd => by cases hd; rfl
  have hnames : takeNames maxDepth (front ++ (key.toList ++ (before ++ '=' :: rest))) =
      some ([key], '=' :: rest) := by
    rw [show maxDepth = 79 + 1 from rfl, takeNames, skipSpace_blanks hfront hword, hname]
    simp [hsign]
  rw [takeKey, hnames]
  rfl

end Rollout.Document.Toml
