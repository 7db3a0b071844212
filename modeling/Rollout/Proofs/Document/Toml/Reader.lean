import Rollout.Document.Toml.Reader
import Rollout.Proofs.Document.Toml.Numbers

/-!
# Settings are read as they are spelled

* **Values** (`takeScalar_spells`, `takeItems_spells`, `takePairs_spells`): a value is read up to
  what closes it, by induction over the items of a list and over the members of a table.
* **Lines** (`takeAll_spells`): each line adds its member to the table, by induction over the lines.
* `read_spells`: the document of a text has the members of its lines.
-/

namespace Rollout.Document.Toml

open Rollout.Text (Stops)

variable {cs rest : List Char} {v : Value}

/-- Whether an integer fits the settings. -/
def Small : Value → Prop
  | .integer n => n ≤ maxInteger
  | _ => True

/-- Whether members have keys without marks, each its own. -/
def Keyed (members : List (String × Value)) : Prop :=
  (members.map Prod.fst).Nodup ∧ ∀ m ∈ members, IsKey m.1

/-- Whether the parts of a value can be settings. -/
def Settable : Value → Prop
  | .object members => Keyed members ∧ ∀ m ∈ members, Small m.2
  | v => Small v

/-! ## Values -/

theorem stops_word {c : Char} (h : isSpace c = false) (rest : List Char) :
    Stops isSpace (c :: rest) := fun d hd => by
  obtain rfl : c = d := Option.some.inj hd
  exact h

/-- Whether a character begins a word inside brackets. -/
def Word (c : Char) : Prop := isSpace c = false ∧ c ≠ '#' ∧ c ≠ '\n' ∧ c ≠ '\r'

instance : DecidablePred Word := fun _ => inferInstanceAs (Decidable (_ ∧ _))

/-- Blanks are dropped inside brackets. -/
theorem skipLines_blanks {blanks : List Char} (h : Blanks blanks) {c : Char} (hc : Word c)
    (rest : List Char) :
    skipLines (blanks ++ c :: rest).length (blanks ++ c :: rest) = c :: rest := by
  have hspace := skipSpace_blanks h (stops_word hc.1 rest)
  have hcomment : skipComment (c :: rest) = c :: rest := by
    rw [skipComment]
    rintro _ ⟨⟩
    exact hc.2.1 rfl
  have hbreak : lineBreak? (c :: rest) = none := by
    rw [lineBreak?]
    · rintro _ ⟨⟩
      exact hc.2.2.1 rfl
    · rintro _ ⟨⟩
      exact hc.2.2.2 rfl
  obtain ⟨n, hn⟩ : ∃ n, (blanks ++ c :: rest).length = n + 1 :=
    ⟨blanks.length + rest.length, by simp; omega⟩
  rw [hn, skipLines, hspace, hcomment, hbreak]

theorem Closes.nil : Closes [] := nofun

theorem Closes.quote (h : Closes rest) : rest.head? ≠ some '"' :=
  fun hrest => absurd (h '"' hrest) (by decide)

theorem takeValue_string {s : String} (h : SpellsString cs s) (hrest : rest.head? ≠ some '"')
    (fuel open_ : Nat) :
    takeValue (fuel + 1) open_ (cs ++ rest) = some (.string (.ok s), rest) := by
  rw [takeValue.eq_def]
  simp [takeString?_spells h hrest]

/-- What begins with a digit is a number. -/
theorem takeValue_digit {c : Char} (hc : c.isDigit = true) (more : List Char) (fuel open_ : Nat) :
    takeValue (fuel + 1) open_ (c :: more) = takeNumber? (c :: more) := by
  have hmark : ∀ d : Char, d.isDigit = false → c ≠ d := by
    rintro d hd rfl
    exact absurd hc (by simp [hd])
  have hstring : takeString? (c :: more) = none := by
    rw [takeString?] <;> rintro _ ⟨⟩ <;> exact absurd hc (by decide)
  rw [takeValue.eq_def]
  simp only [hstring]
  split
  · exact absurd (List.cons.inj ‹_›).1 (hmark '[' rfl)
  · exact absurd (List.cons.inj ‹_›).1 (hmark '\x7b' rfl)
  · exact absurd (List.cons.inj ‹_›).1 (hmark 't' rfl)
  · exact absurd (List.cons.inj ‹_›).1 (hmark 'f' rfl)
  · exact absurd (List.cons.inj ‹_›).1 (hmark 'i' rfl)
  · exact absurd (List.cons.inj ‹_›).1 (hmark 'n' rfl)
  · rename_i heq
    obtain ⟨rfl, rfl⟩ := List.cons.inj heq
    rw [if_pos (.inr (.inr hc))]
  · contradiction

/-- A string or a number is read from its spelling. -/
theorem takeScalar_spells (h : SpellsScalar cs v) (hv : Small v) (hrest : Closes rest)
    (fuel open_ : Nat) : takeValue (fuel + 1) open_ (cs ++ rest) = some (v.node, rest) := by
  cases h with
  | string h => exact takeValue_string h hrest.quote fuel open_
  | number n =>
    obtain ⟨c, more, hcs, hc, -⟩ := exists_toDigits_cons n
    have hn : n ≤ maxInteger := Int.ofNat_le.mp hv
    rw [hcs, List.cons_append, takeValue_digit hc, ← List.cons_append, ← hcs]
    exact takeNumber?_digits hn hrest

/-- No quotation mark comes first where blanks and another character do. -/
theorem head_blanks {blanks : List Char} (h : Blanks blanks) {c : Char} (hc : c ≠ '"')
    (rest : List Char) :
    (blanks ++ c :: rest).head? ≠ some '"' := by
  cases blanks with
  | nil => simpa using hc
  | cons b blanks =>
    rcases h b List.mem_cons_self with rfl | rfl <;> simp

/-- A string that is an item is found behind blanks, is read, and leads to the next word. -/
theorem takeItem_string {blanks blanks' : List Char} {s : String} {c : Char}
    (hblanks : Blanks blanks) (hstring : SpellsString cs s) (hblanks' : Blanks blanks')
    (hc : Word c) (hquote : c ≠ '"') (fuel open_ : Nat) (tail : List Char) :
    let text := cs ++ (blanks' ++ c :: tail)
    skipLines (blanks ++ text).length (blanks ++ text) = text ∧
      (∀ others, text = ']' :: others → False) ∧
      takeValue (fuel + 1) open_ text = some (.string (.ok s), blanks' ++ c :: tail) ∧
      skipLines (blanks' ++ c :: tail).length (blanks' ++ c :: tail) = c :: tail := by
  have hvalue := takeValue_string hstring (head_blanks hblanks' hquote tail) fuel open_
  obtain ⟨more, rfl⟩ := hstring.exists_cons
  exact ⟨skipLines_blanks hblanks (by decide) _, nofun, hvalue, skipLines_blanks hblanks' hc tail⟩

/-- Items are read up to the closing bracket. -/
theorem takeItems_spells {texts : List String} (h : SpellsItems cs texts) {fuel : Nat}
    (hfuel : texts.length < fuel) (open_ : Nat) (rest : List Char) :
    takeItems fuel open_ (skipLines (cs ++ rest).length (cs ++ rest)) =
      some (texts.map fun s => .string (.ok s), rest) := by
  induction h generalizing fuel with
  | close hblanks =>
    rw [List.append_assoc, List.singleton_append, skipLines_blanks hblanks (by decide)]
    exact takeItems.eq_2 _ _ _ (by omega)
  | last hblanks hstring hblanks' =>
    obtain ⟨fuel, rfl⟩ : ∃ n, fuel = n + 2 := ⟨fuel - 2, by simp at hfuel; omega⟩
    obtain ⟨hopen, hword, hvalue, hend⟩ := takeItem_string hblanks hstring hblanks'
      (by decide : Word ']') (by decide) fuel open_ rest
    simp only [List.append_assoc, List.singleton_append]
    rw [hopen, takeItems.eq_3 _ _ _ hword, hvalue]
    simp only [Option.bind_eq_bind, Option.bind_some, hend]
    rfl
  | @next blanks cs blanks' others s texts hblanks hstring hblanks' _ ih =>
    obtain ⟨fuel, rfl⟩ : ∃ n, fuel = n + 2 := ⟨fuel - 2, by simp at hfuel; omega⟩
    obtain ⟨hopen, hword, hvalue, hend⟩ := takeItem_string hblanks hstring hblanks'
      (by decide : Word ',') (by decide) fuel open_ (others ++ rest)
    have hothers : takeItems (fuel + 1) open_
        (skipLines (others ++ rest).length (others ++ rest)) =
          some (texts.map fun s => .string (.ok s), rest) := ih (by simpa using hfuel)
    simp only [List.append_assoc, List.cons_append]
    rw [hopen, takeItems.eq_3 _ _ _ hword, hvalue]
    simp only [Option.bind_eq_bind, Option.bind_some, hend, hothers]
    rfl

/-! ## Tables -/

/-- A member as an entry of a table. -/
def entry (m : String × Value) : String × Item := (m.1, .leaf m.2.node)

theorem entryNodes_map (members : List (String × Value)) :
    entryNodes (members.map entry) = Value.memberNodes members := by
  induction members with
  | nil => rfl
  | cons m members ih => rw [List.map_cons, entry, entryNodes, ih, Value.memberNodes, Item.node]

/-- A new name is put at the end of a table. -/
theorem define_entry {entries : List (String × Item)} {m : String × Value}
    {members : List (String × Value)}
    (h : (entries.map Prod.fst ++ (m :: members).map Prod.fst).Nodup) :
    (Table.named entries).define [] m.1 (.leaf m.2.node) =
      some (.named (entries ++ [entry m])) := by
  have hlookup : entries.lookup m.1 = none :=
    List.lookup_eq_none_iff.mpr fun e he =>
      bne_iff_ne.mpr fun heq => (List.nodup_append.mp h).2.2 e.1 (List.mem_map_of_mem he) m.1
        List.mem_cons_self heq.symm
  simp [Table.define, Table.alter, Table.named, Table.put, hlookup, entry]

section Member

variable {spells : List Char → Value → Prop} {m : String × Value}

theorem stops_key {key : String} (hkey : IsKey key) (rest : List Char) :
    ∃ c more, key.toList ++ rest = c :: more ∧ isBare c = true := by
  obtain ⟨c, more, hcs⟩ := List.exists_cons_of_ne_nil hkey.1
  exact ⟨c, more ++ rest, by rw [hcs]; rfl, hkey.2 c (by simp [hcs])⟩

/-- Blanks in front of a member are dropped, and what is left begins with its key. -/
theorem SpellsMember.skipSpace (h : SpellsMember spells cs m) (hkey : IsKey m.1) :
    ∃ c more, SpellsMember spells (c :: more) m ∧ isBare c = true ∧ (c :: more).length ≤ cs.length ∧
      ∀ tail, Toml.skipSpace (cs ++ tail) = c :: more ++ tail := by
  cases h with
  | @member front before behind back cs key v hfront hbefore hbehind hv hback =>
    obtain ⟨c, more, hcs, hc⟩ := stops_key hkey (before ++ '=' :: (behind ++ (cs ++ back)))
    refine ⟨c, more, ?_, hc, ?_, fun tail => ?_⟩
    · rw [← hcs]
      exact .member (fun c hc => absurd hc List.not_mem_nil) hbefore hbehind hv hback
    · rw [← hcs]
      exact (List.suffix_append front _).length_le
    · rw [hcs, List.append_assoc, List.cons_append]
      exact skipSpace_blanks hfront (stops_word (isSpace_of_isBare hc) _)

/-- The key of a member is read, and its value is found behind the equals sign. -/
theorem takeKey_member (h : SpellsMember spells cs m) (hkey : IsKey m.1)
    (hspells : ∀ {cs v}, spells cs v → ∃ c more, cs = c :: more ∧ isSpace c = false)
    (tail : List Char) : ∃ value back text, spells value m.2 ∧ Blanks back ∧
      value.length ≤ text.length ∧ takeKey (cs ++ tail) = some ([], m.1, '=' :: text) ∧
        Toml.skipSpace text = value ++ (back ++ tail) := by
  cases h with
  | @member front before behind back cs key v hfront hbefore hbehind hv hback =>
    obtain ⟨c, more, rfl, hc⟩ := hspells hv
    refine ⟨_, back, behind ++ (c :: more ++ (back ++ tail)), hv, hback, ?_, ?_, ?_⟩
    · simp only [List.length_append]
      omega
    · have htake := takeKey_spells hkey hfront hbefore (behind ++ (c :: more ++ (back ++ tail)))
      simpa only [List.append_assoc, List.cons_append] using htake
    · exact skipSpace_blanks hbehind (stops_word hc _)

end Member

theorem SpellsScalar.exists_cons (h : SpellsScalar cs v) :
    ∃ c more, cs = c :: more ∧ isSpace c = false := by
  cases h with
  | string h =>
    obtain ⟨more, rfl⟩ := h.exists_cons
    exact ⟨_, _, rfl, rfl⟩
  | number n =>
    obtain ⟨c, more, hcs, hc, -⟩ := exists_toDigits_cons n
    exact ⟨c, more, hcs, isSpace_of_isBare (by simp [isBare, Char.isAlphanum, hc])⟩

theorem SpellsValue.exists_cons (h : SpellsValue cs v) :
    ∃ c more, cs = c :: more ∧ isSpace c = false := by
  cases h with
  | scalar h => exact h.exists_cons
  | _ => exact ⟨_, _, rfl, rfl⟩

theorem closes_blanks {back : List Char} (h : Blanks back) (hrest : Closes rest) :
    Closes (back ++ rest) := by
  cases back with
  | nil => exact hrest
  | cons b back =>
    rintro c ⟨⟩
    rcases h b List.mem_cons_self with rfl | rfl <;> decide

/-- A member of a table is read up to the mark that closes it. -/
theorem takePair_spells {m : String × Value} (h : SpellsMember SpellsScalar cs m)
    (hkey : IsKey m.1) (hm : Small m.2) {c : Char} (hc : c ∈ closers) (hspace : isSpace c = false)
    (fuel open_ : Nat) (tail : List Char) : ∃ text rest,
      takeKey (cs ++ c :: tail) = some ([], m.1, '=' :: text) ∧
        takeValue (fuel + 1) open_ (skipSpace text) = some (m.2.node, rest) ∧
          skipSpace rest = c :: tail := by
  obtain ⟨value, back, text, hvalue, hback, -, htake, hskip⟩ :=
    takeKey_member h hkey SpellsScalar.exists_cons (c :: tail)
  refine ⟨text, back ++ c :: tail, htake, ?_, skipSpace_blanks hback (stops_word hspace tail)⟩
  rw [hskip]
  have hclose : Closes (c :: tail) := fun d hd => by
    cases hd
    exact hc
  exact takeScalar_spells hvalue hm (closes_blanks hback hclose) fuel open_

/-- Members are read up to the closing brace. -/
theorem takePairs_spells {members : List (String × Value)} (h : SpellsMembers cs members)
    {entries : List (String × Item)}
    (hnames : (entries.map Prod.fst ++ members.map Prod.fst).Nodup)
    (hkeys : ∀ m ∈ members, IsKey m.1) (hsmall : ∀ m ∈ members, Small m.2) {fuel : Nat}
    (hfuel : members.length < fuel) (open_ : Nat) (rest : List Char) :
    takePairs fuel open_ (cs ++ rest) (.named entries) =
      some (.named (entries ++ members.map entry), rest) := by
  induction h generalizing fuel entries with
  | @last cs m h =>
    obtain ⟨fuel, rfl⟩ : ∃ n, fuel = n + 2 := ⟨fuel - 2, by simp at hfuel; omega⟩
    obtain ⟨text, after, hkey, hvalue, hend⟩ := takePair_spells h (hkeys m List.mem_cons_self)
      (hsmall m List.mem_cons_self) (by decide : '\x7d' ∈ closers) rfl fuel open_ rest
    rw [List.append_assoc, List.singleton_append, takePairs, hkey]
    simp [hvalue, define_entry hnames, hend]
  | @next cs others m members h _ ih =>
    obtain ⟨fuel, rfl⟩ : ∃ n, fuel = n + 2 := ⟨fuel - 2, by simp at hfuel; omega⟩
    obtain ⟨text, after, hkey, hvalue, hend⟩ := takePair_spells h (hkeys m List.mem_cons_self)
      (hsmall m List.mem_cons_self) (by decide : ',' ∈ closers) rfl fuel open_ (others ++ rest)
    have hothers : takePairs (fuel + 1) open_ (others ++ rest) (.named (entries ++ [entry m])) =
        some (.named (entries ++ [entry m] ++ members.map entry), rest) :=
      ih (by simpa [entry] using hnames) (fun m hm => hkeys m (List.mem_cons_of_mem _ hm))
        (fun m hm => hsmall m (List.mem_cons_of_mem _ hm)) (by simpa using hfuel)
    rw [List.append_assoc, List.cons_append, takePairs, hkey]
    simp [hvalue, define_entry hnames, hend, hothers]

/-! ## Values of lines -/

theorem SpellsItems.length_le {texts : List String} (h : SpellsItems cs texts) :
    texts.length ≤ cs.length := by
  induction h with
  | close => exact Nat.zero_le _
  | last => simp; omega
  | next _ _ _ _ ih => simp; omega

theorem SpellsMembers.length_le {members : List (String × Value)} (h : SpellsMembers cs members) :
    members.length ≤ cs.length := by
  induction h with
  | last => simp
  | next _ _ ih => simp; omega

theorem ofList_strings (texts : List String) :
    Items.ofList (texts.map fun s => .string (.ok s)) = Value.nodes (texts.map .string) := by
  induction texts with
  | nil => rfl
  | cons s texts ih => simp only [List.map_cons, Items.ofList, ih, Value.nodes, Value.node]

/-- Blanks in front of members are dropped, and what is left begins with the first key. -/
theorem SpellsMembers.skipSpace {members : List (String × Value)} (h : SpellsMembers cs members)
    (hkeys : ∀ m ∈ members, IsKey m.1) (tail : List Char) :
    ∃ c more, SpellsMembers (c :: more) members ∧ isBare c = true ∧
      Toml.skipSpace (cs ++ tail) = c :: more ++ tail := by
  cases h with
  | @last cs m h =>
    obtain ⟨c, more, hm, hc, -, hskip⟩ := h.skipSpace (hkeys m List.mem_cons_self)
    refine ⟨c, more ++ ['\x7d'], .last hm, hc, ?_⟩
    simpa using hskip ('\x7d' :: tail)
  | @next cs rest m members h hrest =>
    obtain ⟨c, more, hm, hc, -, hskip⟩ := h.skipSpace (hkeys m List.mem_cons_self)
    refine ⟨c, more ++ ',' :: rest, .next hm hrest, hc, ?_⟩
    simpa using hskip (',' :: (rest ++ tail))

/-- The value of a line is read up to what closes it. -/
theorem takeValue_spells (h : SpellsValue cs v) (hv : Settable v) (hrest : Closes rest)
    {fuel : Nat} (hfuel : cs.length + 2 < fuel) :
    takeValue fuel 0 (cs ++ rest) = some (v.node, rest) := by
  obtain ⟨fuel, rfl⟩ : ∃ n, fuel = n + 1 := ⟨fuel - 1, by omega⟩
  cases h with
  | scalar h =>
    refine takeScalar_spells h ?_ hrest fuel 0
    cases h <;> exact hv
  | @strings cs texts h =>
    have hlength := h.length_le
    have hitems : takeItems fuel 1 (skipLines (cs ++ rest).length (cs ++ rest)) = _ :=
      takeItems_spells h (by simp at hfuel; omega) 1 rest
    have hstring : takeString? ('[' :: (cs ++ rest)) = none := rfl
    rw [List.cons_append, takeValue.eq_def]
    simp only [hstring, if_pos (by decide : 0 + 1 < maxDepth)]
    rw [hitems, Option.map_some, ofList_strings]
    rfl
  | @table cs members h =>
    have hlength := h.length_le
    obtain ⟨c, more, hmembers, hc, hskip⟩ := h.skipSpace hv.1.2 rest
    have hpairs : takePairs fuel 1 (c :: more ++ rest) (.named []) = _ :=
      takePairs_spells hmembers (by simpa using hv.1.1) hv.1.2 hv.2 (by simp at hfuel; omega) 1 rest
    have hstring : takeString? ('\x7b' :: (cs ++ rest)) = none := rfl
    rw [List.cons_append, takeValue.eq_def]
    simp only [hstring, if_pos (by decide : 0 + 1 < maxDepth), hskip]
    split
    · rename_i heq
      obtain rfl := (List.cons.inj heq).1
      exact absurd hc (by decide)
    · rw [hpairs, Option.map_some, List.nil_append, Table.named, entryNodes_map]
      rfl

/-! ## Lines -/

/-- A line adds its member to the table at the top. -/
theorem takeLine_spells {m : String × Value} (h : SpellsMember SpellsValue cs m)
    (hkey : IsKey m.1) (hm : Settable m.2) {c : Char} {more : List Char} (hcs : cs = c :: more)
    (hc : isBare c = true) {entries : List (String × Item)} {members : List (String × Value)}
    (hnames : (entries.map Prod.fst ++ (m :: members).map Prod.fst).Nodup) {tail rest : List Char}
    (htail : Closes tail) (hend : ∀ back, Blanks back → endLine? (back ++ tail) = some rest)
    (root : Table) : takeLine ⟨root, .named entries, .top⟩ (cs ++ tail) =
      some (⟨root, .named (entries ++ [entry m]), .top⟩, rest) := by
  obtain ⟨value, back, text, hvalue, hback, hlength, htake, hskip⟩ :=
    takeKey_member h hkey SpellsValue.exists_cons tail
  have hread : takeValue (3 * text.length + 3) 0 (skipSpace text) =
      some (m.2.node, back ++ tail) := by
    rw [hskip]
    exact takeValue_spells hvalue hm (closes_blanks hback htail) (by omega)
  have hmark : ∀ d more, isBare d = false → cs ++ tail ≠ d :: more := by
    rintro d _ hd heq
    rw [hcs] at heq
    rw [(List.cons.inj heq).1, hd] at hc
    exact absurd hc (by decide)
  have hbreak : lineBreak? (cs ++ tail) = none :=
    lineBreak?.eq_3 _ (fun _ => hmark '\n' _ rfl) (fun _ => hmark '\r' _ rfl)
  rw [takeLine.eq_4 _ _ (fun _ => hmark '#' _ rfl) (fun _ => hmark '[' _ rfl)
    (fun _ => hmark '[' _ rfl), hbreak, htake]
  simp [hread, Progress.define, define_entry hnames, hend back hback]

theorem endLine?_break {lineBreak back : List Char}
    (h : lineBreak = ['\n'] ∨ lineBreak = ['\r', '\n']) (hback : Blanks back) (rest : List Char) :
    endLine? (back ++ (lineBreak ++ rest)) = some rest := by
  have hstop : Stops isSpace (lineBreak ++ rest) := by
    rcases h with rfl | rfl <;> exact stops_word rfl _
  rw [endLine?, skipSpace_blanks hback hstop]
  rcases h with rfl | rfl <;> rfl

theorem endLine?_end {back : List Char} (hback : Blanks back) :
    endLine? (back ++ []) = some [] := by
  rw [endLine?, skipSpace_blanks hback (Text.stops_nil _)]
  rfl

/-- Each line adds its member to the table at the top. -/
theorem takeAll_spells {members : List (String × Value)} (h : SpellsLines cs members)
    {entries : List (String × Item)}
    (hnames : (entries.map Prod.fst ++ members.map Prod.fst).Nodup)
    (hkeys : ∀ m ∈ members, IsKey m.1) (hmembers : ∀ m ∈ members, Settable m.2) (root : Table)
    {fuel : Nat} (hfuel : members.length < fuel) :
    takeAll fuel ⟨root, .named entries, .top⟩ cs =
      some (.named (entries ++ members.map entry)) := by
  induction h generalizing fuel entries with
  | nil =>
    obtain ⟨fuel, rfl⟩ : ∃ n, fuel = n + 1 := ⟨fuel - 1, by omega⟩
    rw [List.map_nil, List.append_nil]
    rfl
  | @last cs m h =>
    obtain ⟨fuel, rfl⟩ : ∃ n, fuel = n + 2 := ⟨fuel - 2, by simp at hfuel; omega⟩
    obtain ⟨c, more, hm, hc, -, hskip⟩ := h.skipSpace (hkeys m List.mem_cons_self)
    have hline := takeLine_spells hm (hkeys m List.mem_cons_self) (hmembers m List.mem_cons_self)
      rfl hc hnames Closes.nil (fun back => endLine?_end) root
    have hcs : skipSpace cs = c :: more := by simpa using hskip []
    rw [List.append_nil] at hline
    rw [takeAll, hcs]
    simp only [hline]
    rfl
  | @next cs lineBreak rest m members h hbreak _ ih =>
    obtain ⟨fuel, rfl⟩ : ∃ n, fuel = n + 1 := ⟨fuel - 1, by omega⟩
    obtain ⟨c, more, hm, hc, -, hskip⟩ := h.skipSpace (hkeys m List.mem_cons_self)
    have hclose : Closes (lineBreak ++ rest) := by
      rcases hbreak with rfl | rfl <;> rintro _ ⟨⟩ <;> decide
    have hline := takeLine_spells hm (hkeys m List.mem_cons_self) (hmembers m List.mem_cons_self)
      rfl hc hnames hclose (fun back hback => endLine?_break hbreak hback rest) root
    have hothers : takeAll fuel ⟨root, .named (entries ++ [entry m]), .top⟩ rest =
        some (.named (entries ++ [entry m] ++ members.map entry)) :=
      ih (by simpa [entry] using hnames) (fun m hm => hkeys m (List.mem_cons_of_mem _ hm))
        (fun m hm => hmembers m (List.mem_cons_of_mem _ hm)) (by simpa using hfuel)
    rw [takeAll, hskip, List.cons_append]
    rw [List.cons_append] at hline
    simp [hline, hothers]

theorem SpellsLines.length_le {members : List (String × Value)} (h : SpellsLines cs members)
    (hkeys : ∀ m ∈ members, IsKey m.1) : members.length ≤ cs.length := by
  induction h with
  | nil => exact Nat.zero_le _
  | last h =>
    obtain ⟨c, more, -, -, hle, -⟩ := h.skipSpace (hkeys _ List.mem_cons_self)
    exact Nat.le_trans (Nat.le_add_left 1 _) hle
  | next h _ _ ih =>
    obtain ⟨c, more, -, -, hle, -⟩ := h.skipSpace (hkeys _ List.mem_cons_self)
    have hrest := ih fun m hm => hkeys m (List.mem_cons_of_mem _ hm)
    simp only [List.length_cons, List.length_append] at hle ⊢
    omega

/-- No line begins with a mark of the byte order. -/
theorem SpellsLines.head_ne {members : List (String × Value)} (h : SpellsLines cs members)
    (hkeys : ∀ m ∈ members, IsKey m.1) (rest : List Char) : cs ≠ '\uFEFF' :: rest := by
  have hmark : ∀ {m : String × Value} {line : List Char} (tail : List Char),
      SpellsMember SpellsValue line m → IsKey m.1 → line ++ tail ≠ '\uFEFF' :: rest := by
    intro m line tail hm hkey heq
    obtain ⟨c, more, -, hc, -, hskip⟩ := hm.skipSpace hkey
    have hfirst := hskip tail
    rw [heq] at hfirst
    obtain rfl := (List.cons.inj hfirst).1
    exact absurd hc (by decide)
  cases h with
  | nil => exact nofun
  | last h => simpa using hmark [] h (hkeys _ List.mem_cons_self)
  | next h _ _ => exact hmark _ h (hkeys _ List.mem_cons_self)

/-- The document of a text has the members of its lines. -/
theorem read_spells {text : String} {members : List (String × Value)}
    (h : SpellsLines text.toList members) (hkeys : Keyed members)
    (hmembers : ∀ m ∈ members, Settable m.2) :
    read text = some (Value.object members).node := by
  have hlength := h.length_le hkeys.2
  have hall : takeAll (text.toList.length + 1) .start text.toList =
      some (.named (members.map entry)) :=
    takeAll_spells h (by simpa using hkeys.1) hkeys.2 hmembers (.named []) (by omega)
  unfold read
  split
  · exact absurd ‹_› (h.head_ne hkeys.2 _)
  · simp only [hall, Option.map_some, Table.named, entryNodes_map]
    rfl

end Rollout.Document.Toml
