import Rollout.Config.File
import Rollout.Config.Spelling
import Rollout.Proofs.Config.Text
import Rollout.Proofs.Document.Toml.Reader

/-!
# Settings files and JSON files mean the same

* **The document** (`edit_spelled`): the lines of a settings file are an edit of the document of its
  configuration, so that they are decoded to the configuration (`ofSettings_spelled`).
* **Spellings** (`exists_spelledBy`): each configuration has a spelling as settings.
* `formats_agree`: both files are loaded to the configuration, if it passes its check, and are
  refused for the same fault otherwise.
-/

namespace Rollout.Config

open Document

/-! ## The document -/

variable {c : Config} {inner lines : List (String × Value)}

/-- What is left of a transport without the options that are absent, in any order. -/
theorem edit_transport {t : Transport} (h : inner.Perm (present t.value.members)) :
    Edit Json.Holds t.shape t.value (.object inner) := by
  cases t with
  | ssh a =>
    have hpresent : ∀ m ∈ (Transport.tag, Value.string "Ssh") :: a.members,
        (!m.2.isNull) = false → ∃ shape, (m.1, shape, some m.2) ∈
          (Transport.tag, Shape.plain, none) :: SshAccess.keys := by
      obtain ⟨user, port, identity⟩ := a
      cases user <;> cases identity <;>
        simp [SshAccess.members, SshAccess.keys, Value.optional, Value.isNull, Value.nat]
    exact (Edit.leaveOut hpresent []).trans (.permute h.symm)
  | onMachine => exact .permute h.symm

/-- The one option that can be absent is the destination. -/
theorem eq_of_isNull (c : Config) (inner : List (String × Value)) :
    ∀ m ∈ c.membersWith (.object inner), m.2.isNull = true → m = ("Dst", .null) := by
  cases hdst : c.dst <;>
    simp [membersWith, value, Value.members, Value.nat, Value.strings, Value.isNull,
      Value.optional, hdst]

/-- The lines of a settings file are an edit of the document of its configuration. -/
theorem edit_spelled (hinner : inner.Perm (present c.transport.value.members))
    (hlines : lines.Perm (present (c.membersWith (.object inner)))) :
    Edit Json.Holds c.shape c.value (.object lines) := by
  obtain ⟨keys, hshape, htransport, hdst⟩ : ∃ keys, c.shape = .object false keys ∧
      ("Transport", c.transport.shape, some (Transport.ssh .standard).value) ∈ keys ∧
        ("Dst", .plain, some .null) ∈ keys := ⟨_, rfl, by simp, by simp [Value.optional]⟩
  have hinside : ∀ m ∈ c.value.members, m.1 = "Transport" → m.2 = c.transport.value := by
    simp [value, Value.members]
  have habsent : ∀ m ∈ c.membersWith (.object inner), (!m.2.isNull) = false →
      ∃ shape, (m.1, shape, some m.2) ∈ keys := by
    intro m hm hnull
    obtain rfl := eq_of_isNull c inner m hm (by simpa using hnull)
    exact ⟨_, hdst⟩
  rw [hshape]
  exact ((Edit.replace htransport (edit_transport hinner) hinside []).trans
    (Edit.leaveOut habsent [])).trans (.permute hlines.symm)

/-! ## Lines -/

/-- Whether a member can be a line of settings, and is read from JSON as it is written. -/
def IsLine (m : String × Value) : Prop := Toml.IsKey m.1 ∧ Toml.Settable m.2 ∧ m.2.Exact

section IsLine

variable {key : String} (hkey : Toml.IsKey key)
include hkey

theorem isLine_string (s : String) : IsLine (key, .string s) := ⟨hkey, trivial, trivial⟩

theorem isLine_optional (o : Option String) : IsLine (key, .optional o) := by
  cases o <;> exact ⟨hkey, trivial, trivial⟩

theorem isLine_strings (texts : List String) : IsLine (key, .strings texts) :=
  ⟨hkey, trivial, Value.exact_strings texts⟩

theorem isLine_nat {n : Nat} (h : n ≤ Toml.maxInteger) : IsLine (key, .nat n) :=
  ⟨hkey, Int.ofNat_le.mpr h, Value.exact_nat (Nat.lt_of_le_of_lt h (by decide))⟩

theorem isLine_object {members : List (String × Value)} (hnames : (members.map Prod.fst).Nodup)
    (h : ∀ m ∈ members, IsLine m ∧ Toml.Small m.2) : IsLine (key, .object members) :=
  ⟨hkey, ⟨⟨hnames, fun m hm => (h m hm).1.1⟩, fun m hm => (h m hm).2⟩,
    Value.membersExact_iff.mpr fun m hm => (h m hm).1.2.2⟩

end IsLine

theorem mem_present {members : List (String × Value)} {m : String × Value} :
    m ∈ present members ↔ m ∈ members ∧ m.2.isNull = false := by
  simp [present]

/-- What holds of members holds of those that are there, in any order. -/
theorem mem_of_present {members others : List (String × Value)} (h : others.Perm (present members))
    {m : String × Value} (hm : m ∈ others) : m ∈ members :=
  (mem_present.mp (h.mem_iff.mp hm)).1

theorem nodup_of_present {members others : List (String × Value)}
    (h : others.Perm (present members)) (hnames : (members.map Prod.fst).Nodup) :
    (others.map Prod.fst).Nodup :=
  (h.map Prod.fst).nodup_iff.mpr (hnames.sublist (List.filter_sublist.map Prod.fst))

theorem isLine_transport {t : Transport} (h : inner.Perm (present t.value.members)) :
    IsLine ("Transport", .object inner) := by
  have hmembers : (t.value.members.map Prod.fst).Nodup ∧
      ∀ m ∈ t.value.members, IsLine m ∧ Toml.Small m.2 := by
    cases t with
    | ssh a =>
      have hsmall : ∀ o, Toml.Small (.optional o) := fun o => by cases o <;> trivial
      have hport : a.port.toNat ≤ Toml.maxInteger :=
        Nat.le_of_lt (Nat.lt_of_lt_of_le a.port.toNat_lt (by decide))
      have hkind : IsLine (Transport.tag, .string "Ssh") := isLine_string (by decide) _
      simp only [Transport.value, Value.members, SshAccess.members, List.forall_mem_cons]
      exact ⟨by simp [Transport.tag], ⟨hkind, trivial⟩, ⟨isLine_optional (by decide) _, hsmall _⟩,
        ⟨isLine_nat (by decide) hport, Int.ofNat_le.mpr hport⟩,
        ⟨isLine_optional (by decide) _, hsmall _⟩, nofun⟩
    | onMachine =>
      simp only [Transport.value, Value.members, List.forall_mem_cons]
      exact ⟨by decide, ⟨isLine_string (by decide) _, trivial⟩, nofun⟩
  exact isLine_object (by decide) (nodup_of_present h hmembers.1) fun m hm =>
    hmembers.2 m (mem_of_present h hm)

theorem isLine_membersWith (hc : c.Fits) (hinner : IsLine ("Transport", .object inner)) :
    ∀ m ∈ c.membersWith (.object inner), IsLine m := by
  have hcount : ∀ n ∈ [c.concurrency, c.canaryNum, c.preconditionTimeoutSecs, c.actionTimeoutSecs,
      c.canaryCooldownSecs, c.retryDelaySecs], n.toNat ≤ Toml.maxInteger := hc
  have hword : ∀ n : UInt32, n.toNat ≤ Toml.maxInteger := fun n =>
    Nat.le_of_lt (Nat.lt_of_lt_of_le n.toNat_lt (by decide))
  simp only [List.forall_mem_cons] at hcount
  obtain ⟨hconcurrency, hcanaries, hprecondition, haction, hcooldown, hdelay, -⟩ := hcount
  simp only [membersWith, value, Value.members, List.map_cons, List.map_nil, String.reduceEq,
    if_false, if_true, List.forall_mem_cons]
  exact ⟨isLine_nat (by decide) hconcurrency, isLine_nat (by decide) hcanaries,
    isLine_nat (by decide) (hword _), isLine_string (by decide) _, isLine_string (by decide) _,
    isLine_string (by decide) _, isLine_strings (by decide) _, isLine_optional (by decide) _,
    isLine_strings (by decide) _, isLine_string (by decide) _, hinner,
    isLine_nat (by decide) hprecondition, isLine_nat (by decide) haction,
    isLine_nat (by decide) hcooldown, isLine_nat (by decide) (hword _),
    isLine_nat (by decide) hdelay, nofun⟩

theorem nodup_membersWith (v : Value) : ((c.membersWith v).map Prod.fst).Nodup := by
  have hnames : (c.membersWith v).map Prod.fst = c.value.members.map Prod.fst := by
    rw [membersWith, List.map_map]
    refine List.map_congr_left fun m _ => ?_
    simp only [Function.comp_apply]
    split <;> rfl
  rw [hnames]
  show (List.map Prod.fst _).Nodup
  simp [value, Value.members]

/-! ## Spellings -/

theorem exists_spells_optional {o : Option String} (h : (Value.optional o).isNull = false) :
    ∃ cs, Toml.SpellsScalar cs (.optional o) := by
  cases o with
  | none => cases h
  | some s =>
    obtain ⟨cs, hcs⟩ := Toml.exists_spellsString s
    exact ⟨cs, .string hcs⟩

theorem exists_spells_string (s : String) : ∃ cs, Toml.SpellsScalar cs (.string s) :=
  exists_spells_optional (o := some s) rfl

theorem exists_spells_transport (t : Transport) :
    ∃ cs, Toml.SpellsMembers cs (present t.value.members) := by
  have hmembers : present t.value.members ≠ [] ∧
      ∀ m ∈ t.value.members, m.2.isNull = false → ∃ cs, Toml.SpellsScalar cs m.2 := by
    cases t with
    | ssh a =>
      simp only [Transport.value, Value.members, SshAccess.members, List.forall_mem_cons]
      exact ⟨List.cons_ne_nil _ _, fun _ => exists_spells_string _, exists_spells_optional,
        fun _ => ⟨_, .number _⟩, exists_spells_optional, nofun⟩
    | onMachine =>
      simp only [Transport.value, Value.members, List.forall_mem_cons]
      exact ⟨List.cons_ne_nil _ _, fun _ => exists_spells_string _, nofun⟩
  refine Toml.exists_spellsMembers hmembers.1 fun m hm => ?_
  obtain ⟨hmem, hnull⟩ := mem_present.mp hm
  exact hmembers.2 m hmem hnull

/-- Each configuration has a spelling. -/
theorem exists_spelledBy (c : Config) : ∃ text, c.SpelledBy text := by
  let inner := present c.transport.value.members
  have hscalar : ∀ {v}, (∃ cs, Toml.SpellsScalar cs v) → ∃ cs, Toml.SpellsValue cs v :=
    fun ⟨cs, hcs⟩ => ⟨cs, .scalar hcs⟩
  have hstrings : ∀ texts, ∃ cs, Toml.SpellsValue cs (.strings texts) := fun texts =>
    let ⟨_, hcs⟩ := Toml.exists_spellsItems texts
    ⟨_, .strings hcs⟩
  have hnat : ∀ n, ∃ cs, Toml.SpellsValue cs (.nat n) := fun n => hscalar ⟨_, .number n⟩
  have hstring : ∀ s, ∃ cs, Toml.SpellsValue cs (.string s) := fun s =>
    hscalar (exists_spells_string s)
  obtain ⟨table, htable⟩ := exists_spells_transport c.transport
  have hvalues : ∀ m ∈ c.membersWith (.object inner), m.2.isNull = false →
      ∃ cs, Toml.SpellsValue cs m.2 := by
    simp only [membersWith, value, Value.members, List.map_cons, List.map_nil, String.reduceEq,
      if_false, if_true, List.forall_mem_cons]
    exact ⟨fun _ => hnat _, fun _ => hnat _, fun _ => hnat _, fun _ => hstring _,
      fun _ => hstring _, fun _ => hstring _, fun _ => hstrings _,
      fun h => hscalar (exists_spells_optional h), fun _ => hstrings _, fun _ => hstring _,
      fun _ => ⟨_, .table htable⟩, fun _ => hnat _, fun _ => hnat _, fun _ => hnat _,
      fun _ => hnat _, fun _ => hnat _, nofun⟩
  have hlines : ∀ m ∈ present (c.membersWith (.object inner)), ∃ cs, Toml.SpellsValue cs m.2 := by
    intro m hm
    obtain ⟨hmem, hnull⟩ := mem_present.mp hm
    exact hvalues m hmem hnull
  obtain ⟨cs, hcs⟩ := Toml.exists_spellsLines hlines
  exact ⟨String.ofList cs, inner, _, .refl _, .refl _, by rwa [String.toList_ofList]⟩

/-! ## Files -/

/-- A settings file that spells a configuration is decoded to it. -/
theorem ofSettings_spelled {text : String} (name : String) (hc : c.Fits) (h : c.SpelledBy text) :
    ofSettings name text = .ok c := by
  obtain ⟨inner, lines, hinner, hlines, htext⟩ := h
  have hmembers : ∀ m ∈ lines, IsLine m := fun m hm =>
    isLine_membersWith hc (isLine_transport hinner) m (mem_of_present hlines hm)
  have hkeys : Toml.Keyed lines :=
    ⟨nodup_of_present hlines (nodup_membersWith _), fun m hm => (hmembers m hm).1⟩
  have hread : Toml.read text = some (Value.object lines).node :=
    Toml.read_spells htext hkeys fun m hm => (hmembers m hm).2.1
  have hexact : (Value.object lines).Exact :=
    Value.membersExact_iff.mpr fun m hm => (hmembers m hm).2.2
  have hdecode : record.decode .table (Json.parsed (.object lines)) = .ok c :=
    reads rfl rfl c _ (edit_spelled hinner hlines)
  rw [ofSettings, hread]
  rw [Json.parsed_of_exact hexact] at hdecode
  simp only [hdecode]

/-- A JSON file with the text of a configuration is decoded to it. -/
theorem ofJson_compact (name : String) (c : Config) :
    ofJson name (Json.compact c.value) = .ok c := by
  have hdecode : record.decode (.streamed maxLevels) (Json.parsed c.value) = .ok c :=
    reads rfl rfl c _ (.refl _)
  rw [ofJson, Json.decode_compact _ _ c.whole, hdecode]

theorem readText_of_readBytes {files : Files} {name text : String}
    (h : files.readBytes name = .ok (Text.Utf8.bytes text)) : files.readText name = .ok text := by
  simp only [Files.readText, h, Text.Utf8.text?_eq_some.mpr rfl]

theorem load_of_readText {files : Files} {name text : String} (h : files.readText name = .ok text)
    (hc : ofText name text = .ok c) : load files name = c.check.map fun _ => c := by
  simp only [load, h, hc, bind, Except.bind, Except.map]
  cases c.check <;> rfl

/-- What is loaded has passed its check. -/
theorem check_of_load {files : Files} {name : String} (h : load files name = .ok c) :
    c.check = .ok () := by
  unfold load at h
  split at h
  · cases h
  · obtain ⟨c', -, h⟩ := exists_of_bind h
    obtain ⟨⟨⟩, hcheck, h⟩ := exists_of_bind h
    cases h
    exact hcheck

/-- Settings and JSON mean the same: a settings file that spells a configuration and a JSON file
with its text are both loaded to the configuration, if it passes its check, and are both refused for
the fault of the check otherwise. Each configuration has a spelling as settings, and nothing is
loaded that does not pass its check. -/
theorem formats_agree (c : Config) (hc : c.Fits) :
    (∃ text, c.SpelledBy text) ∧
      (∀ files name text, isSettingsFile name = true → c.SpelledBy text →
        files.readText name = .ok text → load files name = c.check.map fun _ => c) ∧
      (∀ files name, isSettingsFile name = false →
        files.readText name = .ok (Json.compact c.value) →
          load files name = c.check.map fun _ => c) ∧
      ∀ files name c', load files name = .ok c' → c'.check = .ok () := by
  refine ⟨exists_spelledBy c, ?_, ?_, fun _ _ _ => check_of_load⟩
  · intro files name text hname htext hread
    refine load_of_readText hread ?_
    rw [ofText, if_pos hname, ofSettings_spelled name hc htext]
  · intro files name hname hread
    refine load_of_readText hread ?_
    rw [ofText, if_neg (by simp [hname]), ofJson_compact]

/-- The name of a binary has quotation marks and a break, its arguments are a tab and a snowman, and
its upgrade gets as long as settings can say. Both files are loaded. -/
theorem formats_agree_quoted :
    let c : Config := { (default : Config) with
      concurrency := 1, src := "/srv/\"web\"\n", lb := "127.0.0.1:8000", pattern := "/"
      backends := ["10.0.0.1:80"], args := ["\t", "☃"], actionTimeoutSecs := 9223372036854775807 }
    c.Fits ∧ ∃ text files, c.SpelledBy text ∧
      isSettingsFile "web.toml" = true ∧ files.readText "web.toml" = .ok text ∧
      isSettingsFile "web.json" = false ∧
      files.readText "web.json" = .ok (Json.compact c.value) ∧
      load files "web.toml" = .ok c ∧ load files "web.json" = .ok c := by
  intro c
  have hfits : c.Fits := by decide
  have hcheck : c.check = .ok () := by decide +kernel
  obtain ⟨⟨text, htext⟩, hsettings, hjson, -⟩ := formats_agree c hfits
  let file := fun s => Entry.file (Text.Utf8.bytes s) 0o644
  let files : Files :=
    ⟨[(["web.toml".toList], file text), (["web.json".toList], file (Json.compact c.value))]⟩
  have htoml : files.readText "web.toml" = .ok text := readText_of_readBytes rfl
  have hvalue : files.readText "web.json" = .ok (Json.compact c.value) := readText_of_readBytes rfl
  have hload := hsettings files "web.toml" text (by decide) htext htoml
  have hload' := hjson files "web.json" (by decide) hvalue
  rw [hcheck] at hload hload'
  exact ⟨hfits, text, files, htext, by decide, htoml, by decide, hvalue, hload, hload'⟩

end Rollout.Config
