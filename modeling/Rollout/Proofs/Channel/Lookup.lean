import Rollout.Channel.Shell
import Rollout.Proofs.Text.Blank

/-!
# What a lookup found

The output of a process lookup is read as the list of process numbers that it spells, or as none.

* **One number** (`spellsPid_iff`): what spells a process number is a word, and it is read as the
  number. Numbers of 32 bits and no greater ones are spelled (`exists_readPid?_iff`).
* **The list** (`readPids_eq_ok_iff`, `exists_readPids_iff`): all words are read, in order, or
  nothing is.
* **The law** (`pids_kept`): lists survive their texts, and a text that spells none is handed on as
  it is.
-/

namespace Rollout.Shell

open Text (HasWord IsGap IsWord Spaced)

variable {cs : List Char} {pid : Pid} {pids : List Pid} {command output : String}

/-! ## One number -/

theorem readPid?_eq_some_iff : readPid? cs = some pid ↔ SpellsPid cs pid := by
  rw [readPid?, Option.map_eq_some_iff]
  constructor
  · rintro ⟨n, hn, rfl⟩
    obtain ⟨hspells, hlt⟩ := Text.Decimal.readUnsigned?_eq_some_iff.mp hn
    rw [SpellsPid, UInt32.toNat_ofNat_of_lt' hlt]
    exact hspells
  · intro h
    exact ⟨pid.toNat, Text.Decimal.readUnsigned?_eq_some_iff.mpr ⟨h, pid.toNat_lt⟩,
      UInt32.ofNat_toNat⟩

/-- What spells a process number is a word that is read as the number. -/
theorem spellsPid_iff : SpellsPid cs pid ↔ IsWord cs ∧ readPid? cs = some pid := by
  rw [readPid?_eq_some_iff]
  exact ⟨fun h => ⟨Text.isWord_of_spellsUnsigned h, h⟩, And.right⟩

/-- A word is read as a process number when it is a number of 32 bits. -/
theorem exists_readPid?_iff :
    (∃ pid, readPid? cs = some pid) ↔ ∃ n ≤ 4294967295, Text.Decimal.SpellsUnsigned cs n := by
  constructor
  · rintro ⟨pid, h⟩
    exact ⟨pid.toNat, Nat.le_sub_one_of_lt pid.toNat_lt, readPid?_eq_some_iff.mp h⟩
  · rintro ⟨n, hle, h⟩
    refine ⟨UInt32.ofNat n, readPid?_eq_some_iff.mpr ?_⟩
    rw [SpellsPid, UInt32.toNat_ofNat_of_lt' (Nat.lt_of_le_pred (by decide) hle)]
    exact h

/-! ## The list -/

/-- All members of a list are read when each of them is. -/
theorem exists_mapM_iff {α β : Type} {read : α → Option β} {as : List α} :
    (∃ bs, as.mapM read = some bs) ↔ ∀ a ∈ as, ∃ b, read a = some b := by
  induction as with
  | nil => simp
  | cons a as ih =>
    rw [List.forall_mem_cons, ← ih]
    constructor
    · rintro ⟨bs, h⟩
      obtain ⟨b, hb, bs, hbs, -⟩ :
          ∃ b, read a = some b ∧ ∃ bs', as.mapM read = some bs' ∧ b :: bs' = bs := by
        simpa [Option.bind_eq_some_iff] using h
      exact ⟨⟨b, hb⟩, bs, hbs⟩
    · rintro ⟨⟨b, hb⟩, bs, hbs⟩
      exact ⟨b :: bs, by simp [hb, hbs]⟩

theorem readPids_eq_ok (h : readPids command output = .ok pids) :
    (Text.words output.toList).mapM readPid? = some pids := by
  unfold readPids at h
  split at h
  · rename_i hpids
    rw [hpids, Except.ok.inj h]
  · cases h

theorem readPids_eq_ok_iff :
    readPids command output = .ok pids ↔ Spaced SpellsPid output.toList pids := by
  rw [← Text.mapM_words_eq_some_iff spellsPid_iff]
  refine ⟨readPids_eq_ok, fun h => ?_⟩
  rw [readPids, h]

/-- A text is read when each word in it is a number of 32 bits. -/
theorem exists_readPids_iff :
    (∃ pids, readPids command output = .ok pids) ↔
      ∀ word, HasWord output.toList word →
        ∃ n ≤ 4294967295, Text.Decimal.SpellsUnsigned word n := by
  simp only [readPids_eq_ok_iff, ← Text.mapM_words_eq_some_iff spellsPid_iff, exists_mapM_iff,
    Text.mem_words_iff, exists_readPid?_iff]

/-- What is not read is handed on with the command that it came from. -/
theorem readPids_eq_error_iff {e : ExecError} :
    readPids command output = .error e ↔
      e = .output command output ∧ ¬ ∃ pids, readPids command output = .ok pids := by
  cases h : readPids command output with
  | ok pids => exact ⟨nofun, fun he => absurd ⟨pids, rfl⟩ he.2⟩
  | error e' =>
    have he' : e' = .output command output := by
      unfold readPids at h
      split at h
      · cases h
      · exact (Except.error.inj h).symm
    rw [he', Except.error.injEq]
    exact ⟨fun he => ⟨he.symm, nofun⟩, fun he => he.1.symm⟩

/-! ## The law -/

/-- The digits of some process numbers, with the same blanks between each two, spell their list. -/
theorem spaced_intercalate {gap : String} (hgap : IsGap gap.toList) (hne : gap ≠ "")
    (pids : List Pid) :
    Spaced SpellsPid
      (gap.intercalate (pids.map fun pid => Text.Decimal.text pid.toNat)).toList pids := by
  have hspells : ∀ pid ∈ pids, SpellsPid (Nat.toDigits 10 pid.toNat) pid := fun pid _ =>
    ⟨_, Text.Decimal.spells_toDigits pid.toNat, .inl rfl⟩
  have hrow : Text.Row SpellsPid
      (gap.toList.intercalate (pids.map fun pid => Nat.toDigits 10 pid.toNat)) pids :=
    Text.row_intercalate hspells hgap (by simpa using hne)
  refine ⟨[], _, [], ?_, nofun, hrow, nofun⟩
  rw [String.toList_intercalate, List.map_map, List.nil_append, List.append_nil]
  congr 2
  funext pid
  exact String.toList_ofList

/-- **Lists of process numbers survive their texts.** The numbers of any list, with blanks between
each two, are read as the list, and so is every other text that spells it, and no other: in its
order, with whatever repeats, signs and zeros in front. A text is read exactly when each word in it
is a number of 32 bits, and it is handed on as it is when one of them is not. -/
theorem pids_kept (command : String) :
    (∀ (gap : String) (pids : List Pid), IsGap gap.toList → gap ≠ "" →
      readPids command (gap.intercalate (pids.map fun pid => Text.Decimal.text pid.toNat)) =
        .ok pids) ∧
    (∀ (output : String) (pids : List Pid),
      readPids command output = .ok pids ↔ Spaced SpellsPid output.toList pids) ∧
    (∀ output : String, (∃ pids, readPids command output = .ok pids) ↔
      ∀ word, HasWord output.toList word →
        ∃ n ≤ 4294967295, Text.Decimal.SpellsUnsigned word n) ∧
    ∀ (output : String) (e : ExecError), readPids command output = .error e ↔
      e = .output command output ∧ ∃ word, HasWord output.toList word ∧
        ¬ ∃ n ≤ 4294967295, Text.Decimal.SpellsUnsigned word n := by
  refine ⟨?_, fun output pids => readPids_eq_ok_iff, fun output => exists_readPids_iff, ?_⟩
  · intro gap pids hgap hne
    exact readPids_eq_ok_iff.mpr (spaced_intercalate hgap hne pids)
  · intro output e
    rw [readPids_eq_error_iff, exists_readPids_iff]
    simp only [not_forall, exists_prop]

/-- Blanks of any kind stand around repeated numbers, one of them with a sign and zeros in front. A
single number that is too great leaves nothing of a list. -/
theorem pids_kept_repeated :
    (IsGap "\u00a0\n".toList ∧ "\u00a0\n" ≠ "" ∧
      readPids "pidof web" ("\u00a0\n".intercalate
        (([412, 97, 412] : List Pid).map fun pid => Text.Decimal.text pid.toNat)) =
          .ok [412, 97, 412]) ∧
    (Spaced SpellsPid "\u0085 +007\u2003412\n412\t".toList [7, 412, 412] ∧
      readPids "pidof web" "\u0085 +007\u2003412\n412\t" = .ok [7, 412, 412]) ∧
    (HasWord "412 4294967296 97".toList "4294967296".toList ∧
      (¬ ∃ n ≤ 4294967295, Text.Decimal.SpellsUnsigned "4294967296".toList n) ∧
      readPids "pidof web" "412 4294967296 97" =
        .error (.output "pidof web" "412 4294967296 97")) := by
  obtain ⟨hdigits, hread, -, herror⟩ := pids_kept "pidof web"
  have hgap : IsGap "\u00a0\n".toList := by decide +kernel
  have hgapNe : "\u00a0\n" ≠ "" := by decide
  have hseven : SpellsPid ['+', '0', '0', '7'] 7 :=
    ⟨['0', '0', '7'], Text.Decimal.read?_eq_some_iff.mp (by decide), .inr rfl⟩
  have hmany : SpellsPid ['4', '1', '2'] 412 :=
    ⟨['4', '1', '2'], Text.Decimal.read?_eq_some_iff.mp (by decide), .inl rfl⟩
  have hspaced : Spaced SpellsPid "\u0085 +007\u2003412\n412\t".toList [7, 412, 412] := by
    have hwide : IsGap ['\u2003'] := by decide
    have hline : IsGap ['\n'] := by decide
    have hrow := Text.Row.cons hseven hwide nofun (.cons hmany hline nofun (.single hmany))
    exact ⟨['\u0085', ' '], _, ['\t'], by decide +kernel, by decide +kernel, hrow,
      by decide +kernel⟩
  have hlarge : Text.Decimal.Spells "4294967296".toList 4294967296 :=
    Text.Decimal.read?_eq_some_iff.mp (by decide +kernel)
  have hword : HasWord "412 4294967296 97".toList "4294967296".toList := by
    have hfront : "412 ".toList.getLast? = some ' ' := by decide +kernel
    have hback : " 97".toList.head? = some ' ' := by decide +kernel
    refine ⟨"412 ".toList, " 97".toList, by decide +kernel,
      Text.isWord_of_spellsUnsigned ⟨_, hlarge, .inl rfl⟩, ?_, ?_⟩
    · rw [hfront]
      rintro c ⟨⟩
      rfl
    · rw [hback]
      rintro c ⟨⟩
      rfl
  have hgreat : ¬ ∃ n ≤ 4294967295, Text.Decimal.SpellsUnsigned "4294967296".toList n := by
    intro h
    obtain ⟨pid, hpid⟩ := exists_readPid?_iff.mpr h
    have hnone : readPid? "4294967296".toList = none := by decide +kernel
    rw [hnone] at hpid
    cases hpid
  exact ⟨⟨hgap, hgapNe, hdigits _ _ hgap hgapNe⟩, ⟨hspaced, (hread _ _).mpr hspaced⟩, hword, hgreat,
    (herror _ _).mpr ⟨rfl, _, hword, hgreat⟩⟩

end Rollout.Shell
