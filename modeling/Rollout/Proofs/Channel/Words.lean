import Rollout.Channel.Reading
import Rollout.Channel.Shell
import Mathlib.Data.List.Basic

/-!
# Texts stay in their words

A shell that reads what `quote` makes of a text reads one word, and the word stands for the text.

* **One word** (`Reader.run_quote`, `Shell.text_signs`): where a word may begin, a reader is behind
  the quoted text in a word, whose signs (`signs`) stand for the text.
* **Its end** (`Reader.jobs_quote`): where the word ends, all that changed is that a command or a
  redirection has one argument more.
* **Commands** (`Reader.run_arguments`): a row of quoted texts with blanks in between is read as a
  row of arguments, by induction over the row.
-/

namespace Rollout.Shell

/-! ## Characters -/

/-- What holds of all characters of ASCII, for a character of which it is asked in ASCII only. -/
theorem of_ascii {P : Char → Prop} [DecidablePred P] {c : Char} (hc : c.toNat < 128)
    (h : ∀ n < 128, P (Char.ofNat n)) : P c := by
  rw [← Char.ofNat_toNat c]
  exact h _ hc

theorem lt_of_isPlain {c : Char} (h : isPlain c = true) : c.toNat < 128 := by
  rcases Bool.or_eq_true_iff.mp h with h | h
  · have hlt {high : Char} (hle : c.val ≤ high.val) (hhigh : high.toNat < 128) : c.toNat < 128 :=
      Nat.lt_of_le_of_lt (UInt32.le_iff_toNat_le.mp hle) hhigh
    rcases (Bool.or_eq_true_iff.mp h).imp_left Bool.or_eq_true_iff.mp with (h | h) | h
    · exact hlt (of_decide_eq_true h).2 (by decide)
    · exact hlt (of_decide_eq_true (Bool.and_eq_true_iff.mp h).2) (by decide)
    · exact hlt (of_decide_eq_true (Bool.and_eq_true_iff.mp h).2) (by decide)
  · have hall : ("-_./=:@%+,".toList.all fun c => c.toNat < 128) = true := by decide
    exact of_decide_eq_true (List.all_eq_true.mp hall c (List.contains_iff_mem.mp h))

theorem meaning_of_isPlain {c : Char} (h : isPlain c = true) : meaning c = .ordinary :=
  of_ascii (P := fun c => isPlain c = true → meaning c = .ordinary) (lt_of_isPlain h)
    (by decide +kernel) h

theorem isActive_of_isPlain {c : Char} (h : isPlain c = true) : isActive c = false :=
  of_ascii (P := fun c => isPlain c = true → isActive c = false) (lt_of_isPlain h)
    (by decide +kernel) h

theorem ne_null_of_isPlain {c : Char} (h : isPlain c = true) : c ≠ '\x00' := by
  rintro rfl
  exact absurd h (by decide +kernel)

theorem isPlain_of_isDigit {c : Char} (h : c.isDigit = true) : isPlain c = true := by
  simp [isPlain, Char.isAlphanum, h]

/-! ## The signs of a quoted text -/

/-- The signs of a character between apostrophes. -/
def quotedSigns (c : Char) : Word :=
  if c = '\x27' then [.mark, .mark, .quoted c, .mark] else [.quoted c]

/-- The signs of a quoted text. -/
def signs (cs : List Char) : Word :=
  if !cs.isEmpty && cs.all isPlain then cs.map .plain
  else .mark :: (cs.flatMap quotedSigns ++ [.mark])

theorem char_quotedSigns (c : Char) : (quotedSigns c).filterMap Sign.char? = [c] := by
  unfold quotedSigns
  split <;> rfl

theorem isActive_quotedSigns (c : Char) : (quotedSigns c).any Sign.isActive = false := by
  unfold quotedSigns
  split <;> rfl

/-- The signs of a quoted text stand for the text. -/
theorem text_signs (s : String) : Word.text? (signs s.toList) = some s := by
  have hactive : (signs s.toList).any Sign.isActive = false := by
    unfold signs
    split
    · rename_i hplain
      rw [List.any_map, List.any_eq_false]
      intro c hc
      have hc := List.all_eq_true.mp (Bool.and_eq_true_iff.mp hplain).2 c hc
      simp [Sign.isActive, isActive_of_isPlain hc]
    · rw [List.any_cons, List.any_append, List.any_flatMap, List.any_eq_false.mpr]
      · rfl
      · intro c _
        simp [isActive_quotedSigns c]
  have hchars : (signs s.toList).filterMap Sign.char? = s.toList := by
    unfold signs
    split
    · rw [List.filterMap_map]
      exact List.filterMap_some
    · rw [List.filterMap_cons, List.filterMap_append, List.filterMap_flatMap]
      simp [Sign.char?, char_quotedSigns]
  rw [Word.text?, hactive, hchars, String.ofList_toList]
  rfl

/-- A quoted text is written as digits only when it is a row of digits. -/
theorem isNumber_signs (cs : List Char) :
    Word.isNumber (signs cs) = (!cs.isEmpty && cs.all Char.isDigit) := by
  unfold signs
  split
  · rw [Word.isNumber, List.isEmpty_map, List.all_map]
    rfl
  · rename_i hplain
    have hdigits : ¬ (!cs.isEmpty && cs.all Char.isDigit) = true := by
      intro hdigits
      obtain ⟨hne, hall⟩ := Bool.and_eq_true_iff.mp hdigits
      refine hplain (Bool.and_eq_true_iff.mpr ⟨hne, List.all_eq_true.mpr fun c hc => ?_⟩)
      exact isPlain_of_isDigit (List.all_eq_true.mp hall c hc)
    rw [Bool.not_eq_true] at hdigits
    rw [hdigits]
    rfl

/-! ## Reading a quoted text -/

namespace Parse

variable {p : Parse}

/-- A quoted text is an argument wherever one may stand. -/
theorem word_signs (h : p.takesArgument = true) (s : String) :
    p.word (signs s.toList) = some (p.argument s) := by
  rw [word, h, text_signs]
  rfl

end Parse

namespace Reader

variable {p : Parse} {r r' : Reader}

theorem run_append (r : Reader) (cs ds : List Char) :
    r.run (cs ++ ds) = (r.run cs).bind (run · ds) := by
  induction cs generalizing r with
  | nil => rfl
  | cons c cs ih =>
    rw [List.cons_append, run, run]
    cases r.step c with
    | none => rfl
    | some r => exact ih r

theorem jobs_append {cs : List Char} (h : r.run cs = some r') (ds : List Char) :
    r.jobs? (cs ++ ds) = r'.jobs? ds := by
  rw [jobs?, run_append, h]
  rfl

/-- Plain characters in a word go on with it. -/
theorem run_plain (w : Word) {cs : List Char} (h : ∀ c ∈ cs, isPlain c = true) :
    run ⟨.word w, p⟩ cs = some ⟨.word (w ++ cs.map .plain), p⟩ := by
  induction cs generalizing w with
  | nil => simp [run]
  | cons c cs ih =>
    have hc := h c List.mem_cons_self
    have hstep : step ⟨.word w, p⟩ c = some ⟨.word (w ++ [.plain c]), p⟩ := by
      simp only [step, if_neg (ne_null_of_isPlain hc), inWord, meaning_of_isPlain hc]
    rw [run, hstep]
    show run _ cs = _
    rw [ih _ fun c hc => h c (List.mem_cons_of_mem _ hc)]
    simp

/-- What stands for a character between apostrophes leads back between them. -/
theorem run_quotedChar (w : Word) {c : Char} (h : c ≠ '\x00') :
    run ⟨.apostrophes w, p⟩ (quotedChar c) = some ⟨.apostrophes (w ++ quotedSigns c), p⟩ := by
  unfold quotedChar quotedSigns
  by_cases hc : c = '\x27'
  · rw [if_pos hc, if_pos hc, hc]
    -- The apostrophe ends the quotes, stands behind a backslash, and begins them anew.
    simp [run, step, inWord, behindBackslash, meaning]
  · rw [if_neg hc, if_neg hc]
    simp [run, step, h, hc]

theorem run_quotedChars (w : Word) {cs : List Char} (h : '\x00' ∉ cs) :
    run ⟨.apostrophes w, p⟩ (cs.flatMap quotedChar) =
      some ⟨.apostrophes (w ++ cs.flatMap quotedSigns), p⟩ := by
  induction cs generalizing w with
  | nil => simp [run]
  | cons c cs ih =>
    rw [List.mem_cons, not_or] at h
    rw [List.flatMap_cons, run_append, run_quotedChar w (Ne.symm h.1), Option.bind_some, ih _ h.2,
      List.flatMap_cons, List.append_assoc]

/-- No operator goes on with a character that is none itself; the one that takes a dash has a text
of its own behind it. -/
theorem extend?_eq_none {o : Operator} {c : Char} (h : ∀ o, meaning c ≠ .operator o)
    (ho : o ≠ .hereText) : o.extend? c = none := by
  unfold Operator.extend?
  split
  case h_11 => rfl
  case h_10 => exact absurd rfl ho
  all_goals exact absurd rfl (h _)

/-- Where a word may begin, a character that is no operator is read as between words. -/
theorem step_place {c : Char} (hp : r.place? = some p) (hnull : c ≠ '\x00')
    (h : ∀ o, meaning c ≠ .operator o) : r.step c = between p c := by
  obtain ⟨mode, parse⟩ := r
  rw [step, if_neg hnull]
  cases mode with
  | between =>
    cases hp
    rfl
  | operator o number =>
    have ho : o ≠ .hereText := by
      rintro rfl
      cases hp
    have hp : parse.operator o number = some p := hp
    simp only [extend?_eq_none h ho, hp]
    rfl
  | _ => cases hp

/-- Where a word may begin, a quoted text is read as a word. -/
theorem run_quote (hp : r.place? = some p) {cs : List Char} (h : '\x00' ∉ cs) :
    r.run (quoteChars cs) = some ⟨.word (signs cs), p⟩ := by
  unfold quoteChars signs
  split
  · rename_i hplain
    obtain ⟨hne, hall⟩ := Bool.and_eq_true_iff.mp hplain
    cases cs with
    | nil => cases hne
    | cons c cs =>
      have hall := List.all_eq_true.mp hall
      have hc := hall c List.mem_cons_self
      have hmeaning := meaning_of_isPlain hc
      have hstep : r.step c = some ⟨.word [.plain c], p⟩ := by
        rw [step_place hp (ne_null_of_isPlain hc) (by simp [hmeaning]), between, hmeaning]
      rw [run, hstep]
      exact run_plain _ fun c hc => hall c (List.mem_cons_of_mem _ hc)
  · have hstep : r.step '\x27' = some ⟨.apostrophes [.mark], p⟩ := by
      rw [step_place hp (by decide) (by simp [meaning])]
      rfl
    rw [run, hstep]
    show run _ _ = _
    rw [run_append, run_quotedChars _ h]
    rfl

end Reader

/-- Whether a word with a text ends in front of the rest of a text: the rest is empty or begins with
a blank, the end of a line or an operator. Digits right in front of `<` and `>` are no word. -/
def Ends (s : String) (rest : List Char) : Prop :=
  ∀ c ∈ rest.head?,
    match meaning c with
    | .blank | .lineEnd => True
    | .operator o => Reader.takesNumber o = true → ¬ (s ≠ "" ∧ s.toList.all Char.isDigit = true)
    | _ => False

namespace Reader

variable {p : Parse} {r r' : Reader}

/-- Where the word of a quoted text ends, the reader is between words with one argument more. -/
theorem jobs_signs (hp : p.takesArgument = true) {s : String} {rest : List Char}
    (h : Ends s rest) :
    jobs? ⟨.word (signs s.toList), p⟩ rest = jobs? ⟨.between, p.argument s⟩ rest := by
  have hword := Parse.word_signs hp s
  cases rest with
  | nil =>
    simp only [jobs?, run, finish, hword, Option.bind_eq_bind, Option.bind_some]
  | cons c rest =>
    have hstep : step ⟨.word (signs s.toList), p⟩ c = step ⟨.between, p.argument s⟩ c := by
      have hends := h c rfl
      simp only [step, inWord, hword]
      split
      · rfl
      · split at hends
        · rename_i hc
          rw [hc]
          rfl
        · rename_i hc
          rw [hc]
          rfl
        · rename_i o hc
          have hnumber : ¬ (takesNumber o && Word.isNumber (signs s.toList)) = true := by
            rw [isNumber_signs, Bool.and_eq_true_iff, Bool.and_eq_true_iff]
            rintro ⟨ho, hne, hall⟩
            refine hends ho ⟨?_, hall⟩
            rintro rfl
            exact absurd hne (by decide +kernel)
          rw [hc]
          exact if_neg hnumber
        · exact hends.elim
    rw [jobs?, jobs?, run, run, hstep]

theorem jobs_blank (p : Parse) (rest : List Char) :
    jobs? ⟨.between, p⟩ (' ' :: rest) = jobs? ⟨.between, p⟩ rest := rfl

/-- Where an argument may stand, a quoted text is read as the argument. -/
theorem jobs_quote (hplace : r.place? = some p) (hp : p.takesArgument = true) {s : String}
    (hs : '\x00' ∉ s.toList) {rest : List Char} (h : Ends s rest) :
    r.jobs? ((quote s).toList ++ rest) = jobs? ⟨.between, p.argument s⟩ rest := by
  rw [quote, String.toList_ofList, jobs_append (run_quote hplace hs), jobs_signs hp h]

/-! ## Reading a command -/

/-- Behind a word, a blank and a quoted text a reader is behind the next word. -/
theorem run_argument {w : Word} {q : Parse} (hw : p.word w = some q) {s : String}
    (hs : '\x00' ∉ s.toList) :
    run ⟨.word w, p⟩ (' ' :: quoteChars s.toList) = some ⟨.word (signs s.toList), q⟩ := by
  have hstep : step ⟨.word w, p⟩ ' ' = some ⟨.between, q⟩ := by
    show (do between (← p.word w) ' ') = _
    rw [hw]
    rfl
  rw [run, hstep]
  exact run_quote rfl hs

/-- Behind a word of a command, a row of quoted texts is read as a row of arguments. -/
theorem run_arguments {w : Word} {q : Parse} (hw : p.word w = some q)
    (hq : q.pending = none) (hname : q.command.words ≠ []) {args : List String}
    (h : ∀ s ∈ args, '\x00' ∉ s.toList) :
    ∃ p' w', run ⟨.word w, p⟩ (args.flatMap fun s => ' ' :: quoteChars s.toList) =
        some ⟨.word w', p'⟩ ∧
      p'.word w' = some { q with command := ⟨q.command.words ++ args, q.command.redirects⟩ } := by
  induction args generalizing p w q with
  | nil => exact ⟨p, w, rfl, by simpa using hw⟩
  | cons s args ih =>
    have hs := h s List.mem_cons_self
    have htakes : q.takesArgument = true := by
      cases hwords : q.command.words with
      | nil => exact absurd hwords hname
      | cons _ _ => simp [Parse.takesArgument, hwords]
    have hargument : q.argument s =
        { q with command := ⟨q.command.words ++ [s], q.command.redirects⟩ } := by
      rw [Parse.argument, hq]
    obtain ⟨p', w', hrun, hread⟩ := ih (Parse.word_signs htakes s) (by rw [hargument]; exact hq)
      (by rw [hargument]; simp) fun s hs => h s (List.mem_cons_of_mem _ hs)
    refine ⟨p', w', ?_, ?_⟩
    · rw [List.flatMap_cons, run_append, run_argument hw hs, Option.bind_some, hrun]
    · rw [hread, hargument]
      simp

end Reader

/-! ## The commands -/

/-- The text of a row of quoted words with blanks in between. -/
theorem toList_row (name : String) (args : List String) :
    (" ".intercalate (name :: args.map quote)).toList =
      name.toList ++ args.flatMap fun s => ' ' :: quoteChars s.toList := by
  rw [String.toList_intercalate]
  induction args generalizing name with
  | nil => simp
  | cons s args ih =>
    have ih := ih (quote s)
    rw [List.map_cons] at ih
    rw [List.map_cons, List.map_cons, List.map_cons, List.intercalate_cons_cons, ih, quote,
      String.toList_ofList]
    simp

/-- A text of plain characters is quoted by itself. -/
theorem toList_quote {s : String} (hne : s.toList ≠ []) (h : ∀ c ∈ s.toList, isPlain c = true) :
    (quote s).toList = s.toList := by
  rw [quote, String.toList_ofList, quoteChars, if_pos]
  rw [Bool.and_eq_true_iff, List.all_eq_true]
  exact ⟨by simpa using hne, h⟩

theorem ends_blank (s : String) (rest : List Char) : Ends s (' ' :: rest) := by
  rintro c ⟨⟩
  trivial

theorem ends_nil (s : String) : Ends s [] := nofun

/-- A start is one job in the background whose output and complaints go nowhere. -/
theorem read?_detached {program : String} {args : List String} (hprogram : '\x00' ∉ program.toList)
    (hargs : ∀ s ∈ args, '\x00' ∉ s.toList) :
    read? (detached program args) =
      some [⟨[], [⟨"nohup" :: program :: args,
        [⟨1, .output, "/dev/null"⟩, ⟨2, .duplicate, "1"⟩]⟩], true⟩] := by
  have htext : (detached program args).toList =
      "nohup".toList ++ ((program :: args).flatMap fun s => ' ' :: quoteChars s.toList) ++
        " > /dev/null 2>&1 &".toList := by
    rw [detached, String.toList_append, ← List.map_cons, toList_row]
  obtain ⟨w, hrun, hw⟩ : ∃ w, Reader.start.run "nohup".toList = some ⟨.word w, .start⟩ ∧
      Parse.start.word w = some { Parse.start with command := ⟨["nohup"], []⟩ } :=
    ⟨"nohup".toList.map .plain, by decide +kernel, by decide +kernel⟩
  have hall : ∀ s ∈ program :: args, '\x00' ∉ s.toList := by
    intro s hs
    rcases List.mem_cons.mp hs with rfl | hs
    · exact hprogram
    · exact hargs s hs
  obtain ⟨p, w', hargs, hread⟩ := Reader.run_arguments hw rfl (by decide) hall
  rw [read?, htext, List.append_assoc, Reader.jobs_append hrun, Reader.jobs_append hargs]
  -- Behind the first blank the words are taken, and the rest has none of the texts in it.
  have htail : " > /dev/null 2>&1 &".toList = ' ' :: "> /dev/null 2>&1 &".toList := by
    decide +kernel
  have hstep : Reader.step ⟨.word w', p⟩ ' ' = some ⟨.between,
      { Parse.start with command := ⟨"nohup" :: program :: args, []⟩ }⟩ := by
    show (do Reader.between (← p.word w') ' ') = _
    rw [hread]
    rfl
  rw [htail, Reader.jobs?, Reader.run, hstep]
  rfl

/-- A lookup is one command with the name as its only argument. -/
theorem read?_lookup {name : String} (h : '\x00' ∉ name.toList) :
    read? (lookup name) = some [⟨[], [⟨["pidof", name], []⟩], false⟩] := by
  have hrun : Reader.start.run "pidof ".toList =
      some ⟨.between, { Parse.start with command := ⟨["pidof"], []⟩ }⟩ := by
    decide +kernel
  have hquote := Reader.jobs_quote
    (r := ⟨.between, { Parse.start with command := ⟨["pidof"], []⟩ }⟩) rfl rfl h (ends_nil name)
  rw [List.append_nil] at hquote
  rw [read?, lookup, String.toList_append, Reader.jobs_append hrun, hquote]
  rfl

theorem isPlain_octalText (mode : Nat) :
    ∀ c ∈ (Text.Decimal.octalText mode).toList, isPlain c = true := by
  intro c hc
  rw [Text.Decimal.octalText, String.toList_ofList] at hc
  exact isPlain_of_isDigit (Nat.isDigit_of_mem_toDigits (by decide) (by decide) hc)

theorem octalText_ne_nil (mode : Nat) : (Text.Decimal.octalText mode).toList ≠ [] := by
  rw [Text.Decimal.octalText, String.toList_ofList]
  exact Nat.toDigits_ne_nil

/-- A copy writes to its file and, when that succeeded, sets the mode of the same file. -/
theorem read?_receive {dst : String} (h : '\x00' ∉ dst.toList) (mode : Nat) :
    read? (receive dst mode) =
      some [⟨[([⟨["cat"], [⟨1, .output, dst⟩]⟩], .ifSucceeded)],
        [⟨["chmod", Text.Decimal.octalText mode, dst], []⟩], false⟩] := by
  have htext : (receive dst mode).toList = "cat > ".toList ++ ((quote dst).toList ++
      (" && chmod ".toList ++ ((quote (Text.Decimal.octalText mode)).toList ++
        (' ' :: ((quote dst).toList ++ []))))) := by
    have hblank : " ".toList = [' '] := by decide +kernel
    simp [receive, toList_quote (octalText_ne_nil mode) (isPlain_octalText mode), hblank]
  have hoctal : '\x00' ∉ (Text.Decimal.octalText mode).toList := fun hc =>
    ne_null_of_isPlain (isPlain_octalText mode _ hc) rfl
  have hcat : Reader.start.run "cat > ".toList = some ⟨.between,
      { Parse.start with command := ⟨["cat"], []⟩, pending := some (1, .output) }⟩ := by
    decide +kernel
  have hblank : " && chmod ".toList = ' ' :: "&& chmod ".toList := by decide +kernel
  rw [read?, htext, Reader.jobs_append hcat, Reader.jobs_quote rfl rfl h]
  · have hchmod : Reader.run ⟨.between, Parse.argument
        { Parse.start with command := ⟨["cat"], []⟩, pending := some (1, .output) } dst⟩
          " && chmod ".toList =
        some ⟨.between, { Parse.start with
          linked := [([⟨["cat"], [⟨1, .output, dst⟩]⟩], .ifSucceeded)]
          command := ⟨["chmod"], []⟩ }⟩ := rfl
    rw [Reader.jobs_append hchmod, Reader.jobs_quote rfl rfl hoctal (ends_blank _ _),
      Reader.jobs_blank, Reader.jobs_quote rfl rfl h (ends_nil dst)]
    rfl
  · rw [hblank]
    exact ends_blank _ _

/-- The streams of a start: output and complaints go nowhere, all others stay. -/
theorem streams_detached (words : List String) (n : Nat) :
    Command.streams ⟨words, [⟨1, .output, "/dev/null"⟩, ⟨2, .duplicate, "1"⟩]⟩ n =
      if n = 1 ∨ n = 2 then .file "/dev/null" else .shells n := by
  have hone : Text.Decimal.read? ['1'] = some 1 := by decide
  by_cases h₂ : n = 2
  · simp [Command.streams, Redirect.apply, h₂, hone]
  · simp [Command.streams, Redirect.apply, h₂]

/-- **No text escapes its word.** Behind any text where an argument or the target of a redirection
may begin, a shell reads a quoted text that ends there as that one argument, whatever follows. So it
reads each command that goes to a target as what the command is meant to be: one job in the
background with the program and its arguments, whose output and complaints go nowhere; a copy to a
file whose mode is set when the copy succeeded; and a lookup of one name. -/
theorem words_kept :
    (∀ (before rest : List Char) (r : Reader) (p : Parse) (s : String),
      Reader.start.run before = some r → r.place? = some p → p.takesArgument = true →
        '\x00' ∉ s.toList → Ends s rest →
        Reader.start.jobs? (before ++ ((quote s).toList ++ rest)) =
          Reader.jobs? ⟨.between, p.argument s⟩ rest) ∧
    (∀ (program : String) (args : List String), '\x00' ∉ program.toList →
      (∀ s ∈ args, '\x00' ∉ s.toList) →
        ∃ c : Command, read? (detached program args) = some [⟨[], [c], true⟩] ∧
          c.words = "nohup" :: program :: args ∧
          ∀ n, c.streams n = if n = 1 ∨ n = 2 then .file "/dev/null" else .shells n) ∧
    (∀ (dst : String) (mode : Nat), '\x00' ∉ dst.toList →
      read? (receive dst mode) =
        some [⟨[([⟨["cat"], [⟨1, .output, dst⟩]⟩], .ifSucceeded)],
          [⟨["chmod", Text.Decimal.octalText mode, dst], []⟩], false⟩]) ∧
    ∀ name : String, '\x00' ∉ name.toList →
      read? (lookup name) = some [⟨[], [⟨["pidof", name], []⟩], false⟩] := by
  refine ⟨?_, ?_, ?_, ?_⟩
  · intro before rest r p s hbefore hplace hp hs hends
    rw [Reader.jobs_append hbefore, Reader.jobs_quote hplace hp hs hends]
  · intro program args hprogram hargs
    exact ⟨_, read?_detached hprogram hargs, rfl, streams_detached _⟩
  · intro dst mode hdst
    exact read?_receive hdst mode
  · intro name hname
    exact read?_lookup hname

theorem words_kept_apostrophe :
    ('\x00' ∉ "it's $(x)\n#".toList ∧ Ends "it's $(x)\n#" ">2".toList ∧
      Reader.start.jobs? ("echo 1 ".toList ++ ((quote "it's $(x)\n#").toList ++ ">2".toList)) =
        some [⟨[], [⟨["echo", "1", "it's $(x)\n#"], [⟨1, .output, "2"⟩]⟩], false⟩]) ∧
    ('\x00' ∉ "/opt/web 'b'".toList ∧ (∀ s ∈ ["2", "", "~"], '\x00' ∉ s.toList) ∧
      ∃ c : Command, read? (detached "/opt/web 'b'" ["2", "", "~"]) = some [⟨[], [c], true⟩] ∧
        c.words = ["nohup", "/opt/web 'b'", "2", "", "~"]) := by
  have hs : '\x00' ∉ "it's $(x)\n#".toList := by decide +kernel
  have hends : Ends "it's $(x)\n#" ">2".toList := by
    have htext : ">2".toList = ['>', '2'] := by decide +kernel
    rw [htext]
    rintro c ⟨⟩ - ⟨-, hdigits⟩
    exact absurd hdigits (by decide +kernel)
  have hbefore : Reader.start.run "echo 1 ".toList =
      some ⟨.between, { Parse.start with command := ⟨["echo", "1"], []⟩ }⟩ := by
    decide +kernel
  have hprogram : '\x00' ∉ "/opt/web 'b'".toList := by decide +kernel
  have hargs : ∀ s ∈ ["2", "", "~"], '\x00' ∉ s.toList := by decide +kernel
  refine ⟨⟨hs, hends, ?_⟩, hprogram, hargs, ?_⟩
  · rw [words_kept.1 _ _ _ _ _ hbefore rfl rfl hs hends]
    decide +kernel
  · obtain ⟨c, hread, hwords, -⟩ := words_kept.2.1 _ _ hprogram hargs
    exact ⟨c, hread, hwords⟩

end Rollout.Shell
