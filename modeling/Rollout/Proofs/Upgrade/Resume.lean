import Rollout.Proofs.Upgrade.Steps

/-!
# An upgrade goes on where it failed

Over any number of runs, each with its own context, its own binary and any answers, an upgrade has
every stage behind it at most once and in order.

- **One run** (`Walked`): what the deeds of a run say that began at one stage and reached another.
  `Walked.hear`, `Walked.pass` and `Walked.call` are its steps, `Walk.walked` is the induction.
- **All runs** (`Told`): the accounts of runs that failed tell where the next run begins.
  `History.told` is the induction.
- **The law** (`Upgrade.resume_law`): the stages of all runs are a prefix of the order of stages,
  and each call comes after the successes of all earlier stages, in this run or in one before it.
-/

namespace Rollout

namespace Stage

theorem work_getElem? (s : Stage) (h : s ≠ .done) : work[s.rank]? = some s := by
  cases s <;> first | rfl | exact (h rfl).elim

theorem work_length : work.length = 6 := rfl

/-- The stages up to the next one are the stages before this one and this one. -/
theorem take_rank_next {s : Stage} (h : s ≠ .done) :
    work.take s.next.rank = work.take s.rank ++ [s] := by
  rw [rank_next_of_ne h, List.take_add_one, work_getElem? s h]; rfl

theorem take_ne_work {s : Stage} (h : s ≠ .done) : work.take s.rank ≠ work := by
  intro he
  have hlen := congrArg List.length he
  have := rank_lt_six h
  rw [List.length_take, work_length] at hlen
  omega

end Stage

/-! ## The order of deeds -/

/-- Each call of a stage comes after the successes of the stages before it, from the rank `low`. -/
def Deed.InOrder (low : Nat) (deeds : List Deed) : Prop :=
  ∀ before c after s, deeds = before ++ .called c :: after → c.stage? = some s →
    ∀ s' : Stage, low ≤ s'.rank → s'.rank < s.rank → ∃ d ∈ before, d.Succeeds s'

namespace Deed

theorem InOrder.nil (low : Nat) : InOrder low [] := by
  intro before c after s h
  simp at h

/-- One more deed keeps the order when it is no call, or one that the earlier deeds allow. -/
theorem InOrder.concat {low : Nat} {deeds : List Deed} (h : InOrder low deeds) {d : Deed}
    (hd : ∀ c s, d = .called c → c.stage? = some s →
      ∀ s' : Stage, low ≤ s'.rank → s'.rank < s.rank → ∃ x ∈ deeds, x.Succeeds s') :
    InOrder low (deeds ++ [d]) := by
  intro before c after s hsplit hs s' hlow hlt
  rcases List.eq_nil_or_concat after with rfl | ⟨rest, last, rfl⟩
  · obtain ⟨rfl, hc⟩ := List.append_inj' hsplit rfl
    exact hd c s (List.cons.inj hc).1 hs s' hlow hlt
  · have hsplit' : deeds ++ [d] = (before ++ .called c :: rest) ++ [last] := by
      rw [hsplit]; simp
    obtain ⟨hdeeds, -⟩ := List.append_inj' hsplit' rfl
    exact h before c rest s hdeeds hs s' hlow hlt

theorem InOrder.concat_of_not_called {low : Nat} {deeds : List Deed} (h : InOrder low deeds)
    {d : Deed} (hd : d.called? = none) : InOrder low (deeds ++ [d]) :=
  h.concat fun c s he => by rw [he] at hd; cases hd

/-- Two orders one after the other, when the first deeds have the successes that the second ones
take for granted. -/
theorem InOrder.append {low : Nat} {xs ys : List Deed} (hx : InOrder 0 xs) (hy : InOrder low ys)
    (h : ∀ s : Stage, s.rank < low → ∃ d ∈ xs, d.Succeeds s) : InOrder 0 (xs ++ ys) := by
  intro before c after s hsplit hs s' _ hlt
  rcases List.append_eq_append_iff.mp hsplit with ⟨front, rfl, hys⟩ | ⟨back, hxs, hback⟩
  · by_cases hl : s'.rank < low
    · obtain ⟨d, hd, hds⟩ := h s' hl
      exact ⟨d, List.mem_append_left _ hd, hds⟩
    · obtain ⟨d, hd, hds⟩ := hy front c after s hys hs s' (Nat.le_of_not_lt hl) hlt
      exact ⟨d, List.mem_append_right _ hd, hds⟩
  · cases back with
    | nil =>
      -- The call is the first of the second list.
      simp only [List.append_nil] at hxs
      subst hxs
      by_cases hl : s'.rank < low
      · exact h s' hl
      · obtain ⟨d, hd, -⟩ := hy [] c after s hback.symm hs s' (Nat.le_of_not_lt hl) hlt
        cases hd
    | cons b back =>
      obtain ⟨rfl, -⟩ := List.cons.inj hback
      exact hx before c back s hxs hs s' (Nat.zero_le _) hlt

end Deed

/-! ## One run -/

theorem Call.stage?_of_isCopy {c : Call} (h : c.isCopy = true) : c.stage? = some .copyBinary := by
  cases c with
  | copy => rfl
  | _ => cases h

/-- The deeds of a run with the binary `source` that began at the stage `first` and reached the
stage `s`. -/
structure Walked (first : Stage) (source : Entry) (deeds : List Deed) (s : Stage) : Prop where
  le : first.rank ≤ s.rank
  passed : deeds.filterMap Deed.passed? = (Stage.work.take s.rank).drop first.rank
  entry : (deeds.filterMap Deed.entered?).head? = some first
  last : (deeds.filterMap Deed.entered?).getLast? = some s
  behind : ∀ s' : Stage, first.rank ≤ s'.rank → s'.rank < s.rank → ∃ d ∈ deeds, d.Succeeds s'
  calls : ∀ c ∈ deeds.filterMap Deed.called?, ∃ s', c.stage? = some s' ∧ s'.rank ≤ s.rank
  order : Deed.InOrder first.rank deeds
  source : ∀ host src dst mode,
    .copy host src dst mode ∈ deeds.filterMap Deed.called? → src = source
  once : ((deeds.filterMap Deed.called?).filter Call.isCopy).length ≤
    if s.rank < Stage.copyBinary.rank then 0 else 1

namespace Walked

variable {first s : Stage} {source : Entry} {deeds : List Deed}

theorem start (first : Stage) (source : Entry) : Walked first source [.entered first] first where
  le := Nat.le_refl _
  passed := by simp [List.filterMap_cons, Deed.passed?]
  entry := rfl
  last := rfl
  behind s' h h' := by omega
  calls c hc := by simp [List.filterMap_cons, Deed.called?] at hc
  order := (Deed.InOrder.nil _).concat_of_not_called rfl
  source _ _ _ _ hc := by simp [List.filterMap_cons, Deed.called?] at hc
  once := by simp [List.filterMap_cons, Deed.called?]

/-- To hear how a wait ended changes nothing. -/
theorem hear (h : Walked first source deeds s) (w : Wait) (e : Event w) :
    Walked first source (deeds ++ [.heard w e]) s where
  le := h.le
  passed := by simpa [List.filterMap_cons, Deed.passed?] using h.passed
  entry := by simpa [List.filterMap_cons, Deed.entered?] using h.entry
  last := by simpa [List.filterMap_cons, Deed.entered?] using h.last
  behind s' h₁ h₂ := by
    obtain ⟨d, hd, hs⟩ := h.behind s' h₁ h₂
    exact ⟨d, List.mem_append_left _ hd, hs⟩
  calls c hc := h.calls c (by simpa [List.filterMap_cons, Deed.called?] using hc)
  order := h.order.concat_of_not_called rfl
  source host src dst mode hc :=
    h.source host src dst mode (by simpa [List.filterMap_cons, Deed.called?] using hc)
  once := by simpa [List.filterMap_cons, Deed.called?] using h.once

/-- A stage whose success was heard is behind the run. -/
theorem pass (h : Walked first source deeds s) (hs : s ≠ .done) (hd : ∃ d ∈ deeds, d.Succeeds s) :
    Walked first source (deeds ++ [.passed s, .entered s.next]) s.next where
  le := by rw [Stage.rank_next_of_ne hs]; exact Nat.le_succ_of_le h.le
  passed := by
    rw [Stage.take_rank_next hs, List.drop_append_of_le_length, List.filterMap_append, h.passed]
    · rfl
    · have := Stage.rank_lt_six hs
      rw [List.length_take, Stage.work_length, Nat.min_eq_left (by omega)]
      exact h.le
  entry := by rw [List.filterMap_append, List.head?_append, h.entry]; rfl
  last := by simp [List.filterMap_cons, Deed.entered?]
  behind s' h₁ h₂ := by
    rw [Stage.rank_next_of_ne hs] at h₂
    rcases Nat.lt_succ_iff_lt_or_eq.mp h₂ with h₂ | h₂
    · obtain ⟨d, hd, hs'⟩ := h.behind s' h₁ h₂
      exact ⟨d, List.mem_append_left _ hd, hs'⟩
    · obtain ⟨d, hd, hs'⟩ := hd
      exact ⟨d, List.mem_append_left _ hd, Stage.rank_injective h₂ ▸ hs'⟩
  calls c hc := by
    obtain ⟨s', hc', hs'⟩ := h.calls c (by simpa [List.filterMap_cons, Deed.called?] using hc)
    exact ⟨s', hc', by rw [Stage.rank_next_of_ne hs]; exact Nat.le_succ_of_le hs'⟩
  order := by
    have := (h.order.concat_of_not_called (d := .passed s) rfl).concat_of_not_called
      (d := .entered s.next) rfl
    simpa using this
  source host src dst mode hc :=
    h.source host src dst mode (by simpa [List.filterMap_cons, Deed.called?] using hc)
  once := by
    have := h.once
    simp only [List.filterMap_append, List.filterMap_cons, Deed.called?, List.filterMap_nil,
      List.append_nil]
    rw [Stage.rank_next_of_ne hs]
    split at this <;> split <;> omega

/-- A call of the stage that the run has reached. A run copies its binary once. -/
theorem call (h : Walked first source deeds s) {c : Call} (hc : c.stage? = some s)
    (hsrc : ∀ host src dst mode, c = .copy host src dst mode → src = source)
    (hcopy : c.isCopy = true → (deeds.filterMap Deed.called?).filter Call.isCopy = []) :
    Walked first source (deeds ++ [.called c]) s where
  le := h.le
  passed := by simpa [List.filterMap_cons, Deed.passed?] using h.passed
  entry := by simpa [List.filterMap_cons, Deed.entered?] using h.entry
  last := by simpa [List.filterMap_cons, Deed.entered?] using h.last
  behind s' h₁ h₂ := by
    obtain ⟨d, hd, hs⟩ := h.behind s' h₁ h₂
    exact ⟨d, List.mem_append_left _ hd, hs⟩
  calls c' hc' := by
    simp only [List.filterMap_append, List.mem_append] at hc'
    rcases hc' with hc' | hc'
    · exact h.calls c' hc'
    · obtain rfl : c' = c := by simpa [List.filterMap_cons, Deed.called?] using hc'
      exact ⟨s, hc, Nat.le_refl _⟩
  order := h.order.concat fun c' s' he hs' => by
    cases he
    rw [hc] at hs'
    cases hs'
    exact h.behind
  source host src dst mode hm := by
    simp only [List.filterMap_append, List.mem_append] at hm
    rcases hm with hm | hm
    · exact h.source host src dst mode hm
    · exact hsrc host src dst mode (by simpa [List.filterMap_cons, Deed.called?, eq_comm] using hm)
  once := by
    have := h.once
    simp only [List.filterMap_append, List.filter_append, List.length_append, List.filterMap_cons,
      Deed.called?, List.filterMap_nil]
    cases hi : c.isCopy with
    | false => simpa [hi] using this
    | true =>
      rw [Call.stage?_of_isCopy hi] at hc
      cases hc
      simp [hcopy hi, hi]

end Walked

theorem Progress.deeds_waiting {j : Job} {q : Position} :
    (Progress.waiting q).deeds j = ((q.wait j).call?.map Deed.called).toList := rfl

namespace Walked

variable {first s : Stage} {deeds : List Deed} {j : Job}

/-- The call of a position of the stage that the run has reached. -/
theorem wait (h : Walked first j.source deeds s) {q : Position} (hq : q.stage = s)
    (hcopy : s = .copyBinary → (deeds.filterMap Deed.called?).filter Call.isCopy = []) :
    Walked first j.source (deeds ++ (Progress.waiting q).deeds j) s := by
  rw [Progress.deeds_waiting]
  cases hc : (q.wait j).call? with
  | none => simpa using h
  | some c =>
    have hs := Position.stage_of_call hc
    rw [hq] at hs
    refine h.call hs (fun host src dst mode he => ?_) fun hi => hcopy ?_
    · subst he
      cases q <;> simp only [Position.wait, Wait.call?, Option.some.injEq, reduceCtorEq,
        Call.copy.injEq] at hc
      exact hc.2.1.symm
    · rw [Call.stage?_of_isCopy hi] at hs
      exact (Option.some.inj hs).symm

/-- A run that has not reached the copy has not called for one. -/
theorem no_copy (h : Walked first j.source deeds s) (hs : s.rank < Stage.copyBinary.rank) :
    (deeds.filterMap Deed.called?).filter Call.isCopy = [] := by
  have := h.once
  rw [if_pos hs] at this
  exact List.length_eq_zero_iff.mp (Nat.le_zero.mp this)

end Walked

/-- How a run stands beside the record `u` that it began with: where it waits, or how it ended. -/
def Progress.Fits (u v : Upgrade) : Progress → Prop
  | .waiting p => p.stage = v.current ∧ v.failed = u.failed
  | .ended (.ok ()) => v.current = .done
  | .ended (.error e) => v.current ≠ .done ∧ v.failed = some v.current ∧ v.err = some e
  | .crashed _ => True

namespace Upgrade

variable {u v : Upgrade} {j : Job} {ctx : Context} {deeds : List Deed}

theorem walked_start (m : Moment) :
    Walked u.entryStage j.source (u.startDeeds j ctx m) (u.start j ctx m).1.current ∧
      (u.start j ctx m).2.Fits u (u.start j ctx m).1 := by
  have hs := u.starts j ctx m
  unfold startDeeds
  generalize u.start j ctx m = r at hs
  cases hs with
  | waits q hq =>
    refine ⟨(Walked.start _ _).wait hq fun _ => ?_, hq, rfl⟩
    simp [List.filterMap_cons, Deed.called?]
  | halts reason hd => exact ⟨Walked.start _ _, hd, rfl, rfl⟩
  | finishes hd => rw [hd]; exact ⟨Walked.start _ _, rfl⟩

theorem walked_resume (h : Walked u.entryStage j.source deeds v.current) {p : Position}
    (hp : p.stage = v.current) (hf : v.failed = u.failed) (m : Moment) (e : Event (p.wait j))
    (he : e.IsCalm) :
    Walked u.entryStage j.source (deeds ++ v.resumeDeeds j ctx m p e)
        (v.resume j ctx m p e).1.current ∧
      (v.resume j ctx m p e).2.Fits u (v.resume j ctx m p e).1 := by
  have hm : v.Moves (p.passes j m.now e) (v.resume j ctx m p e) := Upgrade.moves hp he
  have hsucc : p.passes j m.now e = true → ∃ d ∈ deeds ++ [.heard _ e], d.Succeeds v.current :=
    fun hpass => ⟨.heard _ e, by simp, hp ▸ Position.succeeds_of_passes hpass⟩
  have hd := h.hear (p.wait j) e
  unfold resumeDeeds
  generalize p.passes j m.now e = passed at hm hsucc
  generalize v.resume j ctx m p e = r at hm
  rw [List.append_cons]
  cases hm with
  | stays q hq hl =>
    refine ⟨hd.wait hq fun hc => ?_, hq, hf⟩
    rw [hc] at hl
    rcases hl with hl | hl <;> cases hl
  | advances q hn hq =>
    have hnext := hd.pass hn (hsucc rfl)
    rw [if_pos rfl, hp, ← List.append_assoc]
    refine ⟨hnext.wait hq fun hc => ?_, hq, hf⟩
    have hrank : v.current.next.rank = 2 := by rw [hc]; rfl
    rw [Stage.rank_next_of_ne hn] at hrank
    have := hd.no_copy (by show v.current.rank < 2; omega)
    simpa [List.filterMap_cons, Deed.called?] using this
  | finishes hn =>
    have hne : v.current ≠ .done := hp ▸ p.stage_ne_done
    have hnext := hd.pass hne (hsucc rfl)
    rw [if_pos rfl, hp, ← List.append_assoc]
    rw [hn] at hnext
    exact ⟨by simpa [Progress.deeds] using hnext, rfl⟩
  | halts reason hn =>
    have hne : v.current ≠ .done := fun hc => hn (by rw [hc]; rfl)
    have hnext := hd.pass hne (hsucc rfl)
    rw [if_pos rfl, hp, ← List.append_assoc]
    exact ⟨by simpa [Progress.deeds] using hnext, hn, rfl, rfl⟩
  | fails e' =>
    exact ⟨by simpa [Progress.deeds] using hd, hp ▸ p.stage_ne_done, rfl, rfl⟩

/-- What the deeds of a run that has not crashed say, wherever it stands. -/
theorem Walk.walked {r : Upgrade × Progress} (h : Walk u j ctx deeds r)
    (hr : ∀ text, r.2 ≠ .crashed text) :
    Walked u.entryStage j.source deeds r.1.current ∧ r.2.Fits u r.1 := by
  induction h with
  | start m => exact walked_start m
  | @resume deeds v p m e _ ih =>
    obtain ⟨hw, hp, hf⟩ := ih fun text h => by cases h
    have he : e.IsCalm := by
      cases e with
      | crashed text => exact hr text rfl
      | _ => trivial
    exact walked_resume hw hp hf m e he

end Upgrade

/-! ## All runs -/

/-- What the accounts of failed runs say of the record that they left. -/
structure Told (trials : List Trial) (v : Upgrade) : Prop where
  isOpen : v.entryStage ≠ .done
  passed : trials.flatMap Trial.passed = Stage.work.take v.entryStage.rank
  behind : ∀ s : Stage, s.rank < v.entryStage.rank →
    ∃ d ∈ trials.flatMap Trial.deeds, d.Succeeds s
  order : Deed.InOrder 0 (trials.flatMap Trial.deeds)
  failed : v.failed = (trials.filterMap Trial.lastStage).getLast?

namespace Told

variable {c : Config} {timeouts : StageTimeouts} {trials : List Trial} {t : Trial} {v w : Upgrade}

theorem none (endpoint : String) (b : Backend) : Told [] (.fresh endpoint b) :=
  ⟨nofun, rfl, fun _ h => absurd h (Nat.not_lt_zero _), Deed.InOrder.nil 0, rfl⟩

/-- The stages of failed runs and of one more are those up to the stage that it reached. -/
theorem passed_walked (h : Told trials v) {source : Entry} {s : Stage}
    (hw : Walked v.entryStage source t.deeds s) :
    (trials ++ [t]).flatMap Trial.passed = Stage.work.take s.rank := by
  have ht : t.passed = (Stage.work.take s.rank).drop v.entryStage.rank := hw.passed
  rw [List.flatMap_append, h.passed, List.flatMap_singleton, ht]
  have hmin : (Stage.work.take s.rank).take v.entryStage.rank =
      Stage.work.take v.entryStage.rank := by
    rw [List.take_take, Nat.min_eq_left hw.le]
  rw [← hmin, List.take_append_drop]

theorem behind_walked (h : Told trials v) {source : Entry} {s : Stage}
    (hw : Walked v.entryStage source t.deeds s) (s' : Stage) (hs : s'.rank < s.rank) :
    ∃ d ∈ (trials ++ [t]).flatMap Trial.deeds, d.Succeeds s' := by
  rw [List.flatMap_append, List.flatMap_singleton]
  by_cases hl : s'.rank < v.entryStage.rank
  · obtain ⟨d, hd, hds⟩ := h.behind s' hl
    exact ⟨d, List.mem_append_left _ hd, hds⟩
  · obtain ⟨d, hd, hds⟩ := hw.behind s' (Nat.le_of_not_lt hl) hs
    exact ⟨d, List.mem_append_right _ hd, hds⟩

theorem order_walked (h : Told trials v) {source : Entry} {s : Stage}
    (hw : Walked v.entryStage source t.deeds s) :
    Deed.InOrder 0 ((trials ++ [t]).flatMap Trial.deeds) := by
  rw [List.flatMap_append, List.flatMap_singleton]
  exact h.order.append hw.order h.behind

/-- A run that does nothing, as one that does not find its binary, tells nothing. -/
theorem silent (h : Told trials v) (ht : t.deeds = []) (hw : w.failed = v.failed) :
    Told (trials ++ [t]) w := by
  have hentry : w.entryStage = v.entryStage := by rw [Upgrade.entryStage, hw]; rfl
  have hpassed : (trials ++ [t]).flatMap Trial.passed = trials.flatMap Trial.passed := by
    simp [Trial.passed, ht]
  have hdeeds : (trials ++ [t]).flatMap Trial.deeds = trials.flatMap Trial.deeds := by simp [ht]
  have hlast : (trials ++ [t]).filterMap Trial.lastStage = trials.filterMap Trial.lastStage := by
    simp [Trial.lastStage, ht]
  refine ⟨hentry ▸ h.isOpen, ?_, ?_, ?_, ?_⟩
  · rw [hpassed, hentry]; exact h.passed
  · rw [hdeeds, hentry]; exact h.behind
  · rw [hdeeds]; exact h.order
  · rw [hlast, hw]; exact h.failed

/-- One more failed run. -/
theorem next (h : Told trials v) (ht : Upgrade.Tries c timeouts v t w) (hf : t.isOk = false) :
    Told (trials ++ [t]) w := by
  cases ht with
  | @refused e v' result hr =>
    simp only [Upgrade.refuse, Prod.mk.injEq, Progress.ended.injEq] at hr
    obtain ⟨rfl, rfl⟩ := hr
    exact h.silent rfl rfl
  | @walked source ctx deeds v' result hwalk =>
    obtain ⟨hw, hfits⟩ := hwalk.walked fun _ => nofun
    cases result with
    | ok a => cases hf
    | error e =>
      obtain ⟨hopen, hfailed, -⟩ := hfits
      have hentry : w.entryStage = w.current := by rw [Upgrade.entryStage, hfailed]; rfl
      rw [← hentry] at hw hfailed hopen
      have hlast : Trial.lastStage ⟨.ok source, deeds, .error e⟩ = some w.entryStage := hw.last
      refine ⟨hopen, h.passed_walked hw, h.behind_walked hw, h.order_walked hw, ?_⟩
      rw [hfailed, List.filterMap_append, List.getLast?_append]
      simp [hlast]

end Told

namespace Upgrade

variable {c : Config} {timeouts : StageTimeouts} {endpoint : String} {b : Backend}
  {trials : List Trial} {t : Trial} {v w : Upgrade}

theorem History.told (h : History c timeouts (fresh endpoint b) trials v)
    (hf : ∀ x ∈ trials, x.isOk = false) : Told trials v := by
  induction h with
  | none => exact .none _ _
  | next _ ht ih =>
    exact (ih fun x hx => hf x (List.mem_append_left _ hx)).next ht (hf _ (by simp))

/-- **The law of going on.** An upgrade had some runs, all of which failed, and then one more. The
stages that succeeded in all of them are the first ones of the order of stages, and all of them when
the last run succeeds. A run that cannot open its binary makes no call and leaves the stages of the
record alone. Any other run begins at the stage where the last run failed that had its binary, or at
the first stage; where it fails, its error and its stage stand in the record and no later stage has
made a call; and it copies its binary, once at most. Over all runs each call comes after the
successes of all earlier stages. -/
theorem resume_law (h : History c timeouts (fresh endpoint b) trials v)
    (hf : ∀ x ∈ trials, x.isOk = false) (ht : Tries c timeouts v t w) :
    ((trials ++ [t]).flatMap Trial.passed <+: Stage.work ∧
      ((trials ++ [t]).flatMap Trial.passed = Stage.work ↔ t.isOk = true)) ∧
    (∀ e, t.source = .error e → t.calls = [] ∧ t.result = .error (.openSource c.src e) ∧
      w = { v with err := some (.openSource c.src e) }) ∧
    (∀ source, t.source = .ok source →
      t.firstStage = some ((trials.filterMap Trial.lastStage).getLast?.getD .initial) ∧
      (∀ e, t.result = .error e → w.err = some e ∧
        ∃ s, t.lastStage = some s ∧ w.failed = some s ∧
          ∀ call ∈ t.calls, ∃ s', call.stage? = some s' ∧ s'.rank ≤ s.rank) ∧
      (∀ host src dst mode, .copy host src dst mode ∈ t.calls → src = source) ∧
      (t.calls.filter Call.isCopy).length ≤ 1) ∧
    Deed.InOrder 0 ((trials ++ [t]).flatMap Trial.deeds) := by
  have told := h.told hf
  cases ht with
  | @refused e v' result hr =>
    simp only [refuse, Prod.mk.injEq, Progress.ended.injEq] at hr
    obtain ⟨rfl, rfl⟩ := hr
    have now := told.silent (t := ⟨.error e, [], .error (.openSource c.src e)⟩)
      (w := { v with err := some (.openSource c.src e) }) rfl rfl
    refine ⟨⟨now.passed ▸ List.take_prefix _ _, ?_⟩, ?_, nofun, now.order⟩
    · rw [now.passed]
      exact ⟨fun he => absurd he (Stage.take_ne_work now.isOpen), nofun⟩
    · intro e' he
      cases he
      exact ⟨rfl, rfl, rfl⟩
  | @walked source ctx deeds v' result hwalk =>
    obtain ⟨hw, hfits⟩ := hwalk.walked fun _ => nofun
    have hpassed := told.passed_walked (t := ⟨.ok source, deeds, result⟩) hw
    refine ⟨⟨hpassed ▸ List.take_prefix _ _, ?_⟩, nofun, ?_,
      told.order_walked (t := ⟨.ok source, deeds, result⟩) hw⟩
    · rw [hpassed]
      cases result with
      | ok a =>
        have hdone : w.current = .done := hfits
        rw [hdone]
        exact ⟨fun _ => rfl, fun _ => rfl⟩
      | error e =>
        exact ⟨fun he => absurd he (Stage.take_ne_work hfits.1), nofun⟩
    · intro source' hs
      cases hs
      refine ⟨?_, ?_, hw.source, ?_⟩
      · rw [← told.failed]
        exact hw.entry
      · intro e he
        cases he
        obtain ⟨-, hfailed, herr⟩ := hfits
        exact ⟨herr, w.current, hw.last, hfailed, hw.calls⟩
      · exact Nat.le_trans hw.once (by split <;> omega)

/-- A copy that fails after the endpoint left the pool, and a run that goes on with the copy. -/
theorem resume_law_after_copy : ∃ (t₁ t₂ : Trial) (v w : Upgrade),
    History default .standard (fresh "10.0.0.1:80" default) [t₁] v ∧ t₁.isOk = false ∧
    Tries default .standard v t₂ w ∧ t₁.passed = [.removeFromPool, .killExisting] ∧
    t₂.firstStage = some .copyBinary ∧ ([t₁] ++ [t₂]).flatMap Trial.passed = Stage.work := by
  let u : Upgrade := .fresh "10.0.0.1:80" default
  let j : Job := ⟨default, .standard, "10.0.0.1:80", default, .directory⟩
  let m : Moment := ⟨0, []⟩
  have removing : Walk u j .background _ (_, .waiting .removing) := .start m
  have looking : Walk u j .background _ (_, .waiting (.lookingUp .first)) :=
    .resume (p := .removing) m (.result (.ok ())) removing
  have copying : Walk u j .background _ (_, .waiting .copying) :=
    .resume (p := .lookingUp .first) m (.result (.ok [])) looking
  have failed : Walk u j .background _ (_, .ended (.error _)) :=
    .resume (p := .copying) m (.result (.error (.io (.code 5)))) copying
  let v : Upgrade :=
    { u with
      started := true, current := .copyBinary, failed := some .copyBinary
      err := some (.copy j.destination (.io (.code 5))) }
  have again : Walk v j .background _ (_, .waiting .copying) := .start m
  have starting : Walk v j .background _ (_, .waiting .starting) :=
    .resume (p := .copying) m (.result (.ok 0)) again
  have probing : Walk v j .background _ (_, .waiting (.probing _)) :=
    .resume (p := .starting) m (.result (.ok ())) starting
  have adding : Walk v j .background _ (_, .waiting .adding) :=
    .resume (p := .probing _) m (.result (some .healthy)) probing
  have ended : Walk v j .background _ (_, .ended (.ok ())) :=
    .resume (p := .adding) m (.result (.ok ())) adding
  have history := History.next .none (.walked failed)
  have law := resume_law history (fun x hx => by rw [List.mem_singleton.mp hx]; rfl) (.walked ended)
  exact ⟨_, _, _, _, history, rfl, .walked ended, rfl, (law.2.2.1 _ rfl).1, law.1.2.mpr rfl⟩

end Upgrade

end Rollout
