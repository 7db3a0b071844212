import Rollout.Health.Schedule
import Rollout.Proofs.Time

/-!
# The watch keeps its schedule

* **Ends** (`Round.ends_start`): a round comes to an end, by induction over the pools, the members
  and the checks that it has still to do.
* **Logs** (`Log.Regular.append`): what has to hold of marks for them to stand at the end of a
  regular log.
* **The schedule** (`Log.Tracks`): a log tells what its watch is doing. There is a lemma for each
  thing that can happen, from `Log.Tracks.append`; one step keeps this (`Vigil.Step.tracks`), and
  any run has it by induction.
* **Time** (`Vigil.run_passTo`): what takes place while time passes is a run.
-/

namespace Rollout

/-! ## Ends -/

namespace Round

variable {t : Table} {pattern : String} {checks : HealthChecks}

/-- The members that are left behind a member are fewer. -/
theorem length_of_visitMembers {bs rest : List Backend} {after : Table} {b : Backend}
    {check : StatusCheck} {later : List StatusCheck}
    (h : visitMembers pattern checks t bs = (after, some (b, check, later, rest))) :
    rest.length < bs.length := by
  induction bs generalizing t with
  | nil => cases h
  | cons member bs ih =>
    unfold visitMembers at h
    split at h
    · exact Nat.lt_succ_of_lt (ih h)
    · cases h
      exact Nat.lt_succ_self _

/-- Behind a member a round ends, where it does so at fewer members and from the next pool on. -/
theorem ends_conclude {p : PendingProbe}
    (hnext : ∀ t interval, Ends (visitPools t interval p.patterns).2)
    (hfewer : ∀ p' : PendingProbe, p'.patterns = p.patterns →
      p'.backends.length < p.backends.length → Ends (.probing p')) (t : Table) (healthy : Bool) :
    Ends (conclude t p healthy).2 := by
  unfold conclude
  split
  · exact hnext _ _
  · rename_i hvisit
    exact hfewer _ rfl (length_of_visitMembers hvisit)

/-- A round ends where it does so from the next pool on. -/
theorem ends_probing {patterns : List String}
    (hnext : ∀ t interval, Ends (visitPools t interval patterns).2) (p : PendingProbe)
    (hp : p.patterns = patterns) : Ends (.probing p) := by
  -- by the number of members that are left, and for each member by its checks
  induction hn : p.backends.length using Nat.strongRecOn generalizing p with
  | ind n ihMembers =>
    have hconclude : ∀ p : PendingProbe, p.patterns = patterns → p.backends.length = n →
        ∀ t healthy, Ends (conclude t p healthy).2 := fun p hp hn =>
      ends_conclude (hp ▸ hnext) fun p' hp' hlt => ihMembers _ (hn ▸ hlt) p' (hp'.trans hp) rfl
    obtain ⟨later, hl⟩ : ∃ later, p.later = later := ⟨_, rfl⟩
    induction later generalizing p with
    | nil =>
      refine .probing fun t result => ?_
      unfold receive
      split
      · simp_all
      · exact hconclude p hp hn _ _
      · exact hconclude p hp hn _ _
    | cons check later ihChecks =>
      refine .probing fun t result => ?_
      unfold receive
      split
      · rename_i hlater
        exact ihChecks _ hp hn (List.cons.inj (hlater.symm.trans hl)).2
      · exact hconclude p hp hn _ _
      · exact hconclude p hp hn _ _

theorem ends_visitPools (interval : Option Duration) (patterns : List String) :
    Ends (visitPools t interval patterns).2 := by
  induction patterns generalizing t interval with
  | nil => exact .over _
  | cons pattern rest ih =>
    unfold visitPools
    split
    · exact ih _
    · split
      · exact ih _
      · exact ends_probing (fun _ _ => ih _) _ rfl

/-- A round that begins comes to an end. -/
theorem ends_start : Ends (start t).2 := ends_visitPools _ _

end Round

/-! ## Logs -/

namespace Watch

namespace Log

variable {log log' before after block : Log} {t : Instant} {mark : Mark}

theorem last_append (log log' : Log) : (log ++ log').last = log'.last.or log.last := by
  rw [last, List.filter_append, List.getLast?_append]
  rfl

theorem last_append_eq_none :
    (log ++ log').last = none ↔ log.last = none ∧ Log.last log' = none := by
  rw [last_append, Option.or_eq_none_iff, and_comm]

/-- The watch itself is heard last where nothing but words comes after that. -/
theorem last_of_own (hmark : mark.isOwn) (hafter : Log.last after = none) :
    (before ++ (t, mark) :: after).last = some (t, mark) := by
  rw [last_append, ← List.singleton_append, last_append, hafter]
  simp [last, hmark]

/-- A word is not of the watch itself. -/
theorem last_append_told (log : Log) (t : Instant) : (log ++ [(t, Mark.told)]).last = log.last :=
  last_append log [(t, .told)]

theorem starts_append (log log' : Log) : (log ++ log').starts = log.starts ++ log'.starts :=
  List.filterMap_append

theorem isTold_append : (log ++ log').IsTold ↔ log.IsTold ∨ log'.IsTold := by
  simp only [IsTold, List.mem_append, exists_or]

theorem isTold_append_cons (log : Log) (t : Instant) (rest : Log) :
    IsTold (log ++ (t, .told) :: rest) :=
  ⟨t, by simp⟩

/-- Where nothing was heard of the watch itself there are words only. -/
theorem eq_told_of_last (h : log.last = none) (hmem : (t, mark) ∈ log) : mark = .told := by
  rw [last, List.getLast?_eq_none_iff, List.filter_eq_nil_iff] at h
  cases mark with
  | told => rfl
  | _ => exact absurd rfl (h _ hmem)

theorem starts_of_last (h : log.last = none) : log.starts = [] := by
  rw [starts, List.filterMap_eq_nil_iff]
  rintro ⟨t, mark⟩ he
  obtain rfl := eq_told_of_last h he
  rfl

/-- Marks that fit at the end of a log, one behind the other. -/
def Continues (before : Log) : Log → Prop
  | [] => True
  | (t, mark) :: after => Fits before t after mark ∧ Continues (before ++ [(t, mark)]) after

theorem Continues.fits (h : Continues log block) (hblock : block = before ++ (t, mark) :: after) :
    Fits (log ++ before) t after mark := by
  induction before generalizing log block with
  | nil =>
    subst hblock
    simpa using h.1
  | cons e before ih =>
    subst hblock
    simpa using ih h.2 rfl

/-- A mark that fits does so with more behind it, where that is right behind a word and behind the
watch's return. -/
theorem Fits.append (h : Fits before t after mark)
    (hreturned : mark = .returned → block.last = none)
    (htold : mark = .told → block.starts = [] ∨
      before.last = none ∧ after.starts = [] ∧ ∃ t', block.starts = [t']) :
    Fits before t (after ++ block) mark := by
  have hhead : ∀ {e}, after.head? = some e → (after ++ block).head? = some e := fun h => by
    rw [List.head?_append, h, Option.some_or]
  cases mark with
  | launched => exact ⟨h.1, hhead h.2⟩
  | began => exact h
  | ended wait => exact ⟨h.1, fun htold => hhead (h.2 htold)⟩
  | returned => exact ⟨h.1, by rw [last_append, hreturned rfl, h.2]; rfl⟩
  | told =>
    refine ⟨fun t' wait hlast => (h.1 t' wait hlast).imp hhead fun h => ⟨h.1, hhead h.2⟩, ?_⟩
    rw [starts_append]
    rcases htold rfl with hblock | ⟨hlast, hafter, hblock⟩
    · simpa [hblock] using h.2
    · exact .inr (.inr ⟨_, by rw [hafter]; exact hblock.choose_spec, hlast⟩)

/-- Marks of one point of time make a regular log longer, where they fit behind it. -/
theorem Regular.append (h : log.Regular) (hblock : Continues log block)
    (htimes : ∀ e ∈ log, e.1 ≤ t) (hnow : ∀ e ∈ block, e.1 = t)
    (hreturned : ∀ t', log.last = some (t', .returned) → block.last = none)
    (htold : log.IsTold → block.starts = [] ∨
      log.last = none ∧ ∃ t', block.starts = [t']) : (log ++ block).Regular where
  ordered := by
    refine List.pairwise_append.mpr ⟨h.ordered, ?_, fun e he e' he' => ?_⟩
    · exact List.pairwise_iff_getElem.mpr fun i j hi hj _ =>
        Nat.le_of_eq ((hnow _ (List.getElem_mem hi)).trans (hnow _ (List.getElem_mem hj)).symm)
    · rw [hnow e' he']
      exact htimes e he
  fits before t' mark after hsplit := by
    rcases List.append_eq_append_iff.mp hsplit with ⟨front, rfl, hfront⟩ | ⟨middle, hlog, hmiddle⟩
    · exact hblock.fits hfront
    · cases middle with
      | nil =>
        rw [List.append_nil] at hlog
        subst hlog
        have hfits : Fits (log ++ []) t' after mark := hblock.fits hmiddle.symm
        rwa [List.append_nil] at hfits
      | cons e middle =>
        obtain ⟨rfl, rfl⟩ := List.cons.inj hmiddle
        refine (h.fits _ _ _ _ hlog).append (fun hmark => ?_) fun hmark => ?_
        · subst hmark
          refine hreturned t' ?_
          rw [hlog]
          exact last_of_own rfl (h.fits _ _ _ _ hlog).2
        · subst hmark
          have hbefore : log.IsTold := ⟨t', by simp [hlog]⟩
          refine (htold hbefore).imp_right fun ⟨hlast, hblock⟩ => ?_
          rw [hlog, ← List.singleton_append, last_append_eq_none, last_append_eq_none] at hlast
          exact ⟨hlast.1, starts_of_last hlast.2.2, hblock⟩

/-! ## The schedule -/

end Log

open Log

variable {log : Log} {now : Instant} {r : Round} {told : Bool}

/-- At the end of a round the watch waits, or it returns because it was told to. -/
theorem settle_tells (htold : told = true ↔ log.IsTold) (hlast : ∃ t, log.last = some (t, .began))
    (hends : r.Ends) {w : Watch} (hw : settle ⟨.inRound r, told⟩ now = w)
    (hclock : ∀ t wait, (t, .ended wait) ∈ endMarks now r w → t.Shows wait) :
    log.Continues (endMarks now r w) ∧ Tells (log ++ endMarks now r w) now w ∧
      Log.starts (endMarks now r w) = [] ∧ ∀ e ∈ endMarks now r w, e.1 = now := by
  rcases r with p | wait
  · subst hw
    simpa [settle, endMarks, Continues, Tells, starts] using ⟨hends, hlast, htold⟩
  · cases told with
    | true =>
      have hbefore : log.IsTold := htold.mp rfl
      subst hw
      refine ⟨⟨⟨hlast, fun _ => rfl⟩, ⟨isTold_append.mpr (.inl hbefore), rfl⟩, trivial⟩,
        ⟨isTold_append.mpr (.inl hbefore), now, ?_⟩, rfl, by simp [settle, endMarks, running]⟩
      rw [last_append]
      rfl
    | false =>
      have hbefore : ¬ log.IsTold := fun h => absurd (htold.mpr h) (by decide)
      subst hw
      have hwake : now.wakeAfter wait = now + wait.nanos :=
        (hclock now wait List.mem_cons_self).wakeAfter
      refine ⟨⟨⟨hlast, fun h => absurd h hbefore⟩, trivial⟩, ⟨?_, rfl, ⟨now, wait, ?_, hwake⟩,
        hwake ▸ Nat.le_add_right _ _⟩, rfl, by simp [settle, endMarks, running]⟩
      · rw [isTold_append]
        rintro (h | ⟨t, h⟩)
        · exact hbefore h
        · simp [endMarks, running, settle] at h
      · rw [last_append]
        rfl

/-- A round that begins fits, and so does its end if this comes at once. -/
theorem beginRound_tells {t : Table} {w : Watch} (htold : told = true ↔ log.IsTold)
    (hfits : log.last = some (now, .launched) ∨ log.IsDue now)
    (hw : (beginRound t told now).2 = w)
    (hclock : ∀ t' wait, (t', .ended wait) ∈ endMarks now (Round.start t).2 w → t'.Shows wait) :
    let marks := (now, .began) :: endMarks now (Round.start t).2 w
    log.Continues marks ∧ Tells (log ++ marks) now w ∧ Log.starts marks = [now] ∧
      ∀ e ∈ marks, e.1 = now := by
  intro marks
  have htold' : told = true ↔ IsTold (log ++ [(now, .began)]) := by
    rw [htold, isTold_append]
    simp [IsTold]
  obtain ⟨hcontinues, htells, hstarts, htimes⟩ := settle_tells htold'
    ⟨now, last_of_own rfl rfl⟩ Round.ends_start hw hclock
  refine ⟨⟨hfits, hcontinues⟩, by simpa [marks] using htells, ?_, ?_⟩
  · rw [show marks = [(now, .began)] ++ endMarks now (Round.start t).2 w from rfl, starts_append,
      hstarts]
    rfl
  · simpa [marks] using htimes

/-- A wait that ends begins a round. -/
theorem wake_waiting (t : Table) :
    wake ⟨.waiting now, told⟩ t now = beginRound t told now := if_pos (Nat.le_refl now)

section NoWait

variable {w : Watch} (hwait : ∀ until_ told, w ≠ ⟨.waiting until_, told⟩)
include hwait

theorem Log.Tells.not_ended (h : Tells log now w) (t : Instant) (wait : Duration) :
    log.last ≠ some (t, .ended wait) := by
  obtain ⟨phase, told⟩ := w
  intro hended
  cases phase with
  | inRound r =>
    obtain ⟨-, -, ⟨t', hbegan⟩, -⟩ := h
    simp [hbegan] at hended
  | waiting until_ => exact absurd rfl (hwait _ _)
  | stopped =>
    obtain ⟨-, t', hreturned⟩ := h
    simp [hreturned] at hended

/-- A watch that does not wait goes on as it was when someone speaks. -/
theorem Log.Tells.tell (h : Tells log now w) : Tells (log ++ [(now, .told)]) now w.tell := by
  obtain ⟨phase, told⟩ := w
  have hlast := last_append_told log now
  have hafter : IsTold (log ++ [(now, .told)]) := isTold_append_cons _ _ _
  cases phase with
  | inRound r =>
    obtain ⟨hends, hprobing, hbegan, -⟩ := h
    exact ⟨hends, hprobing, hlast.symm ▸ hbegan, iff_of_true rfl hafter⟩
  | waiting until_ => exact absurd rfl (hwait _ _)
  | stopped => exact ⟨hafter, hlast.symm ▸ h.2⟩

end NoWait

namespace Log.Tracks

variable {marks : Log} {s s' : Station} {t : Table} {w : Watch}

/-- Marks that fit and tell what the watch does then continue what is heard. -/
theorem append (h : Tracks log ⟨now, s⟩) (hlog : log.Regular) (hcontinues : log.Continues marks)
    (hnow : ∀ e ∈ marks, e.1 = now)
    (hreturned : ∀ t, log.last = some (t, .returned) → marks.last = none)
    (htold : log.IsTold → marks.starts = [] ∨ log.last = none ∧ ∃ t, marks.starts = [t])
    (hfresh : s'.watch = none →
      (log ++ marks).last = none ∧ (s'.told = true ↔ (log ++ marks).IsTold))
    (hwatch : ∀ w, s'.watch = some w → (log ++ marks).Tells now w) :
    (log ++ marks).Regular ∧ Tracks (log ++ marks) ⟨now, s'⟩ := by
  refine ⟨hlog.append hcontinues h.times hnow hreturned htold, ⟨fun e he => ?_, hfresh, hwatch⟩⟩
  rcases List.mem_append.mp he with he | he
  · exact h.times e he
  · exact Nat.le_of_eq (hnow e he)

/-- The same where the marks tell of a watch that was launched. -/
theorem append_watch (h : Tracks log ⟨now, s⟩) (hlog : log.Regular)
    (hcontinues : log.Continues marks) (hnow : ∀ e ∈ marks, e.1 = now)
    (hreturned : ∀ t, log.last = some (t, .returned) → marks.last = none)
    (htold : log.IsTold → marks.starts = [] ∨ log.last = none ∧ ∃ t, marks.starts = [t])
    (hwatch : s'.watch = some w) (htells : (log ++ marks).Tells now w) :
    (log ++ marks).Regular ∧ Tracks (log ++ marks) ⟨now, s'⟩ := by
  refine h.append hlog hcontinues hnow hreturned htold (fun hfresh => ?_) fun w' hw' => ?_
  · simp [hwatch] at hfresh
  · obtain rfl := Option.some.inj (hwatch.symm.trans hw')
    exact htells

/-- Time passes, but not beyond the end of a wait. -/
theorem pass {later : Instant} (h : Tracks log ⟨now, s⟩) (hle : now ≤ later)
    (hwait : ∀ until_ told, s.watch = some ⟨.waiting until_, told⟩ → later ≤ until_) :
    Tracks log ⟨later, s⟩ where
  times e he := Nat.le_trans (h.times e he) hle
  fresh := h.fresh
  watch w hw := by
    obtain ⟨phase, told⟩ := w
    cases phase with
    | waiting until_ =>
      obtain ⟨hbefore, htold, hdue, -⟩ := h.watch _ hw
      exact ⟨hbefore, htold, hdue, hwait _ _ hw⟩
    | _ => exact h.watch _ hw

/-- The watch is launched, and its first round begins. -/
theorem launch (h : Tracks log ⟨now, s⟩) (hlog : log.Regular) (hwatch : s.watch = none)
    (hmarks : marks = (now, .launched) :: (now, .began) ::
      endMarks now (Round.start s.table).2 (Watch.start s.table s.told now).2)
    (hclock : ∀ t wait, (t, .ended wait) ∈ marks → t.Shows wait) :
    (log ++ marks).Regular ∧ Tracks (log ++ marks) ⟨now, s.begin_ now⟩ := by
  subst hmarks
  obtain ⟨hlast, htold⟩ := h.fresh hwatch
  have hlaunched : s.told = true ↔ IsTold (log ++ [(now, .launched)]) := by
    rw [htold, isTold_append]
    simp [IsTold]
  obtain ⟨hcontinues, htells, hstarts, htimes⟩ := beginRound_tells hlaunched
    (.inl (last_of_own rfl rfl)) (rfl : _ = (Watch.start s.table s.told now).2)
    fun t wait hended => hclock t wait (by simp [hended])
  refine h.append_watch hlog ⟨⟨hlast, rfl⟩, hcontinues⟩ (by simpa using htimes) (by simp [hlast])
    (fun _ => .inr ⟨hlast, now, hstarts⟩) rfl ?_
  rwa [List.append_assoc] at htells

/-- A target answers the probe that the round waits for. -/
theorem answer {p : PendingProbe} {result : ProbeResult} (h : Tracks log ⟨now, s⟩)
    (hlog : log.Regular) (hwatch : s.watch = some ⟨.inRound (.probing p), told⟩)
    (hreceive : receive ⟨.inRound (.probing p), told⟩ s.table result now = (t, w))
    (hclock : ∀ t' wait,
      (t', .ended wait) ∈ endMarks now (Round.receive s.table p result).2 w → t'.Shows wait) :
    (log ++ endMarks now (Round.receive s.table p result).2 w).Regular ∧
      Tracks (log ++ endMarks now (Round.receive s.table p result).2 w)
        ⟨now, { s with table := t, watch := some w }⟩ := by
  obtain ⟨hends, -, ⟨t₀, hlast⟩, htold⟩ := h.watch _ hwatch
  have hafter : (Round.receive s.table p result).2.Ends := by
    cases hends with
    | probing hends => exact hends _ _
  obtain ⟨hcontinues, htells, hstarts, htimes⟩ := settle_tells htold ⟨t₀, hlast⟩ hafter
    (congrArg Prod.snd hreceive) hclock
  exact h.append_watch hlog hcontinues htimes (by simp [hlast]) (fun _ => .inl hstarts) rfl htells

/-- The wait is over, and the next round begins. -/
theorem wake (h : Tracks log ⟨now, s⟩) (hlog : log.Regular)
    (hwatch : s.watch = some ⟨.waiting now, told⟩)
    (hwake : Watch.wake ⟨.waiting now, told⟩ s.table now = (t, w))
    (hmarks : marks = (now, .began) :: endMarks now (Round.start s.table).2 w)
    (hclock : ∀ t' wait, (t', .ended wait) ∈ marks → t'.Shows wait) :
    (log ++ marks).Regular ∧
      Tracks (log ++ marks) ⟨now, { s with table := t, watch := some w }⟩ := by
  subst hmarks
  obtain ⟨hbefore, rfl, ⟨t₀, wait, hlast, hnow⟩, -⟩ := h.watch _ hwatch
  rw [wake_waiting] at hwake
  obtain ⟨hcontinues, htells, -, htimes⟩ := beginRound_tells
    (by simpa using hbefore) (.inr ⟨t₀, wait, hlast, hnow⟩) (congrArg Prod.snd hwake)
    fun t wait hended => hclock t wait (by simp [hended])
  exact h.append_watch hlog hcontinues htimes (by simp [hlast]) (fun htold => absurd htold hbefore)
    rfl htells

/-- Someone speaks while the watch does not wait. -/
theorem tell (h : Tracks log ⟨now, s⟩) (hlog : log.Regular)
    (hwatch : ∀ until_ told, s.watch ≠ some ⟨.waiting until_, told⟩) :
    (log ++ [(now, Mark.told)]).Regular ∧ Tracks (log ++ [(now, .told)]) ⟨now, s.tell⟩ := by
  cases hw : s.watch with
  | none =>
    obtain ⟨hlast, -⟩ := h.fresh hw
    have hword : Fits log now [] .told := ⟨fun t wait hended => by simp [hlast] at hended, .inl rfl⟩
    refine h.append hlog ⟨hword, trivial⟩ (by simp) (fun _ _ => rfl) (fun _ => .inl rfl)
      (fun _ => ⟨(last_append_told log now).trans hlast, ?_⟩) fun w' hw' => ?_
    · exact iff_of_true (by simp [Station.tell, hw]) (isTold_append_cons _ _ _)
    · simp [Station.tell, hw] at hw'
  | some w =>
    have hwait : ∀ until_ told, w ≠ ⟨.waiting until_, told⟩ := fun _ _ h => hwatch _ _ (h ▸ hw)
    have htells := h.watch _ hw
    have hword : Fits log now [] .told :=
      ⟨fun t wait hended => absurd hended (htells.not_ended hwait _ _), .inl rfl⟩
    exact h.append_watch hlog ⟨hword, trivial⟩ (by simp) (fun _ _ => rfl) (fun _ => .inl rfl)
      (by simp [Station.tell, hw]) (htells.tell hwait)

/-- Someone speaks while the watch waits, and it returns. -/
theorem heed {until_ : Instant} (h : Tracks log ⟨now, s⟩) (hlog : log.Regular)
    (hwatch : s.watch = some ⟨.waiting until_, told⟩) :
    (log ++ [(now, Mark.told), (now, Mark.returned)]).Regular ∧
      Tracks (log ++ [(now, .told), (now, .returned)]) ⟨now, s.tell⟩ := by
  obtain ⟨hbefore, -, ⟨t₀, wait, hlast, -⟩, -⟩ := h.watch _ hwatch
  have hword : Fits log now [(now, .returned)] .told := ⟨fun _ _ _ => .inl rfl, .inl rfl⟩
  have hstopped : s.tell.watch = some ⟨.stopped, true⟩ := by rw [Station.tell, hwatch]; rfl
  exact h.append_watch hlog ⟨hword, ⟨isTold_append_cons _ _ _, rfl⟩, trivial⟩ (by simp)
    (by simp [hlast]) (fun htold => absurd htold hbefore) hstopped
    ⟨isTold_append_cons _ _ _, now, last_append _ _⟩

/-- Someone speaks when the wait is over, too late for it: the next round begins all the same. -/
theorem outrun (h : Tracks log ⟨now, s⟩) (hlog : log.Regular)
    (hwatch : s.watch = some ⟨.waiting now, told⟩)
    (hwake : Watch.wake ⟨.waiting now, true⟩ s.table now = (t, w))
    (hmarks : marks = (now, .told) :: (now, .began) :: endMarks now (Round.start s.table).2 w)
    (hclock : ∀ t' wait, (t', .ended wait) ∈ marks → t'.Shows wait) :
    (log ++ marks).Regular ∧
      Tracks (log ++ marks) ⟨now, { s with table := t, watch := some w }⟩ := by
  subst hmarks
  obtain ⟨hbefore, -, ⟨t₀, wait, hlast, hnow⟩, -⟩ := h.watch _ hwatch
  rw [wake_waiting] at hwake
  have htold : true = true ↔ IsTold (log ++ [(now, .told)]) :=
    iff_of_true rfl (isTold_append_cons _ _ _)
  obtain ⟨hcontinues, htells, hstarts, htimes⟩ := beginRound_tells htold
    (.inr ⟨t₀, wait, (last_append_told log now).trans hlast, hnow⟩) (congrArg Prod.snd hwake)
    fun t wait hended => hclock t wait (by simp [hended])
  have hdue : log.IsDue now := ⟨t₀, wait, hlast, hnow⟩
  have hword : Fits log now ((now, .began) :: endMarks now (Round.start s.table).2 w) .told :=
    ⟨fun _ _ _ => .inr ⟨hdue, rfl⟩, .inr (.inl ⟨hstarts, hdue⟩)⟩
  refine h.append_watch hlog ⟨hword, hcontinues⟩ (by simpa using htimes) (by simp [hlast])
    (fun htold => absurd htold hbefore) rfl ?_
  simpa using htells

end Log.Tracks

end Watch

namespace Vigil

open Watch Watch.Log

variable {v v' : Vigil} {log marks : Watch.Log}

/-- What is heard of one thing that happens continues a regular log, which tells what the watch does
then. -/
theorem Step.tracks (hstep : Step v marks v') (h : Tracks log v) (hlog : log.Regular)
    (hclock : ∀ t wait, (t, .ended wait) ∈ marks → t.Shows wait) :
    (log ++ marks).Regular ∧ Tracks (log ++ marks) v' := by
  cases hstep with
  | pass hle hwait => exact (List.append_nil log).symm ▸ ⟨hlog, h.pass hle hwait⟩
  | edit t => exact (List.append_nil log).symm ▸ ⟨hlog, h.times, h.fresh, h.watch⟩
  | launch hwatch => exact h.launch hlog hwatch rfl hclock
  | answer result hwatch hreceive => exact h.answer hlog hwatch hreceive hclock
  | wake hwatch hwake => exact h.wake hlog hwatch hwake rfl hclock
  | tell hwatch => exact h.tell hlog hwatch
  | heed hwatch => exact h.heed hlog hwatch
  | outrun hwatch hwake => exact h.outrun hlog hwatch hwake rfl hclock

/-- The watch keeps its schedule and heeds its channel, whatever becomes of the table, whatever the
targets answer, and whenever someone speaks. The first round begins at once, and each other one when
the wait since the end of the round before it is over; behind a word there is no other one but one
that is due at that very time. The watch returns at the word or at the end of the round, and each
round ends. -/
theorem watch_schedule {start : Instant} {t : Table} (h : Run (.fresh start t) log v)
    (hclock : ∀ t wait, (t, .ended wait) ∈ log → t.Shows wait) : log.Regular ∧ log.Tracks v := by
  induction h with
  | refl =>
    refine ⟨⟨.nil, fun before t mark after h => by simp at h⟩, ⟨nofun, fun _ => ⟨rfl, ?_⟩, nofun⟩⟩
    simp [fresh, IsTold]
  | step hrun hstep ih =>
    obtain ⟨hlog, htracks⟩ := ih fun t wait hended => hclock t wait (List.mem_append_left _ hended)
    exact hstep.tracks htracks hlog fun t wait hended =>
      hclock t wait (List.mem_append_right _ hended)

theorem run_of_step (h : Step v marks v') : Run v marks v' := Run.step .refl h

section Sole

/-- A pool with one member, one check, and two seconds between rounds. -/
def soleTable (healthy : Bool) : Table :=
  ⟨[("/", ⟨.twoChoices, ⟨[⟨"/healthz", ["ok"]⟩], 2⟩, [⟨⟨.v4 ⟨10, 0, 0, 1⟩, 80⟩, healthy⟩]⟩)]⟩

/-- The one probe of its rounds. -/
def soleProbe : PendingProbe :=
  ⟨"/", ⟨[⟨"/healthz", ["ok"]⟩], 2⟩, ⟨.v4 ⟨10, 0, 0, 1⟩, 80⟩, ⟨"/healthz", ["ok"]⟩, [], [], [],
    some (.ofSecs 2)⟩

theorem start_soleTable (healthy : Bool) :
    Round.start (soleTable healthy) = (soleTable healthy, .probing soleProbe) := by
  have hpatterns : (soleTable healthy).patterns = ["/"] := List.mergeSort_singleton _
  rw [Round.start, hpatterns]
  rfl

/-- A word that comes too late at the end of a wait, and a probe that takes three seconds. -/
def soleLog : Watch.Log :=
  [(0, .launched), (0, .began), (0, .ended (.ofSecs 2)), (2000000000, .told), (2000000000, .began),
    (5000000000, .ended (.ofSecs 2)), (5000000000, .returned)]

theorem beginRound_soleTable (healthy told : Bool) (now : Instant) :
    Watch.beginRound (soleTable healthy) told now =
      (soleTable healthy, ⟨.inRound (.probing soleProbe), told⟩) := by
  rw [Watch.beginRound, start_soleTable]
  rfl

/-- The pool and its watch at a point of time. -/
def soleVigil (now : Instant) (healthy : Bool) (phase : WatchPhase) (told : Bool) : Vigil :=
  ⟨now, ⟨soleTable healthy, some ⟨phase, told⟩, false⟩⟩

theorem run_soleLog : Run (.fresh 0 (soleTable false)) soleLog
    (soleVigil 5000000000 false .stopped true) := by
  have hlaunch : Step (.fresh 0 (soleTable false)) [(0, .launched), (0, .began)]
      (soleVigil 0 false (.inRound (.probing soleProbe)) false) := by
    have h : Step ⟨0, ⟨soleTable false, none, false⟩⟩ _ _ := .launch rfl
    simp only [Station.begin_, Watch.start, start_soleTable, beginRound_soleTable] at h
    exact h
  have hfirst : Step (soleVigil 0 false (.inRound (.probing soleProbe)) false)
      [(0, .ended (.ofSecs 2))] (soleVigil 0 true (.waiting 2000000000) false) :=
    .answer (s := ⟨soleTable false, some ⟨.inRound (.probing soleProbe), false⟩, false⟩) .healthy
      rfl rfl
  have hwait : Step (soleVigil 0 true (.waiting 2000000000) false) []
      (soleVigil 2000000000 true (.waiting 2000000000) false) :=
    .pass (Nat.zero_le _) (by rintro _ _ ⟨⟩; exact Nat.le_refl _)
  have houtrun : Step (soleVigil 2000000000 true (.waiting 2000000000) false)
      [(2000000000, .told), (2000000000, .began)]
      (soleVigil 2000000000 true (.inRound (.probing soleProbe)) true) := by
    have h := Step.outrun (s := ⟨soleTable true, some ⟨.waiting 2000000000, false⟩, false⟩) rfl
      ((Watch.wake_waiting _).trans (beginRound_soleTable true true 2000000000))
    rw [start_soleTable] at h
    exact h
  have hprobe : Step (soleVigil 2000000000 true (.inRound (.probing soleProbe)) true) []
      (soleVigil 5000000000 true (.inRound (.probing soleProbe)) true) :=
    .pass (by decide) nofun
  have hsecond : Step (soleVigil 5000000000 true (.inRound (.probing soleProbe)) true)
      [(5000000000, .ended (.ofSecs 2)), (5000000000, .returned)]
      (soleVigil 5000000000 false .stopped true) :=
    .answer (s := ⟨soleTable true, some ⟨.inRound (.probing soleProbe), true⟩, false⟩) .failed
      rfl rfl
  exact (((((run_of_step hlaunch).step hfirst).step hwait).step houtrun).step hprobe).step hsecond

theorem watch_schedule_soleTable :
    (∀ t wait, (t, .ended wait) ∈ soleLog → t.Shows wait) ∧ soleLog.Regular ∧
      soleLog.last = some (5000000000, .returned) := by
  have hclock : ∀ t wait, (t, .ended wait) ∈ soleLog → t.Shows wait := by
    intro t wait h
    simp only [soleLog, List.mem_cons, Prod.mk.injEq, Watch.Mark.ended.injEq, reduceCtorEq,
      and_false, false_or, List.not_mem_nil, or_false] at h
    obtain ⟨rfl, rfl⟩ | ⟨rfl, rfl⟩ := h
    · exact (by decide : 0 + 2000000000 < Instant.limit)
    · exact (by decide : 5000000000 + 2000000000 < Instant.limit)
  exact ⟨hclock, (watch_schedule run_soleLog hclock).1, rfl⟩

end Sole

/-! ## Time -/

theorem Run.trans {start : Vigil} {log' : Watch.Log} (h : Run start log v) (h' : Run v log' v') :
    Run start (log ++ log') v' := by
  induction h' with
  | refl => rwa [List.append_nil]
  | step hrun hstep ih => exact List.append_assoc .. ▸ ih.step hstep

/-- What is said on the channel is one of the things that happen. -/
theorem exists_step_tell (now : Instant) (s : Station) :
    ∃ marks, Step ⟨now, s⟩ marks ⟨now, s.tell⟩ := by
  by_cases h : ∃ until_ told, s.watch = some ⟨.waiting until_, told⟩
  · obtain ⟨until_, told, h⟩ := h
    exact ⟨_, .heed h⟩
  · exact ⟨_, .tell fun until_ told hwatch => h ⟨until_, told, hwatch⟩⟩

/-- A round that ends without a probe asks for a wait of a second at least. -/
theorem second_le_of_visitPools {t after : Table} {interval : Option Duration} {wait : Duration}
    {patterns : List String} (hinterval : ∀ d, interval = some d → 1000000000 ≤ d.nanos)
    (h : Round.visitPools t interval patterns = (after, .over wait)) : 1000000000 ≤ wait.nanos := by
  induction patterns generalizing t interval with
  | nil =>
    cases h
    cases interval with
    | none => decide
    | some d => exact hinterval d rfl
  | cons pattern rest ih =>
    unfold Round.visitPools at h
    split at h
    · exact ih hinterval h
    · rename_i type checks hconfig
      split at h
      · refine ih (fun d hd => ?_) h
        obtain rfl := Option.some.inj hd
        have hown : 1000000000 ≤ (Round.intervalOf checks).nanos := by
          simp only [Round.intervalOf, Duration.ofSecs]
          omega
        unfold Round.shorter
        split
        · exact hown
        · split
          · exact hinterval _ rfl
          · exact hown
      · cases h

/-- A watch that waits behind a round that it begins does so for a second at least. -/
theorem second_le_of_beginRound {t after : Table} {told told' : Bool} {now until_ : Instant}
    (h : Watch.beginRound t told now = (after, ⟨.waiting until_, told'⟩)) :
    now + 1000000000 ≤ until_ := by
  rcases hstart : Round.start t with ⟨t', r⟩
  simp only [Watch.beginRound, hstart, Watch.settle] at h
  rcases r with p | wait
  · simp at h
  · cases told with
    | true => simp at h
    | false =>
      obtain ⟨rfl, rfl⟩ : now.wakeAfter wait = until_ ∧ told' = false := by
        simpa using (Prod.mk.inj h).2
      exact Instant.add_second_le_wakeAfter (second_le_of_visitPools (by simp) hstart)

/-- The rounds that take place while time passes are things that happen one after the other. -/
theorem run_of_passTo {fuel : Nat} {t : Table} {w : Watch} {now later : Instant} {told : Bool}
    (hle : now ≤ later) (hwait : ∀ until_ told, w = ⟨.waiting until_, told⟩ →
      now ≤ until_ ∧ later < until_ + fuel * 1000000000) :
    ∃ log, Run ⟨now, ⟨t, some w, told⟩⟩ log
      ⟨later, ⟨(w.passTo fuel t later).1, some (w.passTo fuel t later).2, told⟩⟩ := by
  induction fuel generalizing t w now with
  | zero =>
    refine ⟨_, run_of_step (.pass hle fun until_ told hw => ?_)⟩
    obtain rfl := Option.some.inj hw
    exact Nat.le_of_lt (by simpa using (hwait until_ told rfl).2)
  | succ fuel ih =>
    have hpass : (∀ until_ told, w = ⟨.waiting until_, told⟩ → later ≤ until_) →
        ∃ log, Run ⟨now, ⟨t, some w, told⟩⟩ log ⟨later, ⟨t, some w, told⟩⟩ := fun hend =>
      ⟨_, run_of_step (.pass hle fun until_ told hw => hend until_ told (Option.some.inj hw))⟩
    obtain ⟨phase, heard⟩ := w
    cases phase with
    | inRound r => exact hpass (by simp)
    | stopped => exact hpass (by simp)
    | waiting until_ =>
      obtain ⟨hnow, hlater⟩ := hwait until_ heard rfl
      have hbound : ∀ {n m k fuel : Nat}, n + 1000000000 ≤ m → k < n + (fuel + 1) * 1000000000 →
          n ≤ m ∧ k < m + fuel * 1000000000 := by omega
      unfold Watch.passTo
      by_cases hdue : until_ ≤ later
      · rcases hwake : Watch.wake ⟨.waiting until_, heard⟩ t until_ with ⟨t', w'⟩
        obtain ⟨log, hrest⟩ := ih (t := t') (w := w') hdue fun until' told' hw' => by
          rw [hw', Watch.wake_waiting] at hwake
          exact hbound (second_le_of_beginRound hwake) hlater
        have hreach : Run ⟨now, ⟨t, some ⟨.waiting until_, heard⟩, told⟩⟩ _
            ⟨until_, ⟨t', some w', told⟩⟩ :=
          (run_of_step (.pass hnow fun _ _ hw => by simp_all)).step (.wake rfl hwake)
        simpa [hdue, hwake] using ⟨_, hreach.trans hrest⟩
      · simpa [hdue] using hpass (by rintro _ _ ⟨⟩; exact Nat.le_of_not_le hdue)

/-- What takes place while time passes is a run. -/
theorem run_passTo {s : Station} {now later : Instant} (hle : now ≤ later)
    (hwait : ∀ until_ told, s.watch = some ⟨.waiting until_, told⟩ → now ≤ until_) :
    ∃ log, Run ⟨now, s⟩ log ⟨later, s.passTo later⟩ := by
  obtain ⟨t, watch, told⟩ := s
  cases watch with
  | none => exact ⟨_, run_of_step (.pass hle nofun)⟩
  | some w =>
    have hfuel : ∀ n m : Nat, n < m + (n / 1000000000 + 2) * 1000000000 := by omega
    exact run_of_passTo hle fun until_ told hw => ⟨hwait until_ told (hw ▸ rfl), hfuel _ _⟩

end Vigil

end Rollout
