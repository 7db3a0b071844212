import Mathlib.Data.List.Induction
import Rollout.Proofs.Upgrade.Instant
import Rollout.Upgrade.Stint

/-!
# Stages in time

How a stage goes within a context that goes on, for any replies.

- **Waits** (`Wait.le_of_limited`, `Wait.ready_pause`, `Wait.exists_ready`): when a wait ends, and
  that it does.
- **Stints** (`Stint.of_append`, `Stint.unique`, `Stint.prefix_of_isOver`): the replies settle how a
  stage goes, and what has come of it so far is a beginning of what it comes to.
- **Ends** (`Stint.exists_isOver`): a stage that lasts no longer than some time comes to its end.
- **Runs** (`Upgrade.Timed.inStint`): where a run in time waits, or failed by itself, it went
  through a stint of its stage.
-/

namespace Rollout

/-! ## How a wait ends -/

namespace Wait

variable {replies : Replies} {n : Nat} {begun t : Instant} {w : Wait} {e : Event w}

/-- A reply does not come before its call. -/
theorem le_of_due {x : Instant × Except String w.Reply} (h : x ∈ replies.due n begun w) :
    begun ≤ x.1 := by
  obtain ⟨⟨after, r⟩, -, rfl⟩ := Option.map_eq_some_iff.mp h
  exact Nat.le_add_right _ _

/-- A wait does not end before it began. -/
theorem le_of_ready {reply : Due (Except String w.Reply)} (hreply : ∀ x ∈ reply, begun ≤ x.1)
    (h : w.ready begun reply = some (t, e)) : begun ≤ t := by
  cases w with
  | call c =>
    obtain ⟨⟨t', r⟩, hx, he⟩ := Option.map_eq_some_iff.mp h
    have hle : begun ≤ t' := hreply _ hx
    cases r <;> cases he <;> exact hle
  | limited c limit =>
    rcases sooner_cases h with ⟨h, -⟩ | ⟨h, -⟩
    · obtain ⟨⟨t', r⟩, hx, he⟩ := Option.map_eq_some_iff.mp h
      have hle : begun ≤ t' := hreply _ hx
      cases r <;> cases he <;> exact hle
    · cases h
      exact Nat.le_max_left _ _
  | pause until_ =>
    cases h
    exact Nat.le_max_left _ _

/-- A pause lasts until its end. -/
theorem ready_pause {until_ : Instant} {reply : Due (Except String Empty)}
    {e : Event (.pause until_)} (h : (Wait.pause until_).ready begun reply = some (t, e)) :
    t = max begun until_ := by
  cases h
  rfl

/-- A call with a limit ends no later than that, where it began no later. -/
theorem le_of_limited {c : Call} {limit : Instant} {reply : Due (Except String c.Answer)}
    {e : Event (.limited c limit)} (h : (Wait.limited c limit).ready begun reply = some (t, e)) :
    t ≤ max begun limit := by
  rcases sooner_cases h with ⟨-, hle⟩ | ⟨h, -⟩
  · exact hle _ rfl
  · cases h
    exact Nat.le_refl _

/-- A call with a limit is answered where its reply comes in time. -/
theorem ready_limited_iff {c : Call} {limit : Instant} {a : c.Answer} :
    (Wait.limited c limit).ready begun (replies.due n begun (.limited c limit)) =
        some (t, .result (some a)) ↔
      ∃ after, replies n (.limited c limit) = some (after, a) ∧ t = begun.after after ∧
        begun.after after ≤ max begun limit := by
  cases hr : replies n (.limited c limit) with
  | none => simp [ready, Replies.due, hr, sooner]
  | some x =>
    obtain ⟨after, b⟩ := x
    simp only [ready, Replies.due, hr, Option.map_some, sooner]
    split
    · constructor
      · intro h; cases h; exact ⟨after, rfl, rfl, by assumption⟩
      · rintro ⟨after, h, rfl, hle⟩; cases h; rfl
    · constructor
      · intro h; cases h
      · rintro ⟨after, h, rfl, hle⟩; cases h; contradiction

/-- A wait ends with a result, unless it is for a call that is never answered. -/
theorem exists_ready (replies : Replies) (n : Nat) (begun : Instant) (w : Wait)
    (h : ∀ c, w = .call c → (replies n w).isSome) :
    ∃ t r, w.ready begun (replies.due n begun w) = some (t, .result r) := by
  cases w with
  | call c =>
    obtain ⟨⟨after, r⟩, hr⟩ := Option.isSome_iff_exists.mp (h c rfl)
    exact ⟨begun.after after, r, by simp [ready, Replies.due, hr]⟩
  | limited c limit =>
    cases hr : replies n (.limited c limit) with
    | none => exact ⟨max begun limit, none, by simp [ready, Replies.due, hr, sooner]⟩
    | some x =>
      simp only [ready, Replies.due, hr, Option.map_some, sooner]
      split
      · exact ⟨_, _, rfl⟩
      · exact ⟨_, _, rfl⟩
  | pause until_ => exact ⟨_, (), rfl⟩

end Wait

namespace Stint

variable {j : Job} {s : Stage} {t₀ now now' t : Instant} {replies : Replies}
  {spans spans' : List Span} {step step' : Step} {p : Position} {x : Span}

/-- A stage goes on in itself. -/
theorem stage_eq (h : Stint j s t₀ replies spans now (.stay p)) : p.stage = s := by
  generalize hstep : Step.stay p = step at h
  induction h generalizing p with
  | enter hp =>
    cases hstep
    exact Position.enter_stage hp
  | hear _ _ ih => exact (Position.stay_of_resume hstep.symm).1.trans (ih rfl)

/-- The last wait of a stage began where the stage stood before. -/
theorem of_concat (h : Stint j s t₀ replies (spans ++ [x]) t step) :
    ∃ (begun : Instant) (p : Position) (r : (p.wait j).Result),
      Stint j s t₀ replies spans begun (.stay p) ∧
      (p.wait j).ready begun (replies.due spans.length begun (p.wait j)) = some (t, .result r) ∧
      x = ⟨begun, t, p.wait j, r⟩ ∧ step = p.resume j t r := by
  generalize hspans : spans ++ [x] = all at h
  cases h with
  | enter _ => simp at hspans
  | @hear before now t p r hbefore hready =>
    obtain ⟨rfl, rfl⟩ := List.append_inj' hspans rfl |>.imp id (fun h => (List.cons.inj h).1)
    exact ⟨now, p, r, hbefore, hready, rfl, rfl⟩

/-- Each beginning of a stint is a stint, and it goes on where more is to come. -/
theorem of_append {more : List Span} (h : Stint j s t₀ replies (spans ++ more) t step) :
    ∃ now step', Stint j s t₀ replies spans now step' ∧ (more ≠ [] → ∃ p, step' = .stay p) := by
  induction more using List.reverseRecOn generalizing t step with
  | nil =>
    rw [List.append_nil] at h
    exact ⟨t, step, h, fun hne => absurd rfl hne⟩
  | append_singleton more x ih =>
    rw [← List.append_assoc] at h
    obtain ⟨begun, p, r, hbefore, -⟩ := h.of_concat
    cases more with
    | nil =>
      rw [List.append_nil] at hbefore
      exact ⟨begun, .stay p, hbefore, fun _ => ⟨p, rfl⟩⟩
    | cons y more =>
      obtain ⟨now, step', hstint, hstay⟩ := ih hbefore
      exact ⟨now, step', hstint, fun _ => hstay (List.cons_ne_nil _ _)⟩

/-- The replies settle how a stage goes. -/
theorem unique (h : Stint j s t₀ replies spans now step)
    (h' : Stint j s t₀ replies spans now' step') : now = now' ∧ step = step' := by
  induction h generalizing now' step' with
  | enter hp =>
    generalize hspans : ([] : List Span) = spans at h'
    cases h' with
    | enter hp' =>
      rw [hp] at hp'
      cases hp'
      exact ⟨rfl, rfl⟩
    | hear _ _ => simp at hspans
  | @hear before begun t p r _ hready ih =>
    obtain ⟨begun', q, r', hbefore, hready', -, rfl⟩ := h'.of_concat
    obtain ⟨rfl, hq⟩ := ih hbefore
    cases hq
    cases hready.symm.trans hready'
    exact ⟨rfl, rfl⟩

/-- A span of a stint: where the stage stood before it, and after it. -/
theorem of_getElem? {n : Nat} (h : Stint j s t₀ replies spans now step)
    (hx : spans[n]? = some x) : ∃ (begun t : Instant) (p : Position) (r : (p.wait j).Result),
      x = ⟨begun, t, p.wait j, r⟩ ∧
      Stint j s t₀ replies (spans.take n) begun (.stay p) ∧
      (p.wait j).ready begun (replies.due n begun (p.wait j)) = some (t, .result r) ∧
      Stint j s t₀ replies (spans.take (n + 1)) t (p.resume j t r) ∧
      (n + 1 = spans.length ∧ now = t ∧ step = p.resume j t r ∨
        n + 1 < spans.length ∧ ∃ q, p.resume j t r = .stay q) := by
  obtain ⟨hn, hget⟩ := List.getElem?_eq_some_iff.mp hx
  have hlen : (spans.take n).length = n := List.length_take_of_le (Nat.le_of_lt hn)
  have htake : spans.take (n + 1) = spans.take n ++ [x] := by
    rw [List.take_succ_eq_append_getElem hn, hget]
  have hall := h
  rw [← List.take_append_drop (n + 1) spans] at hall
  obtain ⟨t, step', hstint, hmore⟩ := hall.of_append
  have hafter := hstint
  rw [htake] at hstint
  obtain ⟨begun, p, r, hbefore, hready, rfl, rfl⟩ := hstint.of_concat
  rw [hlen] at hready
  refine ⟨begun, t, p, r, rfl, hbefore, hready, hafter, ?_⟩
  by_cases hdrop : n + 1 = spans.length
  · rw [hdrop, List.take_length] at hafter
    obtain ⟨rfl, rfl⟩ := h.unique hafter
    exact .inl ⟨hdrop, rfl, rfl⟩
  · have hlt : n + 1 < spans.length := Nat.lt_of_le_of_ne hn hdrop
    exact .inr ⟨hlt, hmore fun hnil => Nat.not_le_of_lt hlt (List.drop_eq_nil_iff.mp hnil)⟩

/-- The end of a stage is its only one, and each stint of it is a beginning of that. -/
theorem prefix_of_isOver (h : Stint j s t₀ replies spans now step) (hover : step.isOver = true)
    (h' : Stint j s t₀ replies spans' now' step') : spans' <+: spans := by
  induction h' with
  | enter _ => exact List.nil_prefix
  | @hear before begun t p r hbefore hready ih =>
    obtain ⟨more, rfl⟩ := ih
    cases more with
    | nil =>
      rw [List.append_nil] at h
      rw [(h.unique hbefore).2] at hover
      cases hover
    | cons x more =>
      rw [List.append_cons] at h
      obtain ⟨_, _, hx, -⟩ := h.of_append
      obtain ⟨begun', q, r', hbefore', hready', rfl, -⟩ := hx.of_concat
      obtain ⟨rfl, hq⟩ := hbefore.unique hbefore'
      cases hq
      cases hready.symm.trans hready'
      exact ⟨more, List.append_assoc _ _ _⟩

/-! ## Ends -/

/-- How much is left of a stage that is over by some time: first the time, and then the steps that
can be taken while the clock stands still. -/
def remaining (last now : Instant) (p : Position) : Nat ×ₗ Nat ×ₗ Nat :=
  toLex (last - now, p.rank now)

/-- Each wait that ends and keeps a run in its stage leaves less. -/
theorem remaining_lt {last : Instant} {n : Nat} {q : Position} {r : (p.wait j).Result}
    (hpoll : 0 < j.timeouts.pollInterval.nanos)
    (hready : (p.wait j).ready now (replies.due n now (p.wait j)) = some (t, .result r))
    (hlast : t ≤ last) (h : p.resume j t r = .stay q) :
    remaining last t q < remaining last now p := by
  have hle : now ≤ t := Wait.le_of_ready (fun _ => Wait.le_of_due) hready
  rcases Nat.lt_or_eq_of_le hle with hlt | rfl
  · exact Prod.Lex.toLex_lt_toLex.mpr
      (.inl (Nat.sub_lt_sub_left (Nat.lt_of_lt_of_le hlt hlast) hlt))
  · have htimes : Context.background.Times ⟨now, []⟩ (.result r : Event (p.wait j)) := by
      have hmax (until_ : Instant) (h : now = max now until_) : until_ ≤ now :=
        Nat.le_trans (Nat.le_max_right now until_) (Nat.le_of_eq h.symm)
      cases p with
      | exitPause s deadline until_ => exact hmax until_ (Wait.ready_pause hready)
      | probePause deadline until_ => exact hmax until_ (Wait.ready_pause hready)
      | _ => exact trivial
    exact Prod.Lex.toLex_lt_toLex.mpr
      (.inr ⟨rfl, Position.rank_lt_of_stay (m := ⟨now, []⟩) hpoll htimes h⟩)

/-- A stage comes to its end if it lasts no longer than some time and each of its waits ends. -/
theorem exists_isOver {last : Instant} (hpoll : 0 < j.timeouts.pollInterval.nanos)
    (hlast : ∀ {spans now step}, Stint j s t₀ replies spans now step → now ≤ last)
    (hends : ∀ {spans now p}, Stint j s t₀ replies spans now (.stay p) → ∃ t r,
      (p.wait j).ready now (replies.due spans.length now (p.wait j)) = some (t, .result r))
    (h : Stint j s t₀ replies spans now step) :
    ∃ spans now step, Stint j s t₀ replies spans now step ∧ step.isOver = true := by
  cases step with
  | passed => exact ⟨spans, now, .passed, h, rfl⟩
  | failed e => exact ⟨spans, now, .failed e, h, rfl⟩
  | stay p =>
    -- By induction on what remains, which each wait that ends makes less.
    induction hr : remaining last now p using WellFoundedLT.induction generalizing spans now p with
    | ind x ih =>
      obtain ⟨t, r, hready⟩ := hends h
      have hnext := h.hear hready
      cases hstep : p.resume j t r with
      | passed => exact ⟨_, t, .passed, hstep ▸ hnext, rfl⟩
      | failed e => exact ⟨_, t, .failed e, hstep ▸ hnext, rfl⟩
      | stay q =>
        rw [hstep] at hnext
        refine ih _ ?_ q hnext rfl
        rw [← hr]
        exact remaining_lt hpoll hready (hlast hnext) hstep

/-! ## Calls -/

/-- The end of a wait brings no call but the next one. -/
theorem calls_hear {r : (p.wait j).Result} : calls j (spans ++ [⟨now, t, p.wait j, r⟩]) t step =
    calls j spans now (.stay p) ++ ((step.call? j).map (t, ·)).toList := by
  have hcall : [(⟨now, t, p.wait j, r⟩ : Span)].filterMap Span.call? =
      (((Step.stay p).call? j).map (now, ·)).toList := by
    cases h : (p.wait j).call? <;> simp [Span.call?, Step.call?, h]
  rw [calls, calls, List.filterMap_append, hcall]

/-- What was called was called before. -/
theorem calls_le (h : Stint j s t₀ replies spans now step) :
    ∀ x ∈ calls j spans now step, x.1 ≤ now := by
  have pending {t : Instant} {step : Step} {x : Instant × Call}
      (hx : x ∈ ((step.call? j).map (t, ·)).toList) : x.1 ≤ t := by
    obtain ⟨c, -, rfl⟩ := Option.map_eq_some_iff.mp (Option.mem_toList.mp hx)
    exact Nat.le_refl _
  induction h with
  | enter _ => exact fun x hx => pending hx
  | hear _ hready ih =>
    intro x hx
    rw [calls_hear] at hx
    rcases List.mem_append.mp hx with hx | hx
    · exact Nat.le_trans (ih x hx) (Wait.le_of_ready (fun _ => Wait.le_of_due) hready)
    · exact pending hx

/-- The replies to the waits that have ended settle a stint. -/
theorem congr {replies' : Replies} (h : Stint j s t₀ replies spans now step)
    (hsame : ∀ n < spans.length, replies n = replies' n) :
    Stint j s t₀ replies' spans now step := by
  induction h with
  | enter hp => exact .enter hp
  | @hear spans now t p r _ hready ih =>
    have hlen : spans.length < (spans ++ [(⟨now, t, p.wait j, r⟩ : Span)]).length := by simp
    refine .hear (ih fun n hn => hsame n (Nat.lt_trans hn hlen)) ?_
    rw [← hready, Replies.due, Replies.due, hsame _ hlen]

end Stint

/-! ## The stages of a run -/

namespace Wait

/-- How long after its beginning the work of a wait is answered. -/
def latency {w : Wait} (begun : Instant) (reply : Due (Except String w.Reply)) :
    Option (Duration × w.Reply) :=
  reply.bind fun (t, r) =>
    match r with
    | .ok r => some (⟨t - begun⟩, r)
    | .error _ => none

/-- What ends with a result does so for the replies that are no crash. -/
theorem ready_latency {w : Wait} {begun t : Instant} {reply : Due (Except String w.Reply)}
    {r : w.Result} (hreply : ∀ x ∈ reply, begun ≤ x.1)
    (h : w.ready begun reply = some (t, .result r)) :
    w.ready begun ((latency begun reply).map fun x => (begun.after x.1, .ok x.2)) =
      some (t, .result r) := by
  cases reply with
  | none => exact h
  | some x =>
    obtain ⟨at_, answer⟩ := x
    have hle : begun ≤ at_ := hreply _ rfl
    cases answer with
    | ok answer =>
      have hat : begun.after ⟨at_ - begun⟩ = at_ := Nat.add_sub_cancel' hle
      simp only [latency, Option.bind_some, Option.map_some, hat]
      exact h
    | error text =>
      cases w with
      | call c => cases h
      | limited c limit =>
        unfold ready at h
        rcases sooner_cases h with ⟨h, -⟩ | ⟨h, -⟩
        · cases h
        · exact h
      | pause until_ => exact h

end Wait

/-- A call of a run, with the time when it was made. -/
def Deed.calledAt? : Moment × Deed → Option (Instant × Call)
  | (m, .called c) => some (m.now, c)
  | _ => none

/-- The end of a wait of a run, with the time when it was heard. -/
def Deed.heardAt? : Moment × Deed → Option (Instant × (w : Wait) × Event w)
  | (m, .heard w e) => some (m.now, ⟨w, e⟩)
  | _ => none

/-- How a wait ended that ended with its result. -/
def Span.heard (s : Span) : Instant × (w : Wait) × Event w := (s.ended, ⟨s.wait, .result s.result⟩)

namespace Upgrade

/-- Where a run comes to in a stage is a stint of that: the last calls of the run are those of the
stint, and the last waits that ended are its waits. -/
def InStint (j : Job) (log : List (Moment × Deed)) (now : Instant) (s : Stage) (step : Step) :
    Prop :=
  ∃ t₀ replies spans, Stint j s t₀ replies spans now step ∧
    Stint.calls j spans now step <:+ log.filterMap Deed.calledAt? ∧
    spans.map Span.heard <:+ log.filterMap Deed.heardAt?

variable {u v w : Upgrade} {j : Job} {ctx : Context} {m₀ m : Moment} {log : List (Moment × Deed)}
  {p q : Position} {cancel : Option Instant}

theorem calledAt_deeds (x : Progress) (m : Moment) :
    ((x.deeds j).map (m, ·)).filterMap Deed.calledAt? =
      match x with
      | .waiting p => (((Step.stay p).call? j).map (m.now, ·)).toList
      | _ => [] := by
  cases x with
  | waiting p =>
    simp only [Progress.deeds, Step.call?]
    cases (p.wait j).call? <;> rfl
  | ended r => rfl
  | crashed text => rfl

theorem heardAt_deeds (x : Progress) (m : Moment) :
    ((x.deeds j).map (m, ·)).filterMap Deed.heardAt? = [] := by
  cases x with
  | waiting p =>
    simp only [Progress.deeds]
    cases (p.wait j).call? <;> rfl
  | ended r => rfl
  | crashed text => rfl

/-- Where a wait ends, the run makes the call that it waits for next. -/
theorem calledAt_resumeDeeds (w : Upgrade) (ctx : Context) (m : Moment) (e : Event (q.wait j)) :
    ((w.resumeDeeds j ctx m q e).map (m, ·)).filterMap Deed.calledAt? =
      (((w.resume j ctx m q e).2.deeds j).map (m, ·)).filterMap Deed.calledAt? := by
  unfold resumeDeeds
  rw [List.map_cons, List.map_append, List.filterMap_cons_none rfl, List.filterMap_append]
  split <;> rfl

/-- Where a wait ends, the run hears that and nothing else. -/
theorem heardAt_resumeDeeds (w : Upgrade) (ctx : Context) (m : Moment) (e : Event (q.wait j)) :
    ((w.resumeDeeds j ctx m q e).map (m, ·)).filterMap Deed.heardAt? =
      [(m.now, ⟨q.wait j, e⟩)] := by
  have heard : Deed.heardAt? (m, .heard (q.wait j) e) = some (m.now, ⟨q.wait j, e⟩) := rfl
  unfold resumeDeeds
  rw [List.map_cons, List.map_append, List.filterMap_cons_some heard, List.filterMap_append,
    heardAt_deeds]
  split <;> rfl

/-- A run that enters a stage and waits begins a stint of it. -/
theorem InStint.enter {s : Stage} (h : (u.enter j ctx m s).2 = .waiting p)
    (hlog : (((Step.stay p).call? j).map (m.now, ·)).toList <:+ log.filterMap Deed.calledAt?) :
    InStint j log m.now p.stage (.stay p) := by
  obtain ⟨hs, -⟩ := stage_of_enter h
  unfold Upgrade.enter at h
  cases hp : Position.enter j m.now s with
  | none => rw [hp] at h; cases h
  | some q =>
    rw [hp] at h
    obtain rfl := eq_of_guard h
    exact ⟨m.now, fun _ _ => none, [], .enter (hs ▸ hp), hlog, List.nil_suffix⟩

/-- A wait that ends with its result prolongs the stint. -/
theorem InStint.hear {s : Stage} {now t : Instant} {r : (q.wait j).Result}
    {reply : Due (Except String (q.wait j).Reply)} {deeds : List (Moment × Deed)}
    (h : InStint j log now s (.stay q)) (hreply : ∀ x ∈ reply, now ≤ x.1)
    (hready : (q.wait j).ready now reply = some (t, .result r))
    (hcalls : deeds.filterMap Deed.calledAt? =
      (((q.resume j t r).call? j).map (t, ·)).toList)
    (hheard : deeds.filterMap Deed.heardAt? = [(t, ⟨q.wait j, .result r⟩)]) :
    InStint j (log ++ deeds) t s (q.resume j t r) := by
  obtain ⟨t₀, replies, spans, hstint, ⟨calls, hc⟩, ⟨heard, hh⟩⟩ := h
  -- The replies so far, and then the one that ended this wait.
  let replies' : Replies := Function.update replies spans.length
    (Function.update (replies spans.length) (q.wait j) (Wait.latency now reply))
  have hsame : ∀ n < spans.length, replies n = replies' n := fun n hn =>
    (Function.update_of_ne (Nat.ne_of_lt hn) _ _).symm
  have hlatency : replies' spans.length (q.wait j) = Wait.latency now reply := by
    simp [replies']
  have hready' : (q.wait j).ready now (replies'.due spans.length now (q.wait j)) =
      some (t, .result r) := by
    rw [Replies.due, hlatency]
    exact Wait.ready_latency hreply hready
  refine ⟨t₀, replies', _, (hstint.congr hsame).hear hready', ⟨calls, ?_⟩, ⟨heard, ?_⟩⟩
  · rw [List.filterMap_append, Stint.calls_hear, ← List.append_assoc, hc, hcalls]
  · rw [List.filterMap_append, List.map_append, ← List.append_assoc, hh, hheard]
    rfl

theorem error_of_guard {e : UpgradeError} (h : (u.guard ctx m p).2 = .ended (.error e)) :
    ∃ reason, e = .context reason := by
  unfold guard at h
  split at h
  · cases h
    exact ⟨_, rfl⟩
  · cases h

theorem error_of_enter {s : Stage} {e : UpgradeError}
    (h : (u.enter j ctx m s).2 = .ended (.error e)) : ∃ reason, e = .context reason := by
  unfold Upgrade.enter at h
  split at h
  · cases h
  · exact error_of_guard h

/-- A run fails by itself where a wait ended with a result. -/
theorem failed_of_resume {e : UpgradeError} {ev : Event (q.wait j)}
    (h : (v.resume j ctx m q ev).2 = .ended (.error e)) (he : ∀ reason, e ≠ .context reason) :
    ∃ r, ev = .result r ∧ q.resume j m.now r = .failed e := by
  cases ev with
  | stopped reason =>
    cases h
    exact absurd rfl (he reason)
  | crashed text => cases h
  | result r =>
    refine ⟨r, rfl, ?_⟩
    simp only [resume] at h
    cases hr : q.resume j m.now r with
    | stay p =>
      rw [hr] at h
      obtain ⟨reason, rfl⟩ := error_of_guard h
      exact absurd rfl (he reason)
    | passed =>
      rw [hr] at h
      obtain ⟨reason, rfl⟩ := error_of_enter h
      exact absurd rfl (he reason)
    | failed e' =>
      rw [hr] at h
      cases h
      rfl

/-- A run that waits in a stage, or failed there by itself, went through a stint of it: what holds
of all stints holds of all runs. -/
theorem Timed.inStint {x : Upgrade × Progress} (h : u.Timed cancel j ctx m₀ log m x) :
    (∀ p, x.2 = .waiting p → InStint j log m.now p.stage (.stay p)) ∧
      ∀ e, x.2 = .ended (.error e) → (∀ reason, e ≠ .context reason) →
        ∃ s, InStint j log m.now s (.failed e) := by
  induction h with
  | start hsees =>
    refine ⟨fun p hp => .enter hp ?_, fun e hx he => ?_⟩
    · have hcalls : ((u.startDeeds j ctx m₀).map (m₀, ·)).filterMap Deed.calledAt? =
          (((Step.stay p).call? j).map (m₀.now, ·)).toList := by
        rw [startDeeds, List.map_cons, List.filterMap_cons_none rfl, calledAt_deeds, hp]
      exact hcalls ▸ List.suffix_refl _
    · obtain ⟨reason, rfl⟩ := error_of_enter hx
      exact absurd rfl (he reason)
  | @resume log m m' v q ev cancelFirst reply hbefore hprec hsees hreply hscope ih =>
    have hin := ih.1 q rfl
    -- Only a wait that ended by itself keeps the run going.
    have hready {r} (hev : ev = .result r) :
        (q.wait j).ready m.now reply = some (m'.now, .result r) := by
      rcases Context.scope_cases hscope with ⟨h, -⟩ | ⟨-, reason, h, -⟩
      · rw [h, hev]
      · cases hev.symm.trans h
    have hheard := heardAt_resumeDeeds v ctx m' ev
    refine ⟨fun p hp => ?_, fun e hx he => ?_⟩
    · have hcalls := calledAt_resumeDeeds v ctx m' ev
      rw [calledAt_deeds, hp] at hcalls
      obtain ⟨-, r, rfl, hstay | ⟨-, henter⟩⟩ := waits_of_resume hp
      · have hnext := hin.hear hreply (hready rfl) (hstay ▸ hcalls) hheard
        rw [hstay] at hnext
        rwa [(Position.stay_of_resume hstay).1]
      · refine .enter henter ?_
        rw [List.filterMap_append, hcalls]
        exact List.suffix_append _ _
    · obtain ⟨r, rfl, hr⟩ := failed_of_resume hx he
      have hcalls := calledAt_resumeDeeds v ctx m' (.result r)
      rw [calledAt_deeds, hx] at hcalls
      have hnext := hin.hear hreply (hready rfl) (hr ▸ hcalls) hheard
      rw [hr] at hnext
      exact ⟨_, hnext⟩

end Upgrade

end Rollout
