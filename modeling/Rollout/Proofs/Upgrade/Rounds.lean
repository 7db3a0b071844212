import Mathlib.Data.List.TakeWhile
import Rollout.Proofs.Upgrade.Stint

/-!
# Rounds of signals

A run that ends a binary sends a signal to each of some processes, and another one to those that are
left when these had time to end.

- **Aims** (`Span.aims`): once a round has begun, it is settled which processes its signal is for
  (`Span.aims_term_concat`, `Span.aims_kill_concat`).
- **Rounds** (`SignalRound`): what was signalled and what is left are what the signal is for. A
  signal, the end of a wait and the lookup between the rounds keep that (`SignalRound.signal`,
  `SignalRound.hear`, `SignalRound.next`).
- **Steps** (`Step.Ends`): what is true where a run stands, by induction on the stint
  (`Stint.ends`).
-/

namespace Rollout

/-! ## What a signal is for -/

theorem targets_append (s : Signal) (a b : List (Instant × Call)) :
    targets s (a ++ b) = targets s a ++ targets s b := List.filterMap_append

theorem targets_concat (s : Signal) (calls : List (Instant × Call)) (t : Instant) (c : Call) :
    targets s (calls ++ [(t, c)]) = targets s calls ++ (c.target? s).toList := by
  rw [targets_append]
  cases h : c.target? s <;> simp [targets, h]

theorem targets_eq_nil_iff {s : Signal} {calls : List (Instant × Call)} :
    targets s calls = [] ↔ ∀ x ∈ calls, x.2.target? s = none := List.filterMap_eq_nil_iff

/-- A call that signals a process is not one that does not. -/
theorem mem_of_mem_concat {s : Signal} {calls : List (Instant × Call)} {t : Instant} {c : Call}
    {x : Instant × Call} (hc : c.target? s = none) (hx : x ∈ calls ++ [(t, c)])
    (hs : (x.2.target? s).isSome) : x ∈ calls := by
  rcases List.mem_append.mp hx with hx | hx
  · exact hx
  · rw [List.mem_singleton.mp hx, hc] at hs
    cases hs

namespace Span

variable {spans : List Span} {x : Span}

theorem any_concat {s : Signal} (h : spans.any (signals s) = true) :
    (spans ++ [x]).any (signals s) = true := by
  rw [List.any_append, h, Bool.true_or]

theorem aims_term_concat (h : spans ≠ []) : aims (spans ++ [x]) .term = aims spans .term := by
  cases spans with
  | nil => exact absurd rfl h
  | cons y spans => rfl

theorem takeWhile_of_any (h : spans.any (signals .kill) = false) :
    spans.takeWhile (fun y => !y.signals .kill) = spans :=
  List.takeWhile_eq_self_iff.mpr fun y hy => by simpa using List.any_eq_false.mp h y hy

/-- Once the first process is ended, it is settled which ones are. -/
theorem aims_kill_concat (h : spans.any (signals .kill) = true ∨ x.signals .kill = true) :
    aims (spans ++ [x]) .kill = aims spans .kill := by
  rw [aims, aims, List.takeWhile_append]
  split
  · rename_i hlen
    have hall := (List.takeWhile_prefix _).eq_of_length hlen
    have hx : x.signals .kill = true := h.resolve_left fun hany => by
      obtain ⟨y, hy, hkill⟩ := List.any_eq_true.mp hany
      simpa [hkill] using List.takeWhile_eq_self_iff.mp hall y hy
    rw [hall, List.takeWhile_cons, hx]
    simp
  · rfl

theorem aims_kill_last (h : spans.any (signals .kill) = false) (hx : x.signals .kill = false) :
    aims (spans ++ [x]) .kill = x.shown?.getD [] := by
  have hall : (spans ++ [x]).any (signals .kill) = false := by simpa [hx] using h
  rw [aims, takeWhile_of_any hall, List.getLast?_concat]
  rfl

/-- Where no process is signalled, no signal was waited for. -/
theorem any_signals_of_targets {j : Job} {s : Signal} {now : Instant} {step : Step}
    (h : targets s (Stint.calls j spans now step) = []) : spans.any (signals s) = false := by
  rw [Stint.calls, targets_append] at h
  have hnone := targets_eq_nil_iff.mp (List.append_eq_nil_iff.mp h).1
  refine List.any_eq_false.mpr fun y hy => ?_
  unfold signals
  cases hc : y.call? with
  | none => simp
  | some c => simp [hnone c (List.mem_filterMap.mpr ⟨y, hy, hc⟩)]

end Span

/-! ## Rounds -/

/-- A round of a signal under way: what was signalled and what is left are what the signal is for.
Who is ended was asked before, and had time since the last was. -/
structure SignalRound (j : Job) (spans : List Span) (calls : List (Instant × Call)) (now : Instant)
    (s : Signal) (rest : List Pid) : Prop where
  begun : spans ≠ []
  aim : targets s calls ++ rest = Span.aims spans s
  quiet : s = .term → targets .kill calls = []
  asked : s = .kill → targets .term calls = Span.aims spans .term
  ready : s = .kill → ∀ x ∈ calls, (x.2.target? .term).isSome →
    x.1 + j.timeouts.termWait.nanos ≤ now
  apart : ∀ x ∈ calls, ∀ y ∈ calls, (x.2.target? .term).isSome → (y.2.target? .kill).isSome →
    x.1 + j.timeouts.termWait.nanos ≤ y.1

namespace SignalRound

variable {j : Job} {spans : List Span} {calls : List (Instant × Call)} {now t : Instant}
  {s : Signal} {pid : Pid} {rest pids : List Pid} {x : Span} {c : Call}

/-- A call that is no signal. -/
theorem snoc (h : SignalRound j spans calls now s rest) (hc : ∀ s, c.target? s = none) :
    SignalRound j spans (calls ++ [(t, c)]) now s rest := by
  have htargets (s : Signal) : targets s (calls ++ [(t, c)]) = targets s calls := by
    rw [targets_concat, hc s, Option.toList_none, List.append_nil]
  have old {s : Signal} {y : Instant × Call} (hy : y ∈ calls ++ [(t, c)])
      (hs : (y.2.target? s).isSome) : y ∈ calls := mem_of_mem_concat (hc s) hy hs
  exact {
    begun := h.begun
    aim := by rw [htargets, h.aim]
    quiet := fun hs => by rw [htargets, h.quiet hs]
    asked := fun hs => by rw [htargets, h.asked hs]
    ready := fun hs y hy hterm => h.ready hs y (old hy hterm) hterm
    apart := fun x hx y hy hterm hkill => h.apart x (old hx hterm) y (old hy hkill) hterm hkill }

/-- The next signal of a round. -/
theorem signal {host : IpAddr} (h : SignalRound j spans calls now s (pid :: rest)) :
    SignalRound j spans (calls ++ [(now, .signal host s pid)]) now s rest := by
  have hsame : (Call.signal host s pid).target? s = some pid := if_pos rfl
  have hother {s' : Signal} (hs : s ≠ s') : (Call.signal host s pid).target? s' = none := if_neg hs
  have htargets {s' : Signal} (hs : s ≠ s') :
      targets s' (calls ++ [(now, .signal host s pid)]) = targets s' calls := by
    rw [targets_concat, hother hs, Option.toList_none, List.append_nil]
  have old {s' : Signal} (hs : s ≠ s') {y : Instant × Call}
      (hy : y ∈ calls ++ [(now, .signal host s pid)]) (hy' : (y.2.target? s').isSome) :
      y ∈ calls := mem_of_mem_concat (hother hs) hy hy'
  refine ⟨h.begun, ?_, fun hs => ?_, fun hs => ?_, fun hs x hx hterm => ?_,
    fun x hx y hy hterm hkill => ?_⟩
  · rw [targets_concat, hsame, Option.toList_some, List.append_assoc, List.singleton_append, h.aim]
  · rw [htargets (by rw [hs]; decide), h.quiet hs]
  · rw [htargets (by rw [hs]; decide), h.asked hs]
  · exact h.ready hs x (old (by rw [hs]; decide) hx hterm) hterm
  · -- The new call is of one kind, so that the other one is an old call.
    cases s with
    | term =>
      have hy := old (by decide : Signal.term ≠ .kill) hy hkill
      have hnone := targets_eq_nil_iff.mp (h.quiet rfl) y hy
      rw [hnone] at hkill
      cases hkill
    | kill =>
      have hx := old (by decide : Signal.kill ≠ .term) hx hterm
      rcases List.mem_append.mp hy with hy | hy
      · exact h.apart x hx y hy hterm hkill
      · rw [List.mem_singleton.mp hy]
        exact h.ready rfl x hx hterm

/-- The end of a wait. -/
theorem hear (h : SignalRound j spans calls now s rest) (hle : now ≤ t)
    (hx : s = .kill → spans.any (Span.signals .kill) = true ∨ x.signals .kill = true) :
    SignalRound j (spans ++ [x]) calls t s rest where
  begun := by simp
  aim := by
    rw [h.aim]
    cases s with
    | term => exact (Span.aims_term_concat h.begun).symm
    | kill => exact (Span.aims_kill_concat (hx rfl)).symm
  quiet := h.quiet
  asked hs := by rw [h.asked hs, Span.aims_term_concat h.begun]
  ready hs y hy hterm := Nat.le_trans (h.ready hs y hy hterm) hle
  apart := h.apart

/-- The first lookup. -/
theorem first (hcalls : ∀ s, targets s calls = []) :
    SignalRound j [x] calls t .term (x.shown?.getD []) where
  begun := by simp
  aim := by rw [hcalls]; rfl
  quiet _ := hcalls .kill
  asked hs := by cases hs
  ready hs := by cases hs
  apart x hx y hy hterm _ := by
    rw [targets_eq_nil_iff.mp (hcalls .term) x hx] at hterm
    cases hterm

/-- The lookup that ends the time to end. -/
theorem next (h : SignalRound j spans calls now .term [])
    (hspans : spans.any (Span.signals .kill) = false) (hx : x.signals .kill = false)
    (ht : ∀ y ∈ calls, (y.2.target? .term).isSome → y.1 + j.timeouts.termWait.nanos ≤ t) :
    SignalRound j (spans ++ [x]) calls t .kill (x.shown?.getD []) where
  begun := by simp
  aim := by rw [h.quiet rfl, Span.aims_kill_last hspans hx, List.nil_append]
  quiet hs := by cases hs
  asked _ := by rw [Span.aims_term_concat h.begun, ← h.aim, List.append_nil]
  ready _ := ht
  apart := h.apart

/-- What was signalled so far is a beginning of what the signal is for. -/
theorem targets_prefix (h : SignalRound j spans calls now s rest) (s' : Signal) :
    targets s' calls <+: Span.aims spans s' := by
  cases s with
  | term =>
    cases s' with
    | term => exact h.aim ▸ List.prefix_append _ _
    | kill => exact h.quiet rfl ▸ List.nil_prefix
  | kill =>
    cases s' with
    | term => exact h.asked rfl ▸ List.prefix_refl _
    | kill => exact h.aim ▸ List.prefix_append _ _

/-- Where nothing is left of the round of the last signal, all were signalled. -/
theorem targets_eq (h : SignalRound j spans calls now .kill []) (s : Signal) :
    targets s calls = Span.aims spans s := by
  cases s with
  | term => exact h.asked rfl
  | kill => rw [← h.aim, List.append_nil]

end SignalRound

/-! ## Steps -/

/-- What is true of the end of a binary where a run stands. -/
def Step.Ends (j : Job) (spans : List Span) (calls : List (Instant × Call)) (now : Instant) :
    Step → Prop
  | .stay (.lookingUp .first) => spans = [] ∧ ∀ s, targets s calls = []
  | .stay (.signalling s _ rest) => SignalRound j spans calls now s rest
  | .stay (.lookingUp (.recheck s _ _ rest)) => SignalRound j spans calls now s rest ∧
    (s = .kill → spans.any (Span.signals .kill) = true)
  | .stay (.lookingUp (.untilGone s deadline)) | .stay (.exitPause s deadline _) =>
    SignalRound j spans calls now s [] ∧ (s = .kill → spans.any (Span.signals .kill) = true) ∧
    ∀ x ∈ calls, (x.2.target? s).isSome → x.1 + (j.exitWait s).nanos ≤ deadline
  | .stay _ => False
  | .passed => ∃ s, SignalRound j spans calls now s [] ∧ (s = .term → Span.aims spans .kill = [])
  | .failed e => (∃ s rest, SignalRound j spans calls now s rest) ∧
    ∀ pids waited, e = .stillRunning pids waited → SignalRound j spans calls now .kill [] ∧
      waited = j.timeouts.killWait ∧ pids ≠ [] ∧
      ∀ x ∈ calls, (x.2.target? .kill).isSome → x.1 + j.timeouts.killWait.nanos ≤ now

namespace Position

variable {j : Job} {spans : List Span} {calls : List (Instant × Call)} {now t : Instant}
  {s : Signal} {rest pids : List Pid} {x : Span}

/-- A failed lookup is an error only for want of its tool. -/
theorem found_eq_error_iff {r : Except ExecError (List Pid)} {e : UpgradeError} :
    found r = .error e ↔
      ∃ source, r = .error source ∧ source.isCommandNotFound = true ∧ e = .findPids source := by
  cases r with
  | ok pids => simp [found]
  | error source =>
    constructor
    · intro h
      simp only [found] at h
      split at h
      · cases h
        exact ⟨source, rfl, ‹_›, rfl⟩
      · cases h
    · rintro ⟨_, hsource, htool, rfl⟩
      cases hsource
      exact if_pos htool

/-- A run goes by what a lookup shows. -/
theorem found_eq_ok_iff {begun : Instant} {host : IpAddr} {name : String}
    {r : Except ExecError (List Pid)} :
    found r = .ok pids ↔ Span.shown? ⟨begun, t, .call (.find host name), r⟩ = some pids := by
  cases r with
  | ok pids' => simp [found, Span.shown?, Span.lookup?]
  | error source =>
    simp only [found, Span.shown?, Span.lookup?]
    split <;> simp

theorem ends_sendTo (h : SignalRound j spans calls now s rest)
    (hfired : s = .kill → rest = [] → spans.any (Span.signals .kill) = true)
    (hcalls : ∀ x ∈ calls, x.1 ≤ now) :
    (sendTo j now s rest).Ends j spans
      (calls ++ (((sendTo j now s rest).call? j).map (now, ·)).toList) now := by
  cases rest with
  | nil =>
    refine ⟨h.snoc fun _ => rfl, fun hs => hfired hs rfl, fun x hx hs => ?_⟩
    exact Nat.add_le_add_right (hcalls x (mem_of_mem_concat rfl hx hs)) _
  | cons pid rest => exact h.signal

/-- A lookup belongs to a round. -/
theorem round_of_lookingUp {why : Lookup} (h : (Step.stay (.lookingUp why)).Ends j spans calls now)
    (hle : now ≤ t) : ∃ s rest, SignalRound j (spans ++ [x]) calls t s rest := by
  cases why with
  | first =>
    obtain ⟨rfl, hnone⟩ := h
    exact ⟨.term, _, .first hnone⟩
  | recheck s pid source rest => exact ⟨s, rest, h.1.hear hle fun hs => .inl (h.2 hs)⟩
  | untilGone s deadline => exact ⟨s, [], h.1.hear hle fun hs => .inl (h.2.1 hs)⟩

/-- What follows a lookup that found some processes. -/
theorem ends_lookedUp {why : Lookup}
    (h : (Step.stay (.lookingUp why)).Ends j spans calls now) (hle : now ≤ t)
    (hx : x.shown?.getD [] = pids) (hsignals : x.signals .kill = false)
    (hspans : targets .kill calls = [] → spans.any (Span.signals .kill) = false)
    (hcalls : ∀ x ∈ calls, x.1 ≤ now) :
    (lookedUp j t pids why).Ends j (spans ++ [x])
      (calls ++ (((lookedUp j t pids why).call? j).map (t, ·)).toList) t := by
  have hcalls' : ∀ x ∈ calls, x.1 ≤ t := fun x hx => Nat.le_trans (hcalls x hx) hle
  have hafter := after_lookedUp j t pids why
  generalize lookedUp j t pids why = step at hafter ⊢
  cases hafter with
  | idle hnone =>
    obtain ⟨rfl, hfree⟩ := h
    have hround : SignalRound j [x] calls t .term pids := hx ▸ SignalRound.first hfree
    refine ⟨.term, by simpa [Step.call?, hnone] using hround, fun _ => ?_⟩
    exact (Span.aims_kill_last (hspans (hfree .kill)) hsignals).trans (hx.trans hnone)
  | ask =>
    obtain ⟨rfl, hfree⟩ := h
    exact ends_sendTo (hx ▸ SignalRound.first hfree) (fun hs => by cases hs) hcalls'
  | @listed s _ _ rest =>
    obtain ⟨hround, hfired⟩ := h
    have hround := hround.hear (x := x) hle fun hs => .inl (hfired hs)
    exact ⟨⟨s, rest, by simpa [Step.call?] using hround⟩, fun _ _ he => by cases he⟩
  | unlisted =>
    obtain ⟨hround, hfired⟩ := h
    exact ends_sendTo (hround.hear hle fun hs => .inl (hfired hs))
      (fun hs _ => Span.any_concat (hfired hs)) hcalls'
  | @ended s _ hnone =>
    obtain ⟨hround, hfired, -⟩ := h
    have hround' := hround.hear (x := x) hle fun hs => .inl (hfired hs)
    refine ⟨s, by simpa [Step.call?] using hround', fun hs => ?_⟩
    exact (Span.aims_kill_last (hspans (hround.quiet hs)) hsignals).trans (hx.trans hnone)
  | again =>
    obtain ⟨hround, hfired, hdue⟩ := h
    rw [show (Step.stay (exitPause ..)).call? j = none from rfl, Option.map_none,
      Option.toList_none, List.append_nil]
    exact ⟨hround.hear hle fun hs => .inl (hfired hs), fun hs => Span.any_concat (hfired hs), hdue⟩
  | kill hne hover =>
    obtain ⟨hround, -, hdue⟩ := h
    exact ends_sendTo (hx ▸ hround.next (hspans (hround.quiet rfl)) hsignals
      fun x hx hs => Nat.le_trans (hdue x hx hs) hover) (fun _ h => absurd h hne) hcalls'
  | outlast hne hover =>
    obtain ⟨hround, hfired, hdue⟩ := h
    have hround' := hround.hear (x := x) hle fun hs => .inl (hfired hs)
    simp only [Step.call?, Option.map_none, Option.toList_none, List.append_nil]
    refine ⟨⟨.kill, [], hround'⟩, fun pids' waited he => ?_⟩
    cases he
    exact ⟨hround', rfl, hne, fun x hx hs => Nat.le_trans (hdue x hx hs) hover⟩

end Position

namespace Stint

variable {j : Job} {t₀ now : Instant} {replies : Replies} {spans : List Span} {step : Step}

/-- By induction on the stint: what follows a lookup, a signal and a pause is as it should be. -/
theorem ends (h : Stint j .killExisting t₀ replies spans now step) :
    step.Ends j spans (calls j spans now step) now := by
  induction h with
  | enter hp =>
    cases hp
    exact ⟨rfl, fun s => by cases s <;> rfl⟩
  | @hear spans now t p r h hready ih =>
    have hle : now ≤ t := Wait.le_of_ready (fun _ => Wait.le_of_due) hready
    have hcalls := h.calls_le
    rw [calls_hear]
    cases p with
    | lookingUp why =>
      cases hfound : Position.found (r : Except ExecError (List Pid)) with
      | error e =>
        have hstep : Position.resume j t (.lookingUp why) r = .failed e := by
          simp only [Position.resume, hfound]
        have htool : ∀ pids waited, e ≠ .stillRunning pids waited := by
          rintro pids waited rfl
          obtain ⟨_, _, _, he⟩ := Position.found_eq_error_iff.mp hfound
          cases he
        rw [hstep]
        refine ⟨?_, fun pids waited he => absurd he (htool pids waited)⟩
        simpa [Step.call?] using Position.round_of_lookingUp ih hle
      | ok pids =>
        have hstep : Position.resume j t (.lookingUp why) r = Position.lookedUp j t pids why := by
          simp only [Position.resume, hfound]
        rw [hstep]
        refine Position.ends_lookedUp ih hle ?_ rfl Span.any_signals_of_targets hcalls
        exact congrArg (Option.getD · []) (Position.found_eq_ok_iff.mp hfound)
    | signalling s pid rest =>
      let x : Span := ⟨now, t, (Position.signalling s pid rest).wait j, r⟩
      have hx (hs : s = .kill) : x.signals .kill = true := by
        subst hs
        rfl
      have hround : SignalRound j (spans ++ [x]) _ t s rest := ih.hear hle fun hs => .inr (hx hs)
      have hfired (hs : s = .kill) : (spans ++ [x]).any (Span.signals .kill) = true :=
        List.any_eq_true.mpr ⟨x, List.mem_append_right _ (List.mem_singleton_self _), hx hs⟩
      cases r with
      | ok _ =>
        exact Position.ends_sendTo hround (fun hs _ => hfired hs) fun x hx =>
          Nat.le_trans (hcalls x hx) hle
      | error e => exact ⟨hround.snoc fun _ => rfl, hfired⟩
    | exitPause s deadline until_ =>
      obtain ⟨hround, hfired, hdue⟩ := ih
      exact ⟨(hround.hear hle fun hs => .inl (hfired hs)).snoc fun _ => rfl,
        fun hs => Span.any_concat (hfired hs),
        fun x hx hs => hdue x (mem_of_mem_concat rfl hx hs) hs⟩
    | _ => cases h.stage_eq

/-- All but the beginning belongs to a round. -/
theorem round (h : Stint j .killExisting t₀ replies spans now step) :
    (∀ s, targets s (calls j spans now step) = []) ∨
      ∃ s rest, SignalRound j spans (calls j spans now step) now s rest := by
  have hends := h.ends
  cases step with
  | passed =>
    obtain ⟨s, hround, -⟩ := hends
    exact .inr ⟨s, [], hround⟩
  | failed e => exact .inr hends.1
  | stay p =>
    cases p with
    | lookingUp why =>
      cases why with
      | first => exact .inl hends.2
      | recheck s pid source rest => exact .inr ⟨s, rest, hends.1⟩
      | untilGone s deadline => exact .inr ⟨s, [], hends.1⟩
    | signalling s pid rest => exact .inr ⟨s, rest, hends⟩
    | exitPause s deadline until_ => exact .inr ⟨s, [], hends.1⟩
    | _ => exact hends.elim

end Stint

end Rollout
