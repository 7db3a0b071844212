import Rollout.Proofs.Upgrade.Rounds

/-!
# The end of a running binary

How a run ends a running binary before it copies the new one.

- **Single waits** (`Position.lookedUp_of_shown`, `Position.failed_of_lookup`,
  `Position.signalling_of_unsent`): what follows a lookup that shows processes or that has no tool,
  and what follows a signal that failed.
- **The sequence** (`KillSequence`): whom the signals go to and when, what becomes of a signal that
  failed, and when the end of a binary succeeds or fails.
- **How long it takes** (`Step.EndsBy`): each step is in time where all calls are answered at once
  (`Stint.endsBy`).

`kill_sequence` says all of that together.
-/

namespace Rollout

/-! ## Single waits -/

namespace Position

variable {j : Job} {begun now t : Instant} {p : Position} {r : (p.wait j).Result} {s : Signal}
  {pid : Pid} {e : ExecError} {rest pids : List Pid}

/-- What follows a lookup that shows some processes. -/
theorem lookedUp_of_shown (h : Span.shown? ⟨begun, t, p.wait j, r⟩ = some pids) :
    ∃ why, p = .lookingUp why ∧ p.resume j t r = lookedUp j t pids why := by
  cases p with
  | lookingUp why =>
    refine ⟨why, rfl, ?_⟩
    simp only [resume, found_eq_ok_iff.mpr h]
  | _ => cases h

/-- What follows a lookup that has no tool. -/
theorem failed_of_lookup (h : Span.lookup? ⟨begun, t, p.wait j, r⟩ = some (.error e))
    (htool : e.isCommandNotFound = true) : p.resume j t r = .failed (.findPids e) := by
  cases p with
  | lookingUp why =>
    have hfound := found_eq_error_iff.mpr ⟨e, Option.some.inj h, htool, rfl⟩
    simp only [resume, hfound]
  | _ => cases h

/-- What follows a signal that failed. -/
theorem signalling_of_unsent (h : Span.unsent? ⟨begun, t, p.wait j, r⟩ = some (s, pid, e)) :
    ∃ rest, p = .signalling s pid rest ∧
      p.resume j t r = .stay (.lookingUp (.recheck s pid e rest)) := by
  cases p with
  | signalling s' pid' rest =>
    cases r with
    | ok _ => cases h
    | error e' =>
      cases h
      exact ⟨rest, rfl, rfl⟩
  | _ => cases h

theorem sendTo_ne_failed {e : UpgradeError} : sendTo j now s pids ≠ .failed e := by
  intro h
  cases pids <;> cases h

theorem sendTo_ne_recheck {s' : Signal} :
    sendTo j now s' pids ≠ .stay (.lookingUp (.recheck s pid e rest)) := by
  intro h
  cases pids <;> cases h

theorem lookedUp_ne_recheck {why : Lookup} :
    lookedUp j now pids why ≠ .stay (.lookingUp (.recheck s pid e rest)) := by
  intro h
  have hafter := after_lookedUp j now pids why
  generalize lookedUp j now pids why = step at h hafter
  cases hafter with
  | ask | unlisted | kill => exact sendTo_ne_recheck h
  | _ => cases h

/-- Only a signal that failed is followed by a lookup of its process. -/
theorem unsent_of_recheck (h : p.resume j t r = .stay (.lookingUp (.recheck s pid e rest))) :
    Span.unsent? ⟨begun, t, p.wait j, r⟩ = some (s, pid, e) := by
  cases p with
  | lookingUp why =>
    simp only [resume] at h
    split at h
    · exact absurd h lookedUp_ne_recheck
    · cases h
  | signalling s' pid' rest' =>
    cases r with
    | ok _ => exact absurd h sendTo_ne_recheck
    | error e' =>
      cases h
      rfl
  | exitPause s' deadline until_ => cases h
  | _ => cases (stay_of_resume h).1

/-- A lookup that found processes fails for one that could not be signalled, or for all where they
outlasted both signals. -/
theorem failed_of_lookedUp {why : Lookup} {e : UpgradeError}
    (h : lookedUp j now pids why = .failed e) :
    (∃ s pid source rest, why = .recheck s pid source rest ∧ pid ∈ pids ∧
      e = .signal s pid source) ∨
    pids ≠ [] ∧ e = .stillRunning pids j.timeouts.killWait := by
  have hafter := after_lookedUp j now pids why
  generalize lookedUp j now pids why = step at h hafter
  cases hafter with
  | idle | ended | again => cases h
  | ask | unlisted | kill => exact absurd h sendTo_ne_failed
  | listed hmem =>
    cases h
    exact .inl ⟨_, _, _, _, rfl, hmem, rfl⟩
  | outlast hne =>
    cases h
    exact .inr ⟨hne, rfl⟩

/-- Only a lookup that has no tool, or that shows processes, fails the end of a binary. -/
theorem lookingUp_of_failed {e : UpgradeError} (begun : Instant) (hp : p.stage = .killExisting)
    (h : p.resume j t r = .failed e) : ∃ why, p = .lookingUp why ∧
      ((∃ source, Span.lookup? ⟨begun, t, p.wait j, r⟩ = some (.error source) ∧
        source.isCommandNotFound = true ∧ e = .findPids source) ∨
      ∃ pids, Span.shown? ⟨begun, t, p.wait j, r⟩ = some pids ∧
        lookedUp j t pids why = .failed e) := by
  cases p with
  | lookingUp why =>
    refine ⟨why, rfl, ?_⟩
    simp only [resume] at h
    split at h
    · exact .inr ⟨_, found_eq_ok_iff.mp ‹_›, h⟩
    · cases h
      obtain ⟨source, hsource, htool, he⟩ := found_eq_error_iff.mp ‹_›
      exact .inl ⟨source, congrArg some hsource, htool, he⟩
  | signalling s pid rest =>
    cases r with
    | ok _ => exact absurd h sendTo_ne_failed
    | error e' => cases h
  | exitPause s deadline until_ => cases h
  | _ => cases hp

end Position

/-! ## The sequence -/

/-- The call that looks for the processes of a binary. -/
def Job.lookup (j : Job) : Call := .find j.backend.ip (j.config.processName j.backend.port)

/-- What follows a signal that failed, where so many waits ended before it. -/
structure Rechecked (j : Job) (spans : List Span) (now : Instant) (step : Step) (n : Nat)
    (s : Signal) (pid : Pid) (e : ExecError) : Prop where
  /-- The run looks for the processes right after it. -/
  looks : n + 1 = spans.length → step.call? j = some j.lookup
  answered : ∀ y, spans[n + 1]? = some y → ∃ r, y.lookup? = some r
  /-- Where that one is among them, the run fails. -/
  listed : ∀ y pids, spans[n + 1]? = some y → y.shown? = some pids → pid ∈ pids →
    n + 2 = spans.length ∧ step = .failed (.signal s pid e)
  /-- Otherwise it signals the next one, or looks again where it signalled all. -/
  gone : ∀ y pids, spans[n + 1]? = some y → y.shown? = some pids → pid ∉ pids →
    n + 2 = spans.length → (∃ next, step.call? j = some (.signal j.backend.ip s next)) ∨
      targets s (Stint.calls j spans now step) = Span.aims spans s ∧
        step.call? j = some j.lookup

/-- Why the end of a binary fails at its last wait, which was for a lookup. -/
inductive Unended (j : Job) (spans : List Span) (calls : List (Instant × Call)) (x : Span) :
    UpgradeError → Prop
  /-- Its tool is missing. -/
  | noTool {e : ExecError} : x.lookup? = some (.error e) → e.isCommandNotFound = true →
    Unended j spans calls x (.findPids e)
  /-- It still shows the process that the wait before it could not signal. -/
  | unsent {y : Span} {s : Signal} {pid : Pid} {e : ExecError} {pids : List Pid} :
    spans.dropLast.getLast? = some y → y.unsent? = some (s, pid, e) →
    x.shown? = some pids → pid ∈ pids → Unended j spans calls x (.signal s pid e)
  /-- It is answered when the last process that was ended had its time, and shows some. -/
  | outlasted {pids : List Pid} : x.shown? = some pids → pids ≠ [] →
    (∀ y ∈ calls, (y.2.target? .kill).isSome → y.1 + j.timeouts.killWait.nanos ≤ x.ended) →
    (∀ s, targets s calls = Span.aims spans s) →
    Unended j spans calls x (.stillRunning pids j.timeouts.killWait)

/-- What is known of the end of a running binary, from its beginning to its end. -/
structure KillSequence (j : Job) (spans : List Span) (now : Instant) (step : Step) : Prop where
  /-- It succeeds only where the last lookup showed no process, and all were signalled. -/
  succeeds : step = .passed → (∃ x, spans.getLast? = some x ∧ x.shown? = some []) ∧
    ∀ s, targets s (Stint.calls j spans now step) = Span.aims spans s
  /-- It fails as soon as the tool of a lookup is missing, -/
  noTool : ∀ n x e, spans[n]? = some x → x.lookup? = some (.error e) →
    e.isCommandNotFound = true → n + 1 = spans.length ∧ step = .failed (.findPids e)
  /-- and for nothing but what its last lookup says. -/
  fails : ∀ e, step = .failed e → ∃ x, spans.getLast? = some x ∧
    Unended j spans (Stint.calls j spans now step) x e
  /-- A signal goes to those that it is for and no others, in order. -/
  aims : ∀ s, targets s (Stint.calls j spans now step) <+: Span.aims spans s
  /-- Before one is ended, all were asked, -/
  asked : targets .kill (Stint.calls j spans now step) ≠ [] →
    targets .term (Stint.calls j spans now step) = Span.aims spans .term
  /-- and each had time to end. -/
  apart : ∀ x ∈ Stint.calls j spans now step, ∀ y ∈ Stint.calls j spans now step,
    (x.2.target? .term).isSome → (y.2.target? .kill).isSome →
      x.1 + j.timeouts.termWait.nanos ≤ y.1
  /-- A signal that failed is an error only where its process is still there. -/
  rechecked : ∀ n x s pid e, spans[n]? = some x → x.unsent? = some (s, pid, e) →
    Rechecked j spans now step n s pid e

namespace Stint

variable {j : Job} {t₀ now : Instant} {replies : Replies} {spans : List Span} {step : Step}
  {n : Nat} {x : Span}

theorem noTool_of_lookup {e : ExecError} (h : Stint j .killExisting t₀ replies spans now step)
    (hx : spans[n]? = some x) (hlookup : x.lookup? = some (.error e))
    (htool : e.isCommandNotFound = true) :
    n + 1 = spans.length ∧ step = .failed (.findPids e) := by
  obtain ⟨begun, t, p, r, rfl, -, -, -, hnext⟩ := h.of_getElem? hx
  have hfailed := Position.failed_of_lookup hlookup htool
  rcases hnext with ⟨hlen, -, hstep⟩ | ⟨-, q, hstay⟩
  · exact ⟨hlen, hstep.trans hfailed⟩
  · cases hfailed.symm.trans hstay

/-- The wait before a lookup of a process that could not be signalled. -/
theorem unsent_of_recheck {s : Signal} {pid : Pid} {e : ExecError} {rest : List Pid}
    (h : Stint j .killExisting t₀ replies spans now (.stay (.lookingUp (.recheck s pid e rest)))) :
    ∃ y, spans.getLast? = some y ∧ y.unsent? = some (s, pid, e) := by
  generalize hstep : Step.stay (.lookingUp (.recheck s pid e rest)) = step at h
  cases h with
  | enter hp =>
    cases hp
    cases hstep
  | hear _ _ => exact ⟨_, List.getLast?_concat, Position.unsent_of_recheck hstep.symm⟩

/-- The end of a binary is over with success only after a lookup that showed no process. -/
theorem shown_of_passed (h : Stint j .killExisting t₀ replies spans now .passed) :
    ∃ x, spans.getLast? = some x ∧ x.shown? = some [] := by
  generalize hstep : Step.passed = step at h
  cases h with
  | enter _ => cases hstep
  | @hear spans begun t p r hbefore _ =>
    refine ⟨_, List.getLast?_concat, ?_⟩
    have hstage := hbefore.stage_eq
    have hsucceeds := Position.succeeds_of_resume hstep.symm
    rw [hstage] at hsucceeds
    cases p with
    | lookingUp why => exact Position.found_eq_ok_iff.mp hsucceeds.2
    | signalling s pid rest => exact hsucceeds.elim
    | exitPause s deadline until_ => exact hsucceeds.elim
    | _ => cases hstage

theorem unended_of_failed {e : UpgradeError}
    (h : Stint j .killExisting t₀ replies spans now (.failed e)) :
    ∃ x, spans.getLast? = some x ∧ Unended j spans (calls j spans now (.failed e)) x e := by
  have hends := h.ends
  generalize hstep : Step.failed e = step at h
  cases h with
  | enter _ => cases hstep
  | @hear spans begun t p r hbefore _ =>
    refine ⟨_, List.getLast?_concat, ?_⟩
    rw [← hstep]
    obtain ⟨why, rfl, ⟨source, hlookup, htool, rfl⟩ | ⟨pids, hshown, hfailed⟩⟩ :=
      Position.lookingUp_of_failed begun hbefore.stage_eq hstep.symm
    · exact .noTool hlookup htool
    · rcases Position.failed_of_lookedUp hfailed with
        ⟨s, pid, source, rest, rfl, hmem, rfl⟩ | ⟨hne, rfl⟩
      · obtain ⟨y, hy, hunsent⟩ := hbefore.unsent_of_recheck
        exact .unsent (by rwa [List.dropLast_concat]) hunsent hshown hmem
      · obtain ⟨hround, -, -, hover⟩ := hends.2 _ _ rfl
        exact .outlasted hshown hne hover hround.targets_eq

/-- After a signal that failed the run looks for its process, and goes on as that lookup says. -/
theorem lookup_of_unsent (h : Stint j .killExisting t₀ replies spans now step) {s : Signal}
    {pid : Pid} {e : ExecError} (hx : spans[n]? = some x)
    (hunsent : x.unsent? = some (s, pid, e)) : ∃ rest,
      (n + 1 = spans.length → step = .stay (.lookingUp (.recheck s pid e rest))) ∧
      ∀ y, spans[n + 1]? = some y → (∃ r, y.lookup? = some r) ∧
        ∀ pids, y.shown? = some pids →
          n + 2 = spans.length ∧ step = Position.lookedUp j now pids (.recheck s pid e rest) ∨
          n + 2 < spans.length ∧ ∃ t q, Position.lookedUp j t pids (.recheck s pid e rest) =
            .stay q := by
  obtain ⟨begun, t, p, r, rfl, -, -, hafter, hnext⟩ := h.of_getElem? hx
  obtain ⟨rest, rfl, hrecheck⟩ := Position.signalling_of_unsent hunsent
  refine ⟨rest, fun hlen => ?_, fun y hy => ?_⟩
  · rcases hnext with ⟨-, -, hstep⟩ | ⟨hlt, -⟩
    · exact hstep.trans hrecheck
    · exact absurd hlen (Nat.ne_of_lt hlt)
  · -- The stage stood where it looks for the process, so that is what the next wait was for.
    obtain ⟨begun', t', p', r', rfl, hbefore, -, -, hnext⟩ := h.of_getElem? hy
    rw [hrecheck] at hafter
    obtain ⟨rfl, hp⟩ := hafter.unique hbefore
    cases hp
    refine ⟨⟨_, rfl⟩, fun pids hpids => ?_⟩
    obtain ⟨_, hwhy, hstep⟩ := Position.lookedUp_of_shown hpids
    cases hwhy
    rw [hstep] at hnext
    rcases hnext with ⟨hlen, rfl, hnow⟩ | ⟨hlt, q, hstay⟩
    · exact .inl ⟨hlen, hnow⟩
    · exact .inr ⟨hlt, t', q, hstay⟩

theorem rechecked (h : Stint j .killExisting t₀ replies spans now step) {s : Signal} {pid : Pid}
    {e : ExecError} (hx : spans[n]? = some x) (hunsent : x.unsent? = some (s, pid, e)) :
    Rechecked j spans now step n s pid e := by
  obtain ⟨rest, hlooks, hlookup⟩ := h.lookup_of_unsent hx hunsent
  refine ⟨fun hlen => ?_, fun y hy => (hlookup y hy).1, fun y pids hy hpids hmem => ?_,
    fun y pids hy hpids hmem hlen => ?_⟩
  · rw [hlooks hlen]
    rfl
  · have hfailed (t : Instant) : Position.lookedUp j t pids (.recheck s pid e rest) =
        .failed (.signal s pid e) := if_pos hmem
    rcases (hlookup y hy).2 pids hpids with ⟨hlen, hstep⟩ | ⟨-, t, q, hstay⟩
    · exact ⟨hlen, hstep.trans (hfailed now)⟩
    · cases (hfailed t).symm.trans hstay
  · have hsent : Position.lookedUp j now pids (.recheck s pid e rest) =
        Position.sendTo j now s rest := if_neg hmem
    rcases (hlookup y hy).2 pids hpids with ⟨-, hstep⟩ | ⟨hlt, -⟩
    · obtain rfl := hstep.trans hsent
      have hends := h.ends
      cases rest with
      | nil => exact .inr ⟨by simpa using hends.1.aim, rfl⟩
      | cons pid' rest => exact .inl ⟨pid', rfl⟩
    · exact absurd hlen (Nat.ne_of_lt hlt)

theorem killSequence (h : Stint j .killExisting t₀ replies spans now step) :
    KillSequence j spans now step where
  succeeds := by
    rintro rfl
    obtain ⟨s, hround, hnone⟩ := h.ends
    refine ⟨h.shown_of_passed, fun s' => ?_⟩
    cases s with
    | kill => exact hround.targets_eq s'
    | term =>
      cases s' with
      | term => rw [← hround.aim, List.append_nil]
      | kill => rw [hround.quiet rfl, hnone rfl]
  noTool n x e hx hlookup htool := h.noTool_of_lookup hx hlookup htool
  fails := by
    rintro e rfl
    exact h.unended_of_failed
  aims s := by
    rcases h.round with hnone | ⟨s', rest, hround⟩
    · exact hnone s ▸ List.nil_prefix
    · exact hround.targets_prefix s
  asked hne := by
    rcases h.round with hnone | ⟨s, rest, hround⟩
    · exact absurd (hnone .kill) hne
    · cases s with
      | term => exact absurd (hround.quiet rfl) hne
      | kill => exact hround.asked rfl
  apart := by
    rcases h.round with hnone | ⟨s, rest, hround⟩
    · intro x hx y hy hterm
      rw [targets_eq_nil_iff.mp (hnone .term) x hx] at hterm
      cases hterm
    · exact hround.apart
  rechecked n x s pid e hx hunsent := h.rechecked hx hunsent

end Stint

/-! ## How long it takes -/

/-- A call that is answered at once takes no time. -/
theorem Wait.eq_of_atOnce {replies : Replies} {n : Nat} {begun t : Instant} {w : Wait} {c : Call}
    {e : Event w} (honce : replies.AtOnce) (hc : w = .call c)
    (h : w.ready begun (replies.due n begun w) = some (t, e)) : t = begun := by
  subst hc
  obtain ⟨r, hr⟩ := honce n c
  simp only [ready, Replies.due, hr, Option.map_some] at h
  cases h
  rfl

namespace Job

/-- When the time to end after a signal is over at the latest, and the last pause in it too, where
all calls are answered at once. -/
def exitBy (j : Job) (t₀ : Instant) : Signal → Instant
  | .term => t₀ + j.timeouts.termWait.nanos + j.timeouts.pollInterval.nanos
  | .kill => t₀ + j.timeouts.termWait.nanos + j.timeouts.killWait.nanos +
    2 * j.timeouts.pollInterval.nanos

theorem exitBy_le (j : Job) (t₀ : Instant) (s : Signal) : j.exitBy t₀ s ≤ j.exitBy t₀ .kill := by
  cases s <;> simp only [exitBy] <;> grind

end Job

/-- What is true of the end of a binary that began at `t₀` where a run stands, if all calls are
answered at once. -/
def Step.EndsBy (j : Job) (t₀ now : Instant) : Step → Prop
  | .stay (.lookingUp .first) => now = t₀
  | .stay (.signalling s _ _) | .stay (.lookingUp (.recheck s _ _ _)) =>
    now + (j.exitWait s).nanos + j.timeouts.pollInterval.nanos ≤ j.exitBy t₀ s
  | .stay (.lookingUp (.untilGone s deadline)) =>
    now < deadline + j.timeouts.pollInterval.nanos ∧
      deadline + j.timeouts.pollInterval.nanos ≤ j.exitBy t₀ s
  | .stay (.exitPause s deadline until_) => now < deadline ∧
    until_ = now + j.timeouts.pollInterval.nanos ∧
      deadline + j.timeouts.pollInterval.nanos ≤ j.exitBy t₀ s
  | .stay _ => False
  | .passed | .failed _ => now < j.exitBy t₀ .kill

/-- All of the end of a binary is in time. -/
theorem Step.EndsBy.lt {j : Job} {t₀ now : Instant} {step : Step}
    (hpoll : 0 < j.timeouts.pollInterval.nanos) (h : step.EndsBy j t₀ now) :
    now < j.exitBy t₀ .kill := by
  have hle := j.exitBy_le t₀
  cases step with
  | passed => exact h
  | failed e => exact h
  | stay p =>
    cases p with
    | lookingUp why =>
      cases why with
      | first =>
        obtain rfl : now = t₀ := h
        simp only [Job.exitBy]
        grind
      | recheck s pid source rest =>
        exact Nat.lt_of_lt_of_le (Nat.lt_add_of_pos_right hpoll)
          (Nat.le_trans (Nat.add_le_add_right (Nat.le_add_right _ _) _) (Nat.le_trans h (hle s)))
      | untilGone s deadline => exact Nat.lt_of_lt_of_le h.1 (Nat.le_trans h.2 (hle s))
    | signalling s pid rest =>
      exact Nat.lt_of_lt_of_le (Nat.lt_add_of_pos_right hpoll)
        (Nat.le_trans (Nat.add_le_add_right (Nat.le_add_right _ _) _) (Nat.le_trans h (hle s)))
    | exitPause s deadline until_ =>
      exact Nat.lt_of_lt_of_le h.1
        (Nat.le_trans (Nat.le_add_right _ _) (Nat.le_trans h.2.2 (hle s)))
    | _ => exact h.elim

namespace Position

variable {j : Job} {t₀ now : Instant} {s : Signal} {rest pids : List Pid}

theorem endsBy_sendTo (hpoll : 0 < j.timeouts.pollInterval.nanos)
    (h : now + (j.exitWait s).nanos + j.timeouts.pollInterval.nanos ≤ j.exitBy t₀ s) :
    (sendTo j now s rest).EndsBy j t₀ now := by
  cases rest with
  | nil => exact ⟨Nat.lt_of_le_of_lt (Nat.le_add_right _ _) (Nat.lt_add_of_pos_right hpoll), h⟩
  | cons pid rest => exact h

theorem endsBy_lookedUp {why : Lookup} (hpoll : 0 < j.timeouts.pollInterval.nanos)
    (hclock : t₀.Shows ⟨j.timeouts.termWait.nanos + j.timeouts.killWait.nanos +
      2 * j.timeouts.pollInterval.nanos⟩)
    (h : (Step.stay (.lookingUp why)).EndsBy j t₀ now) :
    (lookedUp j now pids why).EndsBy j t₀ now := by
  have hlt := h.lt hpoll
  have hafter := after_lookedUp j now pids why
  generalize lookedUp j now pids why = step at hafter ⊢
  cases hafter with
  | idle | listed | ended | outlast => exact hlt
  | ask =>
    obtain rfl : now = t₀ := h
    exact endsBy_sendTo hpoll (Nat.le_refl _)
  | unlisted => exact endsBy_sendTo hpoll h
  | kill =>
    obtain ⟨hnow, hdeadline⟩ := h
    refine endsBy_sendTo hpoll ?_
    simp only [Job.exitBy, Job.exitWait] at hdeadline ⊢
    grind
  | @again s deadline _ hearly =>
    obtain ⟨-, hdeadline⟩ := h
    refine ⟨hearly, Instant.Shows.wakeAfter (hclock.before ?_), hdeadline⟩
    calc now + j.timeouts.pollInterval.nanos
      _ ≤ deadline + j.timeouts.pollInterval.nanos :=
        Nat.add_le_add_right (Nat.le_of_lt hearly) _
      _ ≤ j.exitBy t₀ .kill := Nat.le_trans hdeadline (j.exitBy_le t₀ s)
      _ = _ := by simp only [Job.exitBy, Nat.add_assoc]

end Position

namespace Stint

variable {j : Job} {t₀ now : Instant} {replies : Replies} {spans : List Span} {step : Step}

/-- By induction on the stint: a call takes no time. -/
theorem endsBy (h : Stint j .killExisting t₀ replies spans now step) (honce : replies.AtOnce)
    (hpoll : 0 < j.timeouts.pollInterval.nanos)
    (hclock : t₀.Shows ⟨j.timeouts.termWait.nanos + j.timeouts.killWait.nanos +
      2 * j.timeouts.pollInterval.nanos⟩) : step.EndsBy j t₀ now := by
  induction h with
  | enter hp =>
    cases hp
    rfl
  | @hear spans now t p r h hready ih =>
    have hnow {c : Call} (hc : p.wait j = .call c) : t = now := Wait.eq_of_atOnce honce hc hready
    cases p with
    | lookingUp why =>
      obtain rfl := hnow rfl
      simp only [Position.resume]
      split
      · exact Position.endsBy_lookedUp hpoll hclock ih
      · exact ih.lt hpoll
    | signalling s pid rest =>
      obtain rfl := hnow rfl
      cases r with
      | ok _ => exact Position.endsBy_sendTo hpoll ih
      | error e => exact ih
    | exitPause s deadline until_ =>
      obtain ⟨hearly, rfl, hdeadline⟩ := ih
      obtain rfl := Wait.ready_pause hready
      refine ⟨?_, hdeadline⟩
      rw [Nat.max_eq_right (Nat.le_add_right _ _)]
      exact Nat.add_lt_add_right hearly _
    | _ => cases h.stage_eq

end Stint

/-- **The end of a running binary.** Within a context that goes on, for any replies and however late
they come, a run that ends a binary does what `KillSequence` says. Where all calls are answered at
once the stage is over before both waits and two pauses are, and the replies settle how. -/
theorem kill_sequence (j : Job) (t₀ : Instant) (replies : Replies) :
    (∀ spans now step, Stint j .killExisting t₀ replies spans now step →
      KillSequence j spans now step) ∧
    (replies.AtOnce → 0 < j.timeouts.pollInterval.nanos →
      t₀.Shows ⟨j.timeouts.termWait.nanos + j.timeouts.killWait.nanos +
        2 * j.timeouts.pollInterval.nanos⟩ →
      ∃ spans now step, Stint j .killExisting t₀ replies spans now step ∧ step.isOver = true ∧
        now < t₀ + j.timeouts.termWait.nanos + j.timeouts.killWait.nanos +
          2 * j.timeouts.pollInterval.nanos ∧
        ∀ spans' now' step', Stint j .killExisting t₀ replies spans' now' step' →
          spans' <+: spans) := by
  refine ⟨fun spans now step h => h.killSequence, fun honce hpoll hclock => ?_⟩
  have hlt {spans now step} (h : Stint j .killExisting t₀ replies spans now step) :
      now < j.exitBy t₀ .kill := (h.endsBy honce hpoll hclock).lt hpoll
  obtain ⟨spans, now, step, hstint, hover⟩ := Stint.exists_isOver hpoll
    (fun h => Nat.le_of_lt (hlt h))
    (fun {spans now p} _ => Wait.exists_ready replies spans.length now (p.wait j) fun c hc => by
      obtain ⟨r, hr⟩ := honce spans.length c
      rw [hc, hr]
      rfl)
    (.enter rfl : Stint j .killExisting t₀ replies [] t₀ _)
  exact ⟨spans, now, step, hstint, hover, hlt hstint, fun _ _ _ h =>
    hstint.prefix_of_isOver hover h⟩

/-- Replies to lookups some time after each, to signals, and to all other calls at once. -/
def Replies.ofLookups (find : Nat → Duration × Except ExecError (List Pid))
    (signal : Signal → Except ExecError Unit) : Replies
  | n, .call (.find _ _) => some (find n)
  | _, .call (.signal _ s _) => some (⟨0⟩, signal s)
  | _, .call (.poolHealth _) => some (⟨0⟩, .ok default)
  | _, .call (.addPool _ _ _) | _, .call (.removeBackend _ _) | _, .call (.addBackend _ _)
  | _, .call (.start _ _ _) => some (⟨0⟩, .ok ())
  | _, .call (.copy _ _ _ _) => some (⟨0⟩, .ok 0)
  | _, .call (.probe _) => some (⟨0⟩, .healthy)
  | _, _ => none

/-- A process that was to be asked to end is gone and another one is there, which ends when it is
ended. -/
theorem kill_sequence_ended : ∃ (j : Job) (replies : Replies) (spans : List Span),
    replies.AtOnce ∧ 0 < j.timeouts.pollInterval.nanos ∧
    Instant.Shows 0 ⟨j.timeouts.termWait.nanos + j.timeouts.killWait.nanos +
      2 * j.timeouts.pollInterval.nanos⟩ ∧
    Stint j .killExisting 0 replies spans 12 .passed ∧
    targets .term (Stint.calls j spans 12 .passed) = [7] ∧
    targets .kill (Stint.calls j spans 12 .passed) = [8] ∧
    KillSequence j spans 12 .passed ∧
    ∃ spans' now step, Stint j .killExisting 0 replies spans' now step ∧ step.isOver = true ∧
      now < 0 + j.timeouts.termWait.nanos + j.timeouts.killWait.nanos +
        2 * j.timeouts.pollInterval.nanos := by
  let j : Job := ⟨default, ⟨⟨10⟩, ⟨20⟩, ⟨300⟩, ⟨6⟩⟩, "10.0.0.1:80", default, .directory⟩
  let gone : ExecError := .nonZeroExit "kill 7" 1 "No such process"
  let replies : Replies := .ofLookups
    (fun n => (⟨0⟩, .ok (if n = 0 then [7] else if n < 9 then [8] else [])))
    (fun s => if s = .term then .error gone else .ok ())
  have honce : replies.AtOnce := fun n c => by cases c <;> exact ⟨_, rfl⟩
  have hclock : Instant.Shows 0 ⟨j.timeouts.termWait.nanos + j.timeouts.killWait.nanos +
      2 * j.timeouts.pollInterval.nanos⟩ := by
    unfold Instant.Shows
    decide +kernel
  have asked : Stint j .killExisting 0 replies _ 0
      (.stay (.lookingUp (.recheck .term 7 gone []))) :=
    .hear (p := .signalling .term 7 []) (r := Except.error gone)
      (.hear (p := .lookingUp .first) (r := Except.ok [7]) (.enter rfl) rfl) rfl
  have waiting : Stint j .killExisting 0 replies _ 0 (.stay (.exitPause .term 10 6)) :=
    .hear (p := .lookingUp (.untilGone .term 10)) (r := Except.ok [8])
      (.hear (p := .lookingUp (.recheck .term 7 gone [])) (r := Except.ok [8]) asked rfl) rfl
  have outlasted : Stint j .killExisting 0 replies _ 6 (.stay (.exitPause .term 10 12)) :=
    .hear (p := .lookingUp (.untilGone .term 10)) (r := Except.ok [8])
      (.hear (p := .exitPause .term 10 6) (r := ()) waiting rfl) rfl
  have ending : Stint j .killExisting 0 replies _ 12 (.stay (.signalling .kill 8 [])) :=
    .hear (p := .lookingUp (.untilGone .term 10)) (r := Except.ok [8])
      (.hear (p := .exitPause .term 10 12) (r := ()) outlasted rfl) rfl
  have ended : Stint j .killExisting 0 replies _ 12 .passed :=
    .hear (p := .lookingUp (.untilGone .kill 32)) (r := Except.ok [])
      (.hear (p := .signalling .kill 8 []) (r := Except.ok ()) ending rfl) rfl
  obtain ⟨law, ends⟩ := kill_sequence j 0 replies
  obtain ⟨spans, now, step, hstint, hover, hlt, -⟩ := ends honce (by decide) hclock
  exact ⟨j, replies, _, honce, by decide, hclock, ended, rfl, rfl, law _ _ _ ended,
    spans, now, step, hstint, hover, hlt⟩

/-- A lookup that is made before the last process had its time, and answered after it, is the last
one: what it finds is still running by then. -/
theorem late_lookup_outlasted : ¬ ∀ (j : Job) (t₀ : Instant) (replies : Replies)
    (spans : List Span) (now : Instant) (pids : List Pid) (waited : Duration),
    0 < j.timeouts.pollInterval.nanos →
    Stint j .killExisting t₀ replies spans now (.failed (.stillRunning pids waited)) →
    ∀ x ∈ spans.getLast?, ∀ y ∈ Stint.calls j spans now (.failed (.stillRunning pids waited)),
      (y.2.target? .kill).isSome → y.1 + j.timeouts.killWait.nanos ≤ x.begun := by
  intro early
  let j : Job := ⟨default, ⟨⟨0⟩, ⟨10⟩, ⟨300⟩, ⟨1⟩⟩, "10.0.0.1:80", default, .directory⟩
  let replies : Replies := .ofLookups (fun n => (if n = 4 then ⟨11⟩ else ⟨0⟩, .ok [100]))
    (fun _ => .ok ())
  have asked : Stint j .killExisting 0 replies _ 0 (.stay (.lookingUp (.untilGone .term 0))) :=
    .hear (p := .signalling .term 100 []) (r := Except.ok ())
      (.hear (p := .lookingUp .first) (r := Except.ok [100]) (.enter rfl) rfl) rfl
  have ended : Stint j .killExisting 0 replies _ 0 (.stay (.lookingUp (.untilGone .kill 10))) :=
    .hear (p := .signalling .kill 100 []) (r := Except.ok ())
      (.hear (p := .lookingUp (.untilGone .term 0)) (r := Except.ok [100]) asked rfl) rfl
  have outlasted : Stint j .killExisting 0 replies _ 11
      (.failed (.stillRunning [100] j.timeouts.killWait)) :=
    .hear (p := .lookingUp (.untilGone .kill 10)) (r := Except.ok [100]) ended rfl
  have late := early j 0 replies _ 11 _ _ (by decide) outlasted _ rfl
    (0, .signal j.backend.ip .kill 100) (List.mem_of_getElem? (i := 3) rfl) rfl
  exact absurd late (by decide)

end Rollout
