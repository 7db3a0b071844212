import Rollout.Proofs.Deploy.Outcome
import Rollout.Proofs.Time

/-!
# Limits on the clock

A rollout sets a limit where it asks for its pool, and one for each upgrade. A clock shows the end
of a limit, or its addition overflows.

- **Limits** (`Context.shows_of_within?`): a context has the limits that the clock shows. A pause
  ends where the clock can show it, whatever its length (`Instant.wakeAfter_lt`), and so do the
  waits inside a stage (`Instant.Shows.stages`).
- **Limits of upgrades** (`Run.Began`): an upgrade has begun only where its limit was set; each step
  keeps that (`Scene.Acts.began`, `Scene.Hears.began`), and a rollout that got past the check of the
  pool and ended has set the limit of an upgrade (`Config.Reaches.limited`).
-/

namespace Rollout

/-! ## Limits -/

/-- Whether a clock can show the ends of all waits inside a stage that begin at a point of time. -/
structure Instant.ShowsStages (t : Instant) (timeouts : StageTimeouts) : Prop where
  term : t.Shows timeouts.termWait
  kill : t.Shows timeouts.killWait
  health : t.Shows timeouts.healthWindow
  poll : t.Shows timeouts.pollInterval

namespace Instant

variable {t : Instant}

/-- The waits inside a stage are shorter than the longest sleep. -/
theorem Shows.stages (h : t.Shows longestSleep) : t.ShowsStages .standard where
  term := h.mono (by decide)
  kill := h.mono (by decide)
  health := h.mono (by decide)
  poll := h.mono (by decide)

/-- A pause ends where the clock can show it, as long as the clock has the longest sleep left. -/
theorem wakeAfter_lt (h : t.Shows longestSleep) (d : Duration) : t.wakeAfter d < limit := by
  by_cases hd : t.Shows d
  · rw [wakeAfter, after?_of_shows hd]
    exact hd
  · rw [wakeAfter, after?_of_not_shows hd]
    exact h

end Instant

namespace Context

variable {ctx : Context} {now : Instant} {d : Duration}

theorem shows_of_within? {inner : Context} (h : ctx.within? now d = some inner) : now.Shows d := by
  by_contra hd
  rw [within?, Instant.after?_of_not_shows hd] at h
  cases h

theorem not_shows_of_within? (h : ctx.within? now d = none) : ¬ now.Shows d := fun hd => by
  rw [within?, Instant.after?_of_shows hd] at h
  cases h

end Context

/-! ## Limits of upgrades -/

/-- That the limit of an upgrade has been set is `A`, and true wherever an upgrade has begun. -/
def Run.Began (A : Prop) (fleet : Fleet) : Run → Prop
  | canaryDue index => 0 < index → A
  | canary _ | cooldown _ | ended (.error (.canary _ _)) => A
  | bulk _ | ended (.ok ()) | ended (.error (.maxFailuresExceeded _ _)) =>
    0 < fleet.canaries + fleet.admitted → A
  | _ => True

/-- The same of a fleet in a phase. -/
def Phase.Began (A : Prop) (fleet : Fleet) : Phase → Prop
  | rollout run => run.Began A fleet
  | _ => True

/-- Something is begun in a rollout that came past its canaries and ended. -/
theorem Concluded.pos {fleet fleet' : Fleet} {hs : List Happening} {result : Except RunError Unit}
    (h : Concluded fleet fleet' hs result) (hsize : 0 < fleet.size) :
    0 < fleet.canaries + fleet'.admitted := by
  by_contra hzero
  -- What was not begun did not fail, and where nothing fails all are begun.
  have hentered := h.entered
  rw [Nat.eq_zero_of_not_pos hzero] at hentered
  have hreturns : returns hs = [] :=
    List.map_eq_nil_iff.mp (h.returned.trans hentered).eq_nil
  have hall := h.all (by rw [failedRuns, hreturns]; exact Nat.zero_le _)
  have hle := fleet.canaries_le
  omega

section Began

variable {σ : Type} {env : Surroundings σ} {c : Config} {ctx : Context} {m : Moment} {A : Prop}
  {fleet fleet' : Fleet} {s : σ} {hs new : List Happening}

namespace Run

theorem began_start : (start fleet ctx m).2.Began A (start fleet ctx m).1 := by
  have hs := starts fleet ctx m
  generalize start fleet ctx m = x at hs ⊢
  cases hs <;> trivial

theorem began_canaryLanded (ha : A) (index : Nat) (x : Fleet × Landing) :
    (canaryLanded index x).2.Began A (canaryLanded index x).1 := by
  unfold canaryLanded
  split
  · exact ha
  · exact fun _ => ha
  · exact ha
  · trivial

theorem began_nextCanary {index : Nat} {source : Except IoError Entry}
    (ht : fleet.Trying index []) (hset : m.now.Shows fleet.config.actionTimeout → A)
    (hb : 0 < index → A) : (nextCanary fleet ctx source m index).2.Began A
      (nextCanary fleet ctx source m index).1 := by
  have hn := nexts fleet ctx source m index
  generalize canaryHappenings fleet ctx source m index = seen,
    nextCanary fleet ctx source m index = x at hn ⊢
  cases hn with
  | overflows _ _ => trivial
  | begins _ hw => exact began_canaryLanded (hset (Context.shows_of_within? hw)) _ _
  | skips hle _ =>
    obtain rfl := Nat.le_antisymm ht.le hle
    intro hpos
    rw [ht.admitted] at hpos
    exact hb hpos
  | rests hle hpos _ => exact hb (Nat.lt_of_lt_of_le hpos hle)

end Run

/-- The lead admits an upgrade only where the clock can show the end of its limit. -/
theorem Bulk.admitted_of_moved {b b' : Bulk} {now : Instant}
    (h : b.leadStep fleet ctx now = .moved fleet' b') :
    fleet'.admitted = fleet.admitted ∨ now.Shows fleet.config.actionTimeout := by
  cases leads_of_moved h with
  | @admits index rest inner hl hq =>
    refine .inr ?_
    simp only [leadStep, hl, hq] at h
    cases hw : ctx.within? now fleet.config.actionTimeout with
    | none =>
      rw [hw] at h
      cases h
    | some inner => exact Context.shows_of_within? hw
  | _ => exact .inl rfl

theorem Flight.fleet_admitted_start (fleet : Fleet) (index : Nat) (ctx : Context)
    (source : Except IoError Entry) (m : Moment) :
    (start fleet index ctx source m).1.admitted = fleet.admitted := by
  unfold start
  split
  · rfl
  · split <;> rfl

theorem Flight.fleet_admitted_resume (fleet : Fleet) (f : Flight) (m : Moment)
    (e : Event f.wait) : (f.resume fleet m e).1.admitted = fleet.admitted := by
  unfold resume
  split <;> rfl

theorem Scene.Acts.began {x y : Scene σ} (h : x.Acts env ctx new y)
    (ho : x.phase.Orderly x.fleet) (hb : x.phase.Began A x.fleet)
    (hset : (env.moment x.around).now.Shows x.fleet.config.actionTimeout → A) :
    y.phase.Began A y.fleet := by
  cases h with
  | start =>
    rw [Scene.ofRun_fleet, Scene.ofRun_phase]
    exact Run.began_start
  | canaryDue _ =>
    rw [Scene.ofRun_fleet, Scene.ofRun_phase]
    exact Run.began_nextCanary ho hset hb
  | @lead s fleet fleet' b b' hl =>
    rcases Bulk.admitted_of_moved hl with hadmitted | hshows
    · intro hpos
      rw [(Fleet.Keeps.leads (Bulk.leads_of_moved hl)).canaries, hadmitted] at hpos
      exact hb hpos
    · exact fun _ => hset hshows
  | @conclude s fleet fleet' b result hl =>
    obtain ⟨-, -, -, rfl, rfl⟩ := Bulk.conclude_of_ended hl
    unfold Bulk.conclude
    split <;> exact hb
  | @takeOff s fleet b at_ index inner source ha _ =>
    intro hpos
    have hadmitted : (b.takeOff fleet at_ source (env.moment s)).1.admitted = fleet.admitted := by
      simp only [Bulk.takeOff, ha]
      exact Flight.fleet_admitted_start _ _ _ _ _
    rw [Scene.ofBulk_fleet, (Fleet.Keeps.takeOff fleet b at_ source _).canaries, hadmitted] at hpos
    exact hb hpos
  | @account s fleet b at_ a ha hl =>
    rw [Scene.ofBulk_fleet, Scene.ofBulk_phase]
    unfold Bulk.account
    split <;> exact hb
  | _ => trivial

theorem Scene.Hears.began {x y : Scene σ} (h : x.Hears env ctx new y)
    (hb : x.phase.Began A x.fleet) : y.phase.Began A y.fleet := by
  cases h with
  | @gate s s' fleet inner e _ =>
    rw [Scene.ofRun_fleet, Scene.ofRun_phase]
    have ha := Run.answers fleet e
    generalize Run.gateAnswered fleet e = z at ha ⊢
    cases ha with
    | admits _ => exact fun hpos => absurd hpos (Nat.lt_irrefl 0)
    | _ => trivial
  | canary _ => exact Run.began_canaryLanded hb _ _
  | cooldown _ => exact fun _ => hb
  | @bulk s s' fleet b at_ f e _ _ =>
    intro hpos
    have hadmitted : (b.resume fleet at_ f (env.moment s') e).1.admitted = fleet.admitted :=
      Flight.fleet_admitted_resume _ _ _ _
    have hcanaries : (b.resume fleet at_ f (env.moment s') e).1.canaries = fleet.canaries :=
      (Fleet.Keeps.resume fleet f (env.moment s') e).canaries
    rw [Scene.ofBulk_fleet, hcanaries, hadmitted] at hpos
    exact hb hpos
  | _ => trivial

/-- A rollout that ended got past the check of the pool only with the limit of an upgrade. -/
theorem Config.Reaches.limited {result : Except RunError Unit}
    (h : c.Reaches env ctx hs ⟨s, fleet, .rollout (.ended result)⟩) (calm : env.Calm)
    (hb : (Run.ended result).Began A fleet) (hg : ∀ g, result ≠ .error (.gate g)) : A := by
  obtain ⟨s₀, fleet₀, hc, hcourse⟩ := h
  have calm' : env.restless.Calm := calm
  obtain ⟨-, -, hnew⟩ := Fleet.config_of_ofConfig hc
  have hpos {result : Except RunError Unit} (hend : Concluded fleet₀ fleet hs result) :
      0 < fleet.canaries + fleet.admitted := by
    have hcanaries : fleet.canaries = fleet₀.canaries := hcourse.keeps.canaries
    rw [hcanaries]
    refine hend.pos ?_
    rw [Fleet.size, Fleet.length_mapM (Fleet.targets_of_ofConfig hc).2.2.2]
    exact List.length_pos_iff.mpr (Fleet.targets_of_ofConfig hc).2.1
  cases result with
  | ok a => exact hb (hpos (hcourse.told calm' hnew))
  | error e =>
    have hstopped : fleet.Stopped e := hcourse.stopped calm' hnew
    cases e with
    | gate g => exact absurd rfl (hg g)
    | canary endpoint e => exact hb
    | maxFailuresExceeded failures limit => exact hb (hpos (hcourse.told calm' hnew))
    | _ => exact hstopped.elim

end Began

end Rollout
