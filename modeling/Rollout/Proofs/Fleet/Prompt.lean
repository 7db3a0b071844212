import Rollout.Fleet.Prompt
import Rollout.Proofs.Deploy.Limits
import Rollout.Proofs.Fleet.Care
import Rollout.Proofs.Upgrade.Instant

/-!
# What a step in virtual time can do

- **Waits** (`Context.EndsBy.exists_latest`): no wait lasts longer than its context, whatever is
  answered.
- **Steps of runs** (`Landing.From`): what a step of a run does, also where it crashes.
- **Flights** (`Phase.Follows`): who is under way after such a step.
- **Runs in time** (`Phase.Paced`): no run takes longer than its limit, and each step of a rollout
  keeps that (`Scene.Goes.paced`).
-/

namespace Rollout

/-! ## Waits -/

/-- A context stops at a point of time at the latest. -/
def Context.EndsBy (ctx : Context) (t : Instant) : Prop := ∃ deadline ∈ ctx.deadline, deadline ≤ t

namespace Context

variable {ctx inner : Context} {m : Moment} {w : Wait} {t now until_ : Instant} {d : Duration}

theorem EndsBy.mono {t' : Instant} (h : ctx.EndsBy t) (hle : t ≤ t') : ctx.EndsBy t' := by
  obtain ⟨deadline, hd, ht⟩ := h
  exact ⟨deadline, hd, Nat.le_trans ht hle⟩

theorem endsBy_of_within? (h : ctx.within? now d = some inner) : inner.EndsBy (now.after d) := by
  rw [within?, Instant.after?_of_shows (shows_of_within? h), Option.map_some] at h
  cases h
  refine ⟨_, rfl, ?_⟩
  cases ctx.deadline with
  | none => exact Nat.le_refl _
  | some earlier => exact Nat.min_le_right _ _

/-- A wait that is never answered lasts no longer than its context. -/
theorem EndsBy.exists_latest (h : ctx.EndsBy t) (m : Moment) (w : Wait) :
    ∃ t', ctx.latest m w = some t' ∧ t' ≤ t := by
  obtain ⟨deadline, hd, ht⟩ := h
  have hstop : ∃ stop ∈ ctx.stopsAt (if ctx.isCancelled m then some m.now else none),
      stop ≤ deadline := by
    unfold stopsAt
    rw [show ctx.deadline = some deadline from hd]
    split
    · exact ⟨_, rfl, Nat.min_le_left _ _⟩
    · exact ⟨_, rfl, Nat.le_refl _⟩
  obtain ⟨stop, hstop, hle⟩ := hstop
  obtain ⟨t', e, he, hlate⟩ := exists_scope hstop true m.now w none
  exact ⟨t', by rw [latest, he]; rfl, Nat.le_trans hlate (Nat.le_trans hle ht)⟩

/-- A pause lasts no longer than it is to. -/
theorem exists_latest_pause (ctx : Context) (m : Moment) (until_ : Instant) :
    ∃ t', ctx.latest m (.pause until_) = some t' ∧ t' ≤ max m.now until_ := by
  rw [latest, time_scope]
  cases ctx.stopsAt (if ctx.isCancelled m then some m.now else none) with
  | none => exact ⟨_, rfl, Nat.le_refl _⟩
  | some stop => exact ⟨_, rfl, Nat.min_le_left _ _⟩

end Context

/-! ## Steps of runs -/

/-- A flight under way stands at the stage of its upgrade's record, and has the limits of its
fleet. -/
structure Flight.Stands (fleet : Fleet) (f : Flight) : Prop where
  stage : ∃ u, fleet.upgrade? f.index = some u ∧ f.position.stage = u.current
  timeouts : f.job.timeouts = fleet.timeouts

/-- What a step of the run of the upgrade at an index within a context does at a moment. -/
structure Landing.From (fleet : Fleet) (m : Moment) (index : Nat) (ctx : Context)
    (new : List Happening) (x : Fleet × Landing) : Prop where
  keeps : fleet.Keeps x.1
  admitted : x.1.admitted = fleet.admitted
  others : ∀ {i}, index ≠ i → x.1.upgrade? i = fleet.upgrade? i
  flying : ∀ f, x.2 = .flying f → f.index = index ∧ f.ctx = ctx ∧ f.Stands x.1
  entered : ∀ {m' i}, .entered m' i ∈ new → m' = m ∧ i = index
  returned : ∀ {m' i r}, .returned m' i r ∈ new → m' = m ∧ i = index ∧ x.2 = .landed r
  landed : ∀ r, x.2 = .landed r → .returned m index r ∈ new

namespace Flight

variable {fleet : Fleet} {index : Nat} {ctx : Context} {m : Moment}

theorem Stands.keep {fleet' : Fleet} {f : Flight} (h : f.Stands fleet)
    (hf : fleet'.upgrade? f.index = fleet.upgrade? f.index)
    (ht : fleet'.timeouts = fleet.timeouts) : f.Stands fleet' :=
  ⟨by rw [hf]; exact h.stage, by rw [ht]; exact h.timeouts⟩

/-- What is seen of a step of a run, other than that it is entered. -/
theorem mem_happenings {deeds : List Deed} {landing : Landing} {y : Happening}
    (h : y ∈ deeds.map (.did m index) ++ landing.happenings m index) :
    (∃ d, y = .did m index d) ∨ ∃ r, landing = .landed r ∧ y = .returned m index r := by
  rcases List.mem_append.mp h with h | h
  · obtain ⟨d, -, rfl⟩ := List.mem_map.mp h
    exact .inl ⟨d, rfl⟩
  · cases landing with
    | landed r => exact .inr ⟨r, rfl, List.mem_singleton.mp h⟩
    | flying f => cases h
    | crashed text => cases h

/-- The beginning of a run. -/
theorem from_start (fleet : Fleet) (index : Nat) (ctx : Context) (source : Except IoError Entry)
    (m : Moment) : Landing.From fleet m index ctx (startHappenings fleet index ctx source m)
      (start fleet index ctx source m) where
  keeps := .start fleet index ctx source m
  admitted := fleet_admitted_start fleet index ctx source m
  others hne := upgrade?_start hne ctx source m
  flying f hf := by
    cases hu : fleet.upgrade? index with
    | none => rw [start, hu] at hf; cases hf
    | some u =>
      cases source with
      | error e => rw [start_error hu] at hf; cases hf
      | ok source =>
        rw [start_ok hu] at hf ⊢
        obtain ⟨q, hp, rfl⟩ := waiting_of_landing hf
        have hs := (Upgrade.stage_of_enter hp).2
        exact ⟨rfl, rfl, ⟨⟨_, Fleet.upgrade?_put_self hu, hs⟩, rfl⟩⟩
  entered h := by
    rcases List.mem_cons.mp h with h | h
    · cases h; exact ⟨rfl, rfl⟩
    · rcases mem_happenings h with ⟨d, h⟩ | ⟨r, -, h⟩ <;> cases h
  returned h := by
    rcases List.mem_cons.mp h with h | h
    · cases h
    · rcases mem_happenings h with ⟨d, h⟩ | ⟨r, hl, h⟩ <;> cases h
      exact ⟨rfl, rfl, hl⟩
  landed r hl := by
    unfold startHappenings
    rw [hl]
    exact List.mem_cons_of_mem _ (List.mem_append_right _ List.mem_cons_self)

/-- The end of a wait of a run. -/
theorem from_resume {f : Flight} (h : f.Stands fleet) (m : Moment) (e : Event f.wait) :
    Landing.From fleet m f.index f.ctx (f.resumeHappenings fleet m e) (f.resume fleet m e) where
  keeps := .resume fleet f m e
  admitted := fleet_admitted_resume fleet f m e
  others hne := upgrade?_resume hne m e
  flying f' hf := by
    obtain ⟨u, hu, hstage⟩ := h.stage
    rw [resume_eq hu] at hf ⊢
    obtain ⟨q, hp, rfl⟩ := waiting_of_landing hf
    have hs := Upgrade.stage_of_waiting hstage hp
    exact ⟨rfl, rfl, ⟨⟨_, Fleet.upgrade?_put_self hu, hs⟩, h.timeouts⟩⟩
  entered h := by
    rcases mem_happenings h with ⟨d, h⟩ | ⟨r, -, h⟩ <;> cases h
  returned h := by
    rcases mem_happenings h with ⟨d, h⟩ | ⟨r, hl, h⟩ <;> cases h
    exact ⟨rfl, rfl, hl⟩
  landed r hl := by
    unfold resumeHappenings
    rw [hl]
    exact List.mem_append_right _ List.mem_cons_self

end Flight

/-! ## Flights -/

/-- A rollout under way is not over. -/
theorem Phase.isOver_of_isUnderWay {phase : Phase} (h : phase.isUnderWay = true) :
    phase.isOver = false := by
  cases phase with
  | rollout run => cases run <;> first | rfl | cases h
  | _ => first | rfl | cases h

/-- The context of an upgrade that was admitted and is not begun yet. -/
def Admitted.given? : Admitted → Option Context
  | queued _ ctx => some ctx
  | _ => none

/-- The contexts that were given to upgrades whose runs are not entered yet. -/
def Phase.given : Phase → List Context
  | rollout (.bulk b) => b.admitted.filterMap Admitted.given?
  | _ => []

/-- The flights of a phase after a step of a run: the flight that took the step is replaced by what
came of it, and all others go on. -/
structure Phase.Follows (phase phase' : Phase) (old : Option Flight) (landing : Landing) :
    Prop where
  given : ∀ ctx ∈ phase'.given, ctx ∈ phase.given
  back : ∀ f ∈ phase'.flights, f ∈ phase.flights ∨ landing = .flying f
  stays : ∀ f ∈ phase.flights, f ∈ phase'.flights ∨ old = some f
  flies : ∀ f, landing = .flying f → f ∈ phase'.flights

theorem Run.follows_landed {phase : Phase} {old : Option Flight} (index : Nat)
    (x : Fleet × Landing) (hf : phase.flights = old.toList) :
    phase.Follows (.rollout (canaryLanded index x).2) old x.2 := by
  have stays : ∀ f ∈ phase.flights, f ∈ (Phase.rollout (canaryLanded index x).2).flights ∨
      old = some f := fun f h => .inr (by rw [hf] at h; simpa using h)
  obtain ⟨fleet, landing⟩ := x
  cases landing with
  | flying f =>
    refine ⟨fun c hc => absurd hc List.not_mem_nil, fun g hg => .inr ?_, stays, fun g hg => ?_⟩
    · rw [List.mem_singleton.mp hg]
    · cases hg; exact List.mem_cons_self
  | landed r =>
    cases r <;> exact ⟨fun c hc => absurd hc List.not_mem_nil,
      fun g hg => absurd hg List.not_mem_nil, stays, fun g hg => by cases hg⟩
  | crashed text =>
    exact ⟨fun c hc => absurd hc List.not_mem_nil, fun g hg => absurd hg List.not_mem_nil, stays,
      fun g hg => by cases hg⟩

theorem Bulk.mem_of_leads {fleet fleet' : Fleet} {b b' : Bulk} (h : b.Leads fleet fleet' b')
    {a : Admitted} (ha : a ∈ b.admitted) : a ∈ b'.admitted := by
  cases h with
  | admits _ _ _ => exact List.mem_append_left _ ha
  | _ => exact ha

theorem Bulk.flights_of_accounts {fleet fleet' : Fleet} {b b' : Bulk}
    (h : b.Accounts fleet fleet' b') :
    (Phase.rollout (.bulk b')).flights = (Phase.rollout (.bulk b)).flights ∧
      (Phase.rollout (.bulk b')).given = (Phase.rollout (.bulk b)).given := by
  cases h with
  | counts ha => exact ⟨filterMap_set_eq ha rfl, filterMap_set_eq ha rfl⟩
  | releases ha => exact ⟨filterMap_eraseIdx_eq ha rfl, filterMap_eraseIdx_eq ha rfl⟩

theorem Bulk.follows_settle {b : Bulk} {at_ : Nat} {a : Admitted}
    (ha : b.admitted[at_]? = some a) (index : Nat) (landing : Landing) :
    (Phase.rollout (.bulk b)).Follows (.rollout (.bulk (b.settle at_ index landing))) a.flight?
      landing := by
  obtain ⟨front, back, hl, hset, herase⟩ := split_at ha
  have hmem : ∀ x ∈ b.admitted, x = a ∨ x ∈ (b.settle at_ index landing).admitted := by
    intro x hx
    rw [hl, List.mem_append, List.mem_cons] at hx
    cases landing with
    | landed r =>
      cases r <;> simp only [settle, place, hset, List.mem_append, List.mem_cons] <;> tauto
    | flying f => simp only [settle, place, hset, List.mem_append, List.mem_cons]; tauto
    | crashed text => simp only [settle, release, herase, List.mem_append]; tauto
  refine ⟨fun c hc => ?_, fun f hf => ?_, fun f hf => ?_, fun f hf => ?_⟩
  · obtain ⟨x, hx, hxc⟩ := List.mem_filterMap.mp hc
    rcases mem_settle hx with hx | rfl
    · exact List.mem_filterMap.mpr ⟨x, hx, hxc⟩
    · cases landing <;> cases hxc
  · obtain ⟨x, hx, hxf⟩ := List.mem_filterMap.mp hf
    rcases mem_settle hx with hx | rfl
    · exact .inl (List.mem_filterMap.mpr ⟨x, hx, hxf⟩)
    · cases landing <;> cases hxf
      exact .inr rfl
  · obtain ⟨x, hx, hxf⟩ := List.mem_filterMap.mp hf
    rcases hmem x hx with rfl | hx
    · exact .inr hxf
    · exact .inl (List.mem_filterMap.mpr ⟨x, hx, hxf⟩)
  · subst hf
    refine List.mem_filterMap.mpr ⟨.flying f, ?_, rfl⟩
    simp only [settle, place, hset]
    exact List.mem_append_right _ List.mem_cons_self

/-! ## Runs in time -/

/-- The runs of a rollout to which something has happened, at a point of time: each has a limit from
the moment on when it was entered, and none takes longer. A run that was entered has returned or is
under way, where no work crashes. -/
structure Phase.Paced {σ : Type} (env : Surroundings σ) (limit : Duration) (now : Instant)
    (hs : List Happening) (phase : Phase) : Prop where
  given : ∀ ctx ∈ phase.given, ctx.EndsBy (now.after limit)
  flying : ∀ f ∈ phase.flights, ∃ m, .entered m f.index ∈ hs ∧ m.now ≤ now ∧
    now ≤ m.now.after limit ∧ f.ctx.EndsBy (m.now.after limit)
  returned : ∀ {m i r}, .returned m i r ∈ hs → ∃ m₀, .entered m₀ i ∈ hs ∧ m₀.now ≤ m.now ∧
    m.now ≤ m₀.now.after limit
  entered : env.Calm → ∀ {m i}, .entered m i ∈ hs →
    (∃ m' r, .returned m' i r ∈ hs ∧ m.now ≤ m'.now ∧ m'.now ≤ m.now.after limit) ∨
    ∃ f ∈ phase.flights, f.index = i ∧ m.now ≤ now ∧ now ≤ m.now.after limit ∧
      f.ctx.EndsBy (m.now.after limit)

namespace Phase.Paced

variable {σ : Type} {env : Surroundings σ} {limit : Duration} {now : Instant}
  {hs new : List Happening} {phase phase' : Phase} {fleet : Fleet} {m : Moment} {index : Nat}
  {inner : Context} {x : Fleet × Landing} {old : Option Flight}

theorem start (hq : phase.given = []) (hf : phase.flights = []) :
    phase.Paced env limit now [] where
  given c hc := by rw [hq] at hc; cases hc
  flying f h := by rw [hf] at h; cases h
  returned h := absurd h List.not_mem_nil
  entered _ _ _ h := absurd h List.not_mem_nil

/-- No run is entered or returns. -/
theorem keep (h : phase.Paced env limit now hs) (hnew : ∀ y ∈ new, y.index? = none)
    (hq : ∀ ctx ∈ phase'.given, ctx.EndsBy (now.after limit))
    (hback : ∀ f ∈ phase'.flights, f ∈ phase.flights)
    (hstays : env.Calm → ∀ f ∈ phase.flights, f ∈ phase'.flights) :
    phase'.Paced env limit now (hs ++ new) := by
  have hold {y : Happening} {i : Nat} (hy : y ∈ hs ++ new) (hi : y.index? = some i) : y ∈ hs := by
    rcases List.mem_append.mp hy with hy | hy
    · exact hy
    · rw [hnew y hy] at hi; cases hi
  refine ⟨hq, fun f hf => ?_, fun hr => ?_, fun calm m i he => ?_⟩
  · obtain ⟨m, hm, hle⟩ := h.flying f (hback f hf)
    exact ⟨m, List.mem_append_left _ hm, hle⟩
  · obtain ⟨m, hm, hle⟩ := h.returned (hold hr rfl)
    exact ⟨m, List.mem_append_left _ hm, hle⟩
  · rcases h.entered calm (hold he rfl) with ⟨m', r, hr, hle⟩ | ⟨f, hf, hle⟩
    · exact .inl ⟨m', r, List.mem_append_left _ hr, hle⟩
    · exact .inr ⟨f, hstays calm f hf, hle⟩

/-- A step of the run of the upgrade at an index, which was entered at some moment and has a limit
from then on. -/
theorem fly (h : phase.Paced env limit now hs) (hx : Landing.From fleet m index inner new x)
    (hm : m.now = now) (hp : phase.Follows phase' old x.2)
    (hold : ∀ f, old = some f → f.index = index ∧ f.ctx = inner)
    (hrun : ∃ m₀, .entered m₀ index ∈ hs ++ new ∧ m₀.now ≤ now ∧ now ≤ m₀.now.after limit ∧
      inner.EndsBy (m₀.now.after limit))
    (hnew : ∀ {m₀ i}, .entered m₀ i ∈ new → inner.EndsBy (m₀.now.after limit))
    (hcalm : env.Calm → ∀ text, x.2 ≠ .crashed text) :
    phase'.Paced env limit now (hs ++ new) := by
  -- What becomes of the run of this step, where no work crashes.
  have here (calm : env.Calm) {m₀ : Moment} (hle : m₀.now ≤ now) (hlate : now ≤ m₀.now.after limit)
      (hends : inner.EndsBy (m₀.now.after limit)) :
      (∃ m' r, .returned m' index r ∈ hs ++ new ∧ m₀.now ≤ m'.now ∧
        m'.now ≤ m₀.now.after limit) ∨
      ∃ f ∈ phase'.flights, f.index = index ∧ m₀.now ≤ now ∧ now ≤ m₀.now.after limit ∧
        f.ctx.EndsBy (m₀.now.after limit) := by
    cases hl : x.2 with
    | flying f =>
      obtain ⟨hi, hc, -⟩ := hx.flying f hl
      exact .inr ⟨f, hp.flies f hl, hi, hle, hlate, hc ▸ hends⟩
    | landed r =>
      exact .inl ⟨m, r, List.mem_append_right _ (hx.landed r hl), hm ▸ hle, hm ▸ hlate⟩
    | crashed text => exact absurd hl (hcalm calm text)
  refine ⟨fun c hc => h.given c (hp.given c hc), fun f hf => ?_, fun hr => ?_,
    fun calm m₀ i he => ?_⟩
  · rcases hp.back f hf with hf | hf
    · obtain ⟨m₀, hm₀, hle⟩ := h.flying f hf
      exact ⟨m₀, List.mem_append_left _ hm₀, hle⟩
    · obtain ⟨hi, hc, -⟩ := hx.flying f hf
      rw [hi, hc]
      exact hrun
  · rcases List.mem_append.mp hr with hr | hr
    · obtain ⟨m₀, hm₀, hle⟩ := h.returned hr
      exact ⟨m₀, List.mem_append_left _ hm₀, hle⟩
    · obtain ⟨rfl, rfl, -⟩ := hx.returned hr
      obtain ⟨m₀, hm₀, hle, hlate, -⟩ := hrun
      exact ⟨m₀, hm₀, hm ▸ hle, hm ▸ hlate⟩
  · rcases List.mem_append.mp he with he | he
    · rcases h.entered calm he with ⟨m', r, hr, hle⟩ | ⟨f, hf, rfl, hle, hlate, hends⟩
      · exact .inl ⟨m', r, List.mem_append_left _ hr, hle⟩
      · rcases hp.stays f hf with hf | hf
        · exact .inr ⟨f, hf, rfl, hle, hlate, hends⟩
        · obtain ⟨hi, hc⟩ := hold f hf
          rw [hi]
          exact here calm hle hlate (hc ▸ hends)
    · obtain ⟨rfl, rfl⟩ := hx.entered he
      exact here calm (Nat.le_of_eq hm) (hm ▸ Nat.le_add_right _ _) (hnew he)

/-- Nobody is under way before and after. -/
theorem idle (h : phase.Paced env limit now hs) (hnew : ∀ y ∈ new, y.index? = none)
    (hx : phase.flights = []) (hg : phase'.given = []) (hy : phase'.flights = []) :
    phase'.Paced env limit now (hs ++ new) := by
  refine h.keep hnew (fun c hc => ?_) (fun f hf => ?_) fun _ f hf => ?_
  · rw [hg] at hc; cases hc
  · rw [hy] at hf; cases hf
  · rw [hx] at hf; cases hf

end Phase.Paced

namespace Flight

variable {fleet : Fleet} {index : Nat} {ctx : Context} {m : Moment} {text : String}

theorem start_ne_crashed {source : Except IoError Entry} :
    (start fleet index ctx source m).2 ≠ .crashed text := by
  cases hu : fleet.upgrade? index with
  | none => rw [start, hu]; exact fun h => by cases h
  | some u =>
    cases source with
    | error e => rw [start_error hu]; exact fun h => by cases h
    | ok source =>
      rw [start_ok hu]
      have hs := u.starts (fleet.job u source) ctx m
      generalize u.start (fleet.job u source) ctx m = x at hs
      cases hs <;> exact fun h => by cases h

/-- A run crashes only with its wait. -/
theorem resume_ne_crashed {f : Flight} (h : f.Stands fleet) {e : Event f.wait} (he : e.IsCalm) :
    (f.resume fleet m e).2 ≠ .crashed text := by
  obtain ⟨u, hu, hstage⟩ := h.stage
  rw [resume_eq hu]
  have hm : u.Moves (f.position.passes f.job m.now e) (u.resume f.job f.ctx m f.position e) :=
    Upgrade.moves hstage he
  generalize u.resume f.job f.ctx m f.position e = x at hm
  generalize f.position.passes f.job m.now e = passed at hm
  cases hm <;> exact fun h => by cases h

end Flight

section Steps

variable {σ : Type} {env : Surroundings σ} {ctx : Context} {x y : Scene σ} {limit : Duration}
  {hs new : List Happening} {fleet : Fleet} {s : σ}

theorem Run.idle_start (fleet : Fleet) (ctx : Context) (m : Moment) :
    (Phase.rollout (start fleet ctx m).2).flights = [] ∧
      (Phase.rollout (start fleet ctx m).2).given = [] ∧
      ∀ y ∈ (start fleet ctx m).2.happenings m, y.index? = none := by
  have hs := starts fleet ctx m
  generalize start fleet ctx m = x at hs ⊢
  cases hs with
  | overflows _ => exact ⟨rfl, rfl, fun y hy => absurd hy List.not_mem_nil⟩
  | halts _ _ => exact ⟨rfl, rfl, fun y hy => absurd hy List.not_mem_nil⟩
  | asks _ _ => exact ⟨rfl, rfl, fun y hy => List.mem_singleton.mp hy ▸ rfl⟩

theorem Run.idle_gateAnswered (fleet : Fleet) (e : Event (gateCall fleet)) :
    (Phase.rollout (gateAnswered fleet e).2).flights = [] ∧
      (Phase.rollout (gateAnswered fleet e).2).given = [] := by
  have ha := answers fleet e
  generalize gateAnswered fleet e = x at ha ⊢
  cases ha <;> exact ⟨rfl, rfl⟩

/-- A canary that is due gets its limit when it takes off. -/
theorem Phase.Paced.nextCanary {index : Nat} {m : Moment} {now : Instant}
    (h : (Phase.rollout (.canaryDue index)).Paced env fleet.config.actionTimeout now hs)
    (hm : m.now = now) (ctx : Context) (source : Except IoError Entry) :
    (Phase.rollout (Run.nextCanary fleet ctx source m index).2).Paced env
      fleet.config.actionTimeout now (hs ++ Run.canaryHappenings fleet ctx source m index) := by
  have hnil : ∀ y ∈ ([] : List Happening), y.index? = none := fun y hy => by cases hy
  have hn := Run.nexts fleet ctx source m index
  generalize Run.canaryHappenings fleet ctx source m index = seen,
    Run.nextCanary fleet ctx source m index = x at hn ⊢
  cases hn with
  | overflows _ _ => exact h.idle hnil rfl rfl rfl
  | @begins inner _ hw =>
    have hends : inner.EndsBy (m.now.after fleet.config.actionTimeout) :=
      Context.endsBy_of_within? hw
    have hx := Flight.from_start fleet index inner source m
    have hfollows : Phase.Follows (.rollout (.canaryDue index)) _ none _ :=
      Run.follows_landed index (Flight.start fleet index inner source m) rfl
    refine h.fly hx hm hfollows (fun f hf => by cases hf) ⟨m, ?_, ?_, ?_, hends⟩
      (fun he => by rw [(hx.entered he).1]; exact hends) fun _ _ => Flight.start_ne_crashed
    · exact List.mem_append_right _ List.mem_cons_self
    · exact Nat.le_of_eq hm
    · rw [← hm]; exact Nat.le_add_right _ _
  | skips _ _ => exact h.idle hnil rfl rfl rfl
  | rests _ _ _ => exact h.idle hnil rfl rfl rfl

/-- A step that the rollout takes by itself. -/
theorem Scene.Acts.paced (h : x.Acts env ctx new y) (hu : x.phase.isUnderWay = true)
    (hp : x.phase.Paced env x.fleet.config.actionTimeout (env.moment x.around).now hs)
    (hno : env.Calm → y.phase.hasCrashed = false) :
    y.phase.Paced env x.fleet.config.actionTimeout (env.moment x.around).now (hs ++ new) := by
  have hnil : ∀ y ∈ ([] : List Happening), y.index? = none := fun y hy => by cases hy
  cases h with
  | @start s fleet =>
    obtain ⟨hf, hg, hnew⟩ := Run.idle_start fleet ctx (env.moment s)
    exact hp.idle hnew rfl hg hf
  | canaryDue _ => exact hp.nextCanary rfl _ _
  | @lead s fleet fleet' b b' hl =>
    refine hp.keep hnil (fun c hc => ?_) (fun f hf => ?_) fun _ f hf => ?_
    · obtain ⟨a, ha, hac⟩ := List.mem_filterMap.mp hc
      rcases Bulk.mem_of_moved hl ha with ha | ⟨i, -, inner, rfl, hw⟩
      · exact hp.given c (List.mem_filterMap.mpr ⟨a, ha, hac⟩)
      · cases hac
        exact Context.endsBy_of_within? hw
    · obtain ⟨a, ha, haf⟩ := List.mem_filterMap.mp hf
      rcases Bulk.mem_of_moved hl ha with ha | ⟨i, -, inner, rfl, -⟩
      · exact List.mem_filterMap.mpr ⟨a, ha, haf⟩
      · cases haf
    · obtain ⟨a, ha, haf⟩ := List.mem_filterMap.mp hf
      exact List.mem_filterMap.mpr ⟨a, Bulk.mem_of_leads (Bulk.leads_of_moved hl) ha, haf⟩
  | conclude hl =>
    obtain ⟨-, -, ha, -⟩ := Bulk.conclude_of_ended hl
    exact hp.idle hnil (by rw [Phase.flights, ha]; rfl) rfl rfl
  | overflow hl =>
    refine hp.keep hnil (fun c hc => ?_) (fun f hf => ?_) fun calm => ?_
    · exact absurd hc List.not_mem_nil
    · exact absurd hf List.not_mem_nil
    · cases hno calm
  | @takeOff s fleet b at_ index inner source ha _ =>
    have hends := hp.given inner (List.mem_filterMap.mpr ⟨_, List.mem_of_getElem? ha, rfl⟩)
    have hx := Flight.from_start fleet index inner source (env.moment s)
    rw [Bulk.takeOff_eq ha]
    refine hp.fly hx rfl (Bulk.follows_settle ha index _) (fun f hf => by cases hf)
      ⟨env.moment s, ?_, ?_, ?_, hends⟩
      (fun he => by rw [(hx.entered he).1]; exact hends) fun _ _ => Flight.start_ne_crashed
    · exact List.mem_append_right _ List.mem_cons_self
    · exact Nat.le_refl _
    · exact Nat.le_add_right _ _
  | @account s fleet b at_ a ha hl =>
    obtain ⟨hf, hg⟩ := Bulk.flights_of_accounts (Bulk.accounts ha hl : b.Accounts fleet _ _)
    refine hp.keep hnil (fun c hc => hp.given c ?_) (fun f h => ?_) fun _ f h => ?_
    · rw [← hg]; exact hc
    · rw [← hf]; exact h
    · rw [← hf] at h; exact h
  | again hover _ _ => rw [Phase.isOver_of_isUnderWay hu] at hover; cases hover
  | takeOffAgain _ _ => cases hu
  | accountAgain _ _ => cases hu

/-- A wait of a run under way ends. -/
theorem Phase.Paced.resume {phase phase' : Phase} {now : Instant} {m : Moment}
    (h : phase.Paced env limit now hs) {f : Flight} (hf : f ∈ phase.flights)
    (hs' : f.Stands fleet) (hm : m.now = now) {e : Event f.wait} (he : env.Calm → e.IsCalm)
    (hp : phase.Follows phase' (some f) (f.resume fleet m e).2) :
    phase'.Paced env limit now (hs ++ f.resumeHappenings fleet m e) := by
  have hx := Flight.from_resume hs' m e
  obtain ⟨m₀, hm₀, hrun⟩ := h.flying f hf
  refine h.fly hx hm hp (fun g hg => ?_) ⟨m₀, List.mem_append_left _ hm₀, hrun⟩
    (fun hentered => ?_) fun calm text => Flight.resume_ne_crashed hs' (he calm)
  · cases hg; exact ⟨rfl, rfl⟩
  · rcases Flight.mem_happenings hentered with ⟨d, hd⟩ | ⟨r, -, hr⟩
    · cases hd
    · cases hr

/-- A step in which a wait ends. -/
theorem Scene.Hears.paced (h : x.Hears env ctx new y) (hu : x.phase.isUnderWay = true)
    (hp : x.phase.Paced env x.fleet.config.actionTimeout (env.moment x.around).now hs)
    (hs' : ∀ f ∈ x.phase.flights, f.Stands x.fleet)
    (hnow : (env.moment y.around).now = (env.moment x.around).now) :
    y.phase.Paced env x.fleet.config.actionTimeout (env.moment x.around).now (hs ++ new) := by
  have hnil : ∀ y ∈ ([] : List Happening), y.index? = none := fun y hy => by cases hy
  cases h with
  | @gate s s' fleet inner e _ =>
    obtain ⟨hf, hg⟩ := Run.idle_gateAnswered fleet e
    exact hp.idle hnil rfl hg hf
  | @canary s s' fleet f e he =>
    have hf : f ∈ (Phase.rollout (.canary f)).flights := List.mem_cons_self
    exact hp.resume hf (hs' f hf) hnow (fun calm => calm he) (Run.follows_landed f.index _ rfl)
  | cooldown _ => exact hp.idle hnil rfl rfl rfl
  | @bulk s s' fleet b at_ f e ha he =>
    have hf : f ∈ (Phase.rollout (.bulk b)).flights :=
      List.mem_filterMap.mpr ⟨_, List.mem_of_getElem? ha, rfl⟩
    exact hp.resume hf (hs' f hf) hnow (fun calm => calm he) (Bulk.follows_settle ha f.index _)
  | retry _ _ => cases hu

theorem Scene.mem_waits {phase : Phase} {f : Flight} (hf : f ∈ phase.flights) (ctx : Context)
    (s : σ) (fleet : Fleet) : (f.ctx, f.wait) ∈ Scene.waits ctx ⟨s, fleet, phase⟩ := by
  cases phase with
  | rollout run =>
    cases run with
    | canary g => exact List.mem_map_of_mem hf
    | bulk b => exact List.mem_map_of_mem hf
    | _ => cases hf
  | retry r => exact List.mem_map_of_mem hf
  | idle => cases hf

/-- A context that was given is not left behind: its run is entered before time passes. -/
theorem Surroundings.Live.given_eq_nil {phase : Phase} (live : env.Live)
    (hrest : ∀ new y, ¬ Scene.Acts env ctx ⟨s, fleet, phase⟩ new y) : phase.given = [] := by
  refine List.eq_nil_iff_forall_not_mem.mpr fun c hc => ?_
  cases phase with
  | rollout run =>
    cases run with
    | bulk b =>
      obtain ⟨a, ha, hac⟩ := List.mem_filterMap.mp hc
      obtain ⟨at_, ha⟩ := List.getElem?_of_mem ha
      cases a with
      | queued index inner =>
        obtain ⟨source, hsource⟩ := live.opens s
        exact hrest _ _ (.takeOff ha hsource)
      | _ => cases hac
    | _ => cases hc
  | _ => cases hc

/-- Time passes while all waits last. -/
theorem Phase.Paced.rest {phase : Phase} {s' : σ} (live : env.Live)
    (h : phase.Paced env limit (env.moment s).now hs)
    (hrest : ∀ new y, ¬ Scene.Acts env ctx ⟨s, fleet, phase⟩ new y)
    (hlt : (env.moment s).now < (env.moment s').now)
    (hwaits : ∀ w ∈ Scene.waits ctx ⟨s, fleet, phase⟩, ∀ t,
      w.1.latest (env.moment s) w.2 = some t → (env.moment s').now ≤ t) :
    phase.Paced env limit (env.moment s').now hs := by
  have hle := Nat.le_of_lt hlt
  have last {f : Flight} (hf : f ∈ phase.flights) {t : Instant} (hends : f.ctx.EndsBy t) :
      (env.moment s').now ≤ t := by
    obtain ⟨t', ht', hle⟩ := hends.exists_latest (env.moment s) f.wait
    exact Nat.le_trans (hwaits _ (Scene.mem_waits hf ctx s fleet) t' ht') hle
  refine ⟨fun c hc => ?_, fun f hf => ?_, h.returned, fun calm m i he => ?_⟩
  · rw [live.given_eq_nil hrest] at hc; cases hc
  · obtain ⟨m, hm, hm', -, hends⟩ := h.flying f hf
    exact ⟨m, hm, Nat.le_trans hm' hle, last hf hends, hends⟩
  · rcases h.entered calm he with hr | ⟨f, hf, hi, hm, -, hends⟩
    · exact .inl hr
    · exact .inr ⟨f, hf, hi, Nat.le_trans hm hle, last hf hends, hends⟩

theorem Surroundings.Turns.now_eq {s' : σ} (h : env.Turns s s') :
    (env.moment s').now = (env.moment s).now := by
  rcases h with rfl | ⟨-, h⟩
  · rfl
  · exact h

/-- A step of a rollout keeps all runs within their limits. -/
theorem Scene.Goes.paced (h : x.Goes env ctx new y) (live : env.Live)
    (hp : x.phase.Paced env x.fleet.config.actionTimeout (env.moment x.around).now hs)
    (hs' : ∀ f ∈ x.phase.flights, f.Stands x.fleet)
    (hno : env.Calm → y.phase.hasCrashed = false) :
    y.phase.Paced env x.fleet.config.actionTimeout (env.moment y.around).now (hs ++ new) := by
  cases h with
  | acts hu ht ha =>
    have hnow := ht.now_eq
    rw [ha.around, hnow]
    rw [← hnow] at hp ⊢
    exact ha.paced hu hp hno
  | hears hu hh hnow =>
    rw [hnow]
    exact hh.paced hu hp hs' hnow
  | rests hu hrest hpass hlt hwaits =>
    rw [List.append_nil]
    exact hp.rest live hrest hlt hwaits

end Steps

end Rollout
