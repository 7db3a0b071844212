import Rollout.Proofs.Fleet.Admission
import Rollout.Proofs.Upgrade.Resume

/-!
# How far each upgrade is

The record of an upgrade says which stages its runs have behind them.

- **A step of a run** (`Landing.Ends`): what happens in it, and the record that it leaves.
- **A step of a rollout** (`Scene.Steps`): it changes no upgrade, or it is a step of the run of one.
- **Courses** (`Course.progress`): over all its runs, an upgrade has the stages before its current
  one behind it, each once and in order, and has heard the success of each of them; and when its
  last run returned without an error, it is done.
-/

namespace Rollout

/-! ## Stages that are behind -/

namespace Happening

/-- The stage that the run of the upgrade at an index has behind it. -/
def passed? (i : Nat) : Happening → Option Stage
  | did _ index d => if index = i then d.passed? else none
  | _ => none

/-- Whether the run of the upgrade at an index hears the success that a stage needs. -/
def Succeeds (i : Nat) (s : Stage) (x : Happening) : Prop := ∃ m d, x = .did m i d ∧ d.Succeeds s

theorem returned?_deeds {m : Moment} {index : Nat} {deeds : List Deed} {y : Happening}
    (hy : y ∈ deeds.map (did m index)) : y.returned? = none := by
  obtain ⟨d, -, rfl⟩ := List.mem_map.mp hy
  rfl

end Happening

/-- The stages that the runs of the upgrade at an index have behind them, in the order of time. -/
def passedStages (i : Nat) (hs : List Happening) : List Stage := hs.filterMap (Happening.passed? i)

theorem passedStages_append (i : Nat) (hs hs' : List Happening) :
    passedStages i (hs ++ hs') = passedStages i hs ++ passedStages i hs' := List.filterMap_append

/-- What happens to others, or to none, has no stage of this upgrade behind it. -/
theorem passedStages_of_ne {i : Nat} {hs : List Happening} (h : ∀ x ∈ hs, x.index? ≠ some i) :
    passedStages i hs = [] := by
  refine List.filterMap_eq_nil_iff.mpr fun x hx => ?_
  cases x with
  | did m index d =>
    have hne : index ≠ i := fun he => h _ hx (he ▸ rfl)
    exact if_neg hne
  | _ => rfl

/-- The stages that a step of a run has behind it are those that its deeds tell. -/
theorem passedStages_deeds (m : Moment) (index : Nat) (deeds : List Deed) (landing : Landing) :
    passedStages index (deeds.map (.did m index) ++ landing.happenings m index) =
      deeds.filterMap Deed.passed? := by
  have hlanding : passedStages index (landing.happenings m index) = [] := by
    cases landing <;> rfl
  rw [passedStages_append, hlanding, List.append_nil, passedStages, List.filterMap_map]
  exact List.filterMap_congr fun d _ => if_pos rfl

/-! ## Deeds -/

theorem Progress.passed_deeds (j : Job) (p : Progress) :
    (p.deeds j).filterMap Deed.passed? = [] := by
  cases p with
  | waiting q => rw [deeds]; cases (q.wait j).call? <;> rfl
  | _ => rfl

namespace Upgrade

variable {u v : Upgrade} {p : Progress}

theorem passed_startDeeds (u : Upgrade) (j : Job) (ctx : Context) (m : Moment) :
    (u.startDeeds j ctx m).filterMap Deed.passed? = [] :=
  Progress.passed_deeds j _

theorem passed_resumeDeeds (u : Upgrade) (j : Job) (ctx : Context) (m : Moment) (q : Position)
    (e : Event (q.wait j)) : (u.resumeDeeds j ctx m q e).filterMap Deed.passed? =
      if q.passes j m.now e then [q.stage] else [] := by
  have hdeeds := Progress.passed_deeds j (u.resume j ctx m q e).2
  rw [resumeDeeds, List.filterMap_cons_none rfl, List.filterMap_append, hdeeds, List.append_nil]
  split <;> rfl

/-- The stage and the error that the beginning of a run leaves. -/
theorem Starts.ends (h : u.Starts (v, p)) : v.current = u.entryStage ∧
    (p = .ended (.ok ()) → u.entryStage = .done) ∧
    ∀ e, p = .ended (.error e) → v.err = some e := by
  cases h with
  | waits q _ => exact ⟨rfl, nofun, nofun⟩
  | halts reason _ => exact ⟨rfl, nofun, fun e he => by cases he; rfl⟩
  | finishes hd => exact ⟨hd.symm, fun _ => hd, nofun⟩

/-- The stage and the error that the end of a wait leaves. -/
theorem Moves.ends {passed : Bool} (h : u.Moves passed (v, p)) :
    v.current = (if passed then u.current.next else u.current) ∧
    (p = .ended (.ok ()) → v.current = .done ∧ v.err = none) ∧
    ∀ e, p = .ended (.error e) → v.err = some e := by
  cases h with
  | stays q _ _ => exact ⟨rfl, nofun, nofun⟩
  | advances q _ _ => exact ⟨rfl, nofun, nofun⟩
  | finishes hnext => exact ⟨hnext.symm, fun _ => ⟨rfl, rfl⟩, nofun⟩
  | halts reason _ => exact ⟨rfl, nofun, fun e he => by cases he; rfl⟩
  | fails e' => exact ⟨rfl, nofun, fun e he => by cases he; rfl⟩

end Upgrade

/-! ## A step of a run -/

/-- What a step of the run of the upgrade at an index did, which made the record `v` of the record
`u`: all of it happened to this upgrade, and the return of the run comes last; it has one more stage
behind it, whose success it heard, or none; a run that succeeded is done, and one that failed has
left its error. -/
structure Landing.Ends (m : Moment) (index : Nat) (u v : Upgrade) (new : List Happening)
    (landing : Landing) : Prop where
  own : ∀ y ∈ new, y.index? = some index
  last : ∃ front, new = front ++ landing.happenings m index ∧ ∀ y ∈ front, y.returned? = none
  moved : (v.current = u.current ∧ passedStages index new = []) ∨
    (v.current = u.current.next ∧ passedStages index new = [u.current] ∧
      ∃ x ∈ new, x.Succeeds index u.current)
  ok : landing = .landed (.ok ()) → v.current = .done ∧ v.err = none
  error : ∀ e, landing = .landed (.error e) → v.err = some e

/-- Only the putting back into the pool comes right before the end. -/
theorem Stage.eq_of_next_eq_done {s : Stage} (h : s.next = .done) (hne : s ≠ .done) :
    s = .addToPool := by
  cases s <;> first | rfl | exact absurd rfl hne | cases h

namespace Landing.Ends

variable {m : Moment} {index : Nat} {u v : Upgrade} {new : List Happening} {landing : Landing}

theorem pairwise (h : landing.Ends m index u v new) :
    new.Pairwise fun x _ => x.returned? = none := by
  obtain ⟨front, rfl, hfront⟩ := h.last
  refine List.pairwise_append.mpr ⟨?_, ?_, fun x hx _ _ => hfront x hx⟩
  · exact List.pairwise_of_forall_mem_list fun x hx _ _ => hfront x hx
  · cases landing with
    | landed result => exact List.pairwise_singleton _ _
    | _ => exact List.Pairwise.nil

theorem returned {m' : Moment} {i : Nat} {r : Except UpgradeError Unit}
    (h : landing.Ends m index u v new) (hr : .returned m' i r ∈ new) :
    landing = .landed r ∧ i = index := by
  obtain ⟨front, rfl, hfront⟩ := h.last
  rcases List.mem_append.mp hr with hr | hr
  · cases hfront _ hr
  · cases landing with
    | landed result =>
      cases List.mem_singleton.mp hr
      exact ⟨rfl, rfl⟩
    | _ => cases hr

theorem mem_returned {r : Except UpgradeError Unit} (h : landing.Ends m index u v new)
    (hl : landing = .landed r) : .returned m index r ∈ new := by
  obtain ⟨front, rfl, -⟩ := h.last
  subst hl
  exact List.mem_append_right _ List.mem_cons_self

theorem returns (h : landing.Ends m index u v new) :
    Rollout.returns new = landing.returns index := by
  obtain ⟨front, rfl, hfront⟩ := h.last
  rw [returns_append, Rollout.returns, List.filterMap_eq_nil_iff.mpr hfront, List.nil_append]
  exact (landing.tells_happenings m index).returned

/-- A run that succeeds puts the upgrade's backend back into the pool in its last step. -/
theorem added (h : landing.Ends m index u v new) (hne : u.current ≠ .done)
    (hl : landing = .landed (.ok ())) : ∃ x ∈ new, x.Succeeds index .addToPool := by
  have hdone := (h.ok hl).1
  rcases h.moved with ⟨hcur, -⟩ | ⟨hcur, -, hx⟩
  · exact absurd (hcur.symm.trans hdone) hne
  · rwa [Stage.eq_of_next_eq_done (hcur.symm.trans hdone) hne] at hx

end Landing.Ends

namespace Flight

variable {fleet : Fleet} {index : Nat} {u : Upgrade}

theorem progress_of_landing {ctx : Context} {j : Job} {p : Progress}
    {r : Except UpgradeError Unit} (h : landing index ctx j p = .landed r) : p = .ended r := by
  cases p <;> cases h
  rfl

/-- The beginning of a run that has something to do. -/
theorem start_ends (hu : fleet.upgrade? index = some u) (hr : u.AtRest) (hd : u.current ≠ .done)
    (inner : Context) (source : Except IoError Entry) (m : Moment) :
    ∃ v landing, start fleet index inner source m = (fleet.put index v, landing) ∧
      landing.Suits fleet.config index u v ∧
      landing.Ends m index u v (startHappenings fleet index inner source m) := by
  have hown := (tells_start fleet index inner source m).own
  have hlast : ∃ front, startHappenings fleet index inner source m =
      front ++ (start fleet index inner source m).2.happenings m index ∧
      ∀ y ∈ front, y.returned? = none := by
    refine ⟨.entered m index :: _, rfl, fun y hy => ?_⟩
    rcases List.mem_cons.mp hy with rfl | hy
    · rfl
    · exact Happening.returned?_deeds hy
  have hpassed : passedStages index (startHappenings fleet index inner source m) = [] := by
    unfold startHappenings
    rw [hu]
    cases source with
    | error e => exact passedStages_deeds m index [] _
    | ok source => exact (passedStages_deeds m index _ _).trans (u.passed_startDeeds _ _ _)
  cases source with
  | error e =>
    rw [start_error hu] at hlast
    refine ⟨_, _, start_error hu inner e m, ⟨hr.refuse _ e hd, rfl⟩, hown, hlast,
      .inl ⟨rfl, hpassed⟩, nofun, fun e' he => ?_⟩
    cases he
    rfl
  | ok source =>
    have hs := u.starts (fleet.job u source) inner m
    obtain ⟨hcur, hok, herr⟩ := hs.ends
    have hentry := hr.entry hd
    have hsuits : (landing index inner (fleet.job u source) _).Suits fleet.config index u _ :=
      (landing_of_starts hs hr hd rfl rfl inner).1
    rw [start_ok hu] at hlast
    refine ⟨_, _, start_ok hu inner source m, hsuits, hown, hlast,
      .inl ⟨hcur.trans hentry, hpassed⟩, fun hl => ?_, fun e hl => herr e (progress_of_landing hl)⟩
    -- A run that has something to do does not succeed at once.
    exact absurd (hentry.symm.trans (hok (progress_of_landing hl))) hd

/-- The end of a wait of a run that did not crash. -/
theorem resume_ends {f : Flight} (hu : fleet.upgrade? f.index = some u)
    (hf : f.Fits fleet.config u) (m : Moment) {e : Event f.wait} (he : e.IsCalm) :
    ∃ v landing, f.resume fleet m e = (fleet.put f.index v, landing) ∧
      landing.Suits fleet.config f.index u v ∧
      landing.Ends m f.index u v (f.resumeHappenings fleet m e) := by
  have hm : u.Moves (f.position.passes f.job m.now e) (u.resume f.job f.ctx m f.position e) :=
    Upgrade.moves hf.stage he
  obtain ⟨hcur, hok, herr⟩ := hm.ends
  have hne : u.current ≠ .done := hf.stage ▸ f.position.stage_ne_done
  have hsuits : (landing f.index f.ctx f.job _).Suits fleet.config f.index u _ :=
    landing_of_moves hm hne hf.backend hf.config f.ctx
  have hdeeds : f.resumeHappenings fleet m e =
      (u.resumeDeeds f.job f.ctx m f.position e).map (.did m f.index) ++
        (f.resume fleet m e).2.happenings m f.index := by
    rw [resumeHappenings, hu]
  have hpassed : passedStages f.index (f.resumeHappenings fleet m e) =
      if f.position.passes f.job m.now e then [u.current] else [] := by
    rw [hdeeds, ← hf.stage]
    exact (passedStages_deeds m f.index _ _).trans (Upgrade.passed_resumeDeeds _ _ _ _ _ _)
  have hheard : .did m f.index (.heard f.wait e) ∈ f.resumeHappenings fleet m e := by
    rw [hdeeds]
    exact List.mem_append_left _ List.mem_cons_self
  rw [resume_eq hu] at hdeeds
  refine ⟨_, _, resume_eq hu m e, hsuits, (tells_resume fleet f m e).own,
    ⟨_, hdeeds, fun y hy => Happening.returned?_deeds hy⟩, ?_,
    fun hl => hok (progress_of_landing hl), fun e' hl => herr e' (progress_of_landing hl)⟩
  cases hp : f.position.passes f.job m.now e with
  | false =>
    rw [hp] at hcur hpassed
    exact .inl ⟨hcur, hpassed⟩
  | true =>
    rw [hp] at hcur hpassed
    have hs : e.succeeds u.current := hf.stage ▸ Position.succeeds_of_passes hp
    exact .inr ⟨hcur, hpassed, _, hheard, m, _, rfl, hs⟩

/-- The crash of a run leaves its record alone. -/
theorem resume_crashed {f : Flight} (hu : fleet.upgrade? f.index = some u) (m : Moment)
    (text : String) :
    f.resume fleet m (.crashed text) = (fleet.put f.index u, .crashed text) ∧
      (Landing.crashed text).Ends m f.index u u (f.resumeHappenings fleet m (.crashed text)) := by
  have hresume : f.resume fleet m (.crashed text) = (fleet.put f.index u, .crashed text) :=
    resume_eq hu m _
  have hdeeds : f.resumeHappenings fleet m (.crashed text) =
      (u.resumeDeeds f.job f.ctx m f.position (.crashed text)).map (.did m f.index) ++
        (Landing.crashed text).happenings m f.index := by
    rw [resumeHappenings, hu, hresume]
    rfl
  refine ⟨hresume, (tells_resume fleet f m _).own,
    ⟨_, hdeeds, fun y hy => Happening.returned?_deeds hy⟩, .inl ⟨rfl, ?_⟩, nofun, nofun⟩
  rw [hdeeds]
  exact (passedStages_deeds m f.index _ _).trans (Upgrade.passed_resumeDeeds _ _ _ _ _ _)

end Flight

/-! ## A step of a rollout -/

/-- A step of a rollout or of a pass changes no upgrade, and nothing happens to any, or it is a step
of the run of one that is not done. -/
inductive Scene.Steps {σ : Type} (x y : Scene σ) (new : List Happening) : Prop
  | still : (∀ h ∈ new, h.index? = none) → (∀ i, y.fleet.upgrade? i = x.fleet.upgrade? i) →
    Steps x y new
  | runs {m : Moment} {index : Nat} {u v : Upgrade} {landing : Landing} :
    x.fleet.upgrade? index = some u → u.current ≠ .done →
    (∀ i, y.fleet.upgrade? i = (x.fleet.put index v).upgrade? i) →
    landing.Suits x.fleet.config index u v → landing.Ends m index u v new → Steps x y new

theorem Run.upgrade?_canaryLanded (index : Nat) (x : Fleet × Landing) (i : Nat) :
    (canaryLanded index x).1.upgrade? i = x.1.upgrade? i := by
  unfold canaryLanded
  split <;> rfl

namespace Bulk

variable {fleet fleet' : Fleet} {b b' : Bulk}

theorem upgrades_of_leads (h : b.Leads fleet fleet' b') : fleet'.upgrades = fleet.upgrades := by
  cases h <;> rfl

theorem upgrades_of_accounts (h : b.Accounts fleet fleet' b') :
    fleet'.upgrades = fleet.upgrades := by
  cases h <;> rfl

end Bulk

section Steps

variable {σ : Type} {env : Surroundings σ} {ctx : Context} {x y : Scene σ} {fleet : Fleet} {s : σ}
  {hs new : List Happening}

theorem Scene.Steps.start_run (fleet : Fleet) (ctx : Context) (m : Moment) :
    Scene.Steps ⟨s, fleet, .idle⟩ (.ofRun s (Run.start fleet ctx m))
      ((Run.start fleet ctx m).2.happenings m) := by
  have hs := Run.starts fleet ctx m
  generalize Run.start fleet ctx m = x at hs ⊢
  cases hs with
  | overflows _ => exact .still (fun _ hm => absurd hm List.not_mem_nil) fun _ => rfl
  | halts _ _ => exact .still (fun _ hm => absurd hm List.not_mem_nil) fun _ => rfl
  | asks _ _ => exact .still (fun _ hm => List.mem_singleton.mp hm ▸ rfl) fun _ => rfl

/-- The step where a canary is due. -/
theorem Fleet.Trying.steps {index : Nat} (h : fleet.Trying index []) (ctx : Context)
    (source : Except IoError Entry) (m : Moment) :
    Scene.Steps ⟨s, fleet, .rollout (.canaryDue index)⟩
      (.ofRun s (Run.nextCanary fleet ctx source m index))
      (Run.canaryHappenings fleet ctx source m index) := by
  have hn := Run.nexts fleet ctx source m index
  generalize Run.canaryHappenings fleet ctx source m index = seen,
    Run.nextCanary fleet ctx source m index = x at hn ⊢
  cases hn with
  | overflows _ _ => exact .still (fun _ hm => absurd hm List.not_mem_nil) fun _ => rfl
  | @begins inner hlt _ =>
    obtain ⟨u, hu⟩ := exists_upgrade (Nat.lt_of_lt_of_le hlt fleet.canaries_le)
    have hfresh := h.fresh hu (Nat.le_refl _)
    obtain ⟨v, landing, hstart, hs', he⟩ :=
      Flight.start_ends hu hfresh.atRest hfresh.ne_done inner source m
    refine .runs hu hfresh.ne_done (fun i => ?_) hs' he
    rw [Scene.ofRun_fleet, Run.upgrade?_canaryLanded, hstart]
  | skips _ _ => exact .still (fun _ hm => absurd hm List.not_mem_nil) fun _ => rfl
  | rests _ _ _ => exact .still (fun _ hm => absurd hm List.not_mem_nil) fun _ => rfl

theorem Scene.Acts.steps (h : x.Acts env ctx new y) (ho : x.phase.Orderly x.fleet) :
    x.Steps y new := by
  have still {z : Scene σ} (hz : ∀ i, z.fleet.upgrade? i = x.fleet.upgrade? i) : x.Steps z [] :=
    .still (fun _ hm => absurd hm List.not_mem_nil) hz
  cases h with
  | start => exact .start_run _ _ _
  | canaryDue _ => exact Fleet.Trying.steps ho _ _ _
  | lead hl =>
    exact still fun i => congrArg (·[i]?) (Bulk.upgrades_of_leads (Bulk.leads_of_moved hl))
  | conclude hl =>
    obtain ⟨-, -, -, rfl, -⟩ := Bulk.conclude_of_ended hl
    exact still fun i => Bulk.upgrade?_conclude _ i
  | overflow hl =>
    obtain ⟨-, -, rfl⟩ := Bulk.overflow_of_overflowed hl
    exact still fun _ => rfl
  | @takeOff s fleet b at_ index inner source ha _ =>
    obtain ⟨u, hu, hfresh⟩ : ∃ u, fleet.upgrade? index = some u ∧ u.IsFresh :=
      Fleet.Tends.slot (Bulk.Orderly.tends ho) ha
    obtain ⟨v, landing, hstart, hs', he⟩ :=
      Flight.start_ends hu hfresh.atRest hfresh.ne_done inner source (env.moment s)
    refine .runs hu hfresh.ne_done (fun i => ?_) hs' he
    rw [Bulk.takeOff_eq ha, hstart]
    rfl
  | account ha hl =>
    exact still fun i => congrArg (·[i]?) (Bulk.upgrades_of_accounts (Bulk.accounts ha hl))
  | again _ _ _ => exact still fun _ => rfl
  | @takeOffAgain s fleet r at_ index inner source ha _ =>
    obtain ⟨u, hu, hrest, herr⟩ :
        ∃ u, fleet.upgrade? index = some u ∧ u.AtRest ∧ u.err.isSome := Fleet.Tends.slot ho ha
    obtain ⟨v, landing, hstart, hs', he⟩ :=
      Flight.start_ends hu hrest (hrest.ne_done herr) inner source (env.moment s)
    refine .runs hu (hrest.ne_done herr) (fun i => ?_) hs' he
    rw [Scene.ofRetry_fleet, Retry.takeOff, ha]
    simp only [hstart]
  | accountAgain _ _ =>
    refine still fun i => ?_
    rw [Scene.ofRetry_fleet]
    unfold Retry.account
    split <;> rfl

theorem Scene.Hears.steps (h : x.Hears env ctx new y) (calm : env.Calm)
    (ho : x.phase.Orderly x.fleet) : x.Steps y new := by
  cases h with
  | @gate s s' fleet inner e _ =>
    refine .still (fun _ hm => absurd hm List.not_mem_nil) fun i => ?_
    rw [Scene.ofRun_fleet]
    have ha := Run.answers fleet e
    generalize Run.gateAnswered fleet e = z at ha ⊢
    cases ha <;> rfl
  | @canary s s' fleet f e he =>
    obtain ⟨u, hu, hf⟩ := Fleet.Tends.suits (Fleet.Trying.tends ho) f List.mem_cons_self
    obtain ⟨v, landing, hresume, hs', hends⟩ :=
      Flight.resume_ends hu hf (env.moment s') (calm he)
    refine .runs hu (hf.stage ▸ f.position.stage_ne_done) (fun i => ?_) hs' hends
    rw [Scene.ofRun_fleet, Run.canaryResumed, Run.upgrade?_canaryLanded, hresume]
  | cooldown _ => exact .still (fun _ hm => absurd hm List.not_mem_nil) fun _ => rfl
  | @bulk s s' fleet b at_ f e ha he =>
    obtain ⟨u, hu, hf, -⟩ := Fleet.Tends.slot (Bulk.Orderly.tends ho) ha
    obtain ⟨v, landing, hresume, hs', hends⟩ :=
      Flight.resume_ends hu hf (env.moment s') (calm he)
    refine .runs hu (hf.stage ▸ f.position.stage_ne_done) (fun i => ?_) hs' hends
    rw [Scene.ofBulk_fleet, Bulk.resume]
    simp only [hresume]
    rfl
  | @retry s s' fleet r at_ f e ha he =>
    obtain ⟨u, hu, hf, -⟩ := Fleet.Tends.slot ho ha
    obtain ⟨v, landing, hresume, hs', hends⟩ :=
      Flight.resume_ends hu hf (env.moment s') (calm he)
    refine .runs hu (hf.stage ▸ f.position.stage_ne_done) (fun i => ?_) hs' hends
    rw [Scene.ofRetry_fleet, Retry.resume]
    simp only [hresume]
    rfl

end Steps

/-! ## Courses -/

/-- What the record of each upgrade of a fleet says about what happened. -/
structure Fleet.Progress (fleet : Fleet) (hs : List Happening) : Prop where
  /-- The stages before the current one are behind it, each once and in order. -/
  passed : ∀ {i : Nat} {u : Upgrade}, fleet.upgrade? i = some u →
    passedStages i hs = Stage.work.take u.current.rank
  /-- It heard the success of each of them. -/
  behind : ∀ {i : Nat} {u : Upgrade}, fleet.upgrade? i = some u →
    ∀ s : Stage, s.rank < u.current.rank → ∃ x ∈ hs, x.Succeeds i s
  /-- An upgrade without an error whose run returned is done. -/
  settled : ∀ {i : Nat} {u : Upgrade}, fleet.upgrade? i = some u →
    i ∈ (returns hs).map Prod.fst → u.err = none → u.current = .done

namespace Fleet.Progress

variable {σ : Type} {fleet fleet' : Fleet} {hs new : List Happening}

theorem none (h : fleet.IsNew) : fleet.Progress [] where
  passed hu := by
    obtain ⟨endpoint, b, rfl⟩ := h.upgrade hu
    rfl
  behind hu s hs := by
    obtain ⟨endpoint, b, rfl⟩ := h.upgrade hu
    exact absurd hs (Nat.not_lt_zero _)
  settled _ hm := absurd hm List.not_mem_nil

/-- Nothing happens to an upgrade that does not change. -/
theorem keep_one (h : fleet.Progress hs) {i : Nat} {u : Upgrade} (hu : fleet.upgrade? i = some u)
    (hnone : ∀ x ∈ new, x.index? ≠ some i) :
    passedStages i (hs ++ new) = Stage.work.take u.current.rank ∧
    (∀ s : Stage, s.rank < u.current.rank → ∃ x ∈ hs ++ new, x.Succeeds i s) ∧
    (i ∈ (returns (hs ++ new)).map Prod.fst → u.err = Option.none → u.current = .done) := by
  refine ⟨?_, fun s hlt => ?_, fun hm => h.settled hu ?_⟩
  · rw [passedStages_append, passedStages_of_ne hnone, List.append_nil]
    exact h.passed hu
  · obtain ⟨x, hx, hsucceeds⟩ := h.behind hu s hlt
    exact ⟨x, List.mem_append_left _ hx, hsucceeds⟩
  · rw [returns_append, List.map_append] at hm
    rcases List.mem_append.mp hm with hm | hm
    · exact hm
    · obtain ⟨⟨j, r⟩, hr, rfl⟩ := List.mem_map.mp hm
      obtain ⟨x, hx, hxr⟩ := List.mem_filterMap.mp hr
      cases x with
      | returned m index result =>
        cases hxr
        exact absurd rfl (hnone _ hx)
      | _ => cases hxr

/-- A step of the run of an upgrade. -/
theorem run_one (h : fleet.Progress hs) {m : Moment} {index : Nat} {u v : Upgrade}
    {landing : Landing} (hu : fleet.upgrade? index = some u) (hd : u.current ≠ .done)
    (hs' : landing.Suits fleet.config index u v) (he : landing.Ends m index u v new) :
    passedStages index (hs ++ new) = Stage.work.take v.current.rank ∧
    (∀ s : Stage, s.rank < v.current.rank → ∃ x ∈ hs ++ new, x.Succeeds index s) ∧
    (index ∈ (returns (hs ++ new)).map Prod.fst → v.err = Option.none → v.current = .done) := by
  have before (s : Stage) (hlt : s.rank < u.current.rank) :
      ∃ x ∈ hs ++ new, x.Succeeds index s := by
    obtain ⟨x, hx, hsucceeds⟩ := h.behind hu s hlt
    exact ⟨x, List.mem_append_left _ hx, hsucceeds⟩
  refine ⟨?_, fun s hlt => ?_, fun hm hnone => ?_⟩
  · rw [passedStages_append, h.passed hu]
    rcases he.moved with ⟨hcur, hpassed⟩ | ⟨hcur, hpassed, -⟩
    · rw [hcur, hpassed, List.append_nil]
    · rw [hcur, hpassed, Stage.take_rank_next hd]
  · rcases he.moved with ⟨hcur, -⟩ | ⟨hcur, -, x, hx, hsucceeds⟩
    · exact before s (hcur ▸ hlt)
    · rw [hcur, Stage.rank_next_of_ne hd] at hlt
      rcases Nat.lt_succ_iff_lt_or_eq.mp hlt with hlt | heq
      · exact before s hlt
      · obtain rfl := Stage.rank_injective heq
        exact ⟨x, List.mem_append_right _ hx, hsucceeds⟩
  · cases landing with
    | crashed text => exact hs'.elim
    | landed result =>
      cases result with
      | ok a => exact (he.ok rfl).1
      | error e => rw [he.error e rfl] at hnone; cases hnone
    | flying f =>
      -- A run that is not done and has no error did not return before.
      have hnew : returns new = [] := he.returns
      rw [returns_append, hnew, List.append_nil] at hm
      rw [hs'.2.2] at hnone
      exact absurd (h.settled hu hm hnone) hd

theorem step {x y : Scene σ} (h : x.fleet.Progress hs) (hstep : x.Steps y new) :
    y.fleet.Progress (hs ++ new) := by
  suffices ∀ {i : Nat} {u : Upgrade}, y.fleet.upgrade? i = some u →
      passedStages i (hs ++ new) = Stage.work.take u.current.rank ∧
      (∀ s : Stage, s.rank < u.current.rank → ∃ x ∈ hs ++ new, x.Succeeds i s) ∧
      (i ∈ (returns (hs ++ new)).map Prod.fst → u.err = Option.none → u.current = .done) from
    ⟨fun hu => (this hu).1, fun hu => (this hu).2.1, fun hu => (this hu).2.2⟩
  intro i w hw
  cases hstep with
  | still hnone hf =>
    rw [hf] at hw
    exact h.keep_one hw fun x hx hi => by rw [hnone x hx] at hi; cases hi
  | @runs m index u v landing hu hd hf hs' he =>
    rw [hf] at hw
    rcases Fleet.upgrade?_put_cases hu hw with ⟨rfl, rfl⟩ | ⟨hne, hw⟩
    · exact h.run_one hu hd hs' he
    · refine h.keep_one hw fun x hx hi => hne ?_
      rw [he.own x hx] at hi
      exact (Option.some.inj hi).symm

end Fleet.Progress

/-- How far each upgrade is, wherever a course comes to. -/
theorem Course.progress {σ : Type} {env : Surroundings σ} {ctx : Context} {fleet : Fleet} {s : σ}
    {y : Scene σ} {hs : List Happening} (h : Course env ctx ⟨s, fleet, .idle⟩ hs y)
    (calm : env.Calm) (hnew : fleet.IsNew) : y.fleet.Progress hs := by
  induction h with
  | here => exact .none hnew
  | later _ _ ih => exact ih
  | act h ha ih => exact ih.step (ha.steps (h.orderly calm hnew))
  | hear h hh ih => exact ih.step (hh.steps calm (h.orderly calm hnew))

end Rollout
