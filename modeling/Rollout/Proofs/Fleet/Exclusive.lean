import Mathlib.Data.List.Perm.Subperm
import Rollout.Proofs.Fleet.Canaries

/-!
# Who works on a backend

A rollout works on a backend as often as its configuration names it, and takes it out of the pool as
often at most. Nothing in it looks for a backend that is named twice: the work of others may end in
any way, crashes included, and may come in any order.

* **Removals** (`removals`): a run asks for its own backend to be removed where it begins, and
  nowhere else.
* **A step** (`Scene.Fetches`): the upgrades that are entered are among those ahead, and a backend
  has no more at work on it than before and those that are entered for it.
* **The law** (`exclusive_work`): from the steps, by `Scene.Fetches.trans`. Where all backends are
  different, no two flights have the same and none is removed twice.
-/

namespace Rollout

/-! ## Removals -/

/-- The backend that a call takes out of its pool. -/
def Call.removed? : Call → Option Backend
  | removeBackend _ b => some b
  | _ => none

/-- The backend that is asked to be removed. -/
def Deed.removed? (d : Deed) : Option Backend := d.called?.bind Call.removed?

/-- The backend that the load balancer is asked to remove. -/
def Happening.removed? : Happening → Option Backend
  | did _ _ d => d.removed?
  | _ => none

/-- The backends that the load balancer was asked to remove, in the order of time. -/
def removals (hs : List Happening) : List Backend := hs.filterMap Happening.removed?

theorem removals_append (hs hs' : List Happening) :
    removals (hs ++ hs') = removals hs ++ removals hs' := List.filterMap_append

theorem removals_deeds (m : Moment) (index : Nat) (deeds : List Deed) :
    removals (deeds.map (.did m index)) = deeds.filterMap Deed.removed? := List.filterMap_map

theorem removals_landing (m : Moment) (index : Nat) (landing : Landing) :
    removals (landing.happenings m index) = [] := by
  cases landing <;> rfl

/-- The backend of the upgrade at an index. -/
def Fleet.target? (fleet : Fleet) (index : Nat) : Option Backend :=
  (fleet.upgrade? index).map (·.backend)

theorem Stage.next_ne_removeFromPool (s : Stage) : s.next ≠ .removeFromPool := by
  cases s <;> exact nofun

namespace Position

variable {j : Job} {p : Position}

theorem removed?_of_stage (h : p.stage ≠ .removeFromPool) :
    (p.wait j).call?.bind Call.removed? = none := by
  cases p <;> first | rfl | exact absurd rfl h

/-- Only the job's own backend is removed. -/
theorem removed?_sublist (p : Position) (j : Job) :
    ((p.wait j).call?.bind Call.removed?).toList.Sublist [j.backend] := by
  cases p <;> first | exact .refl _ | exact List.nil_sublist _

end Position

namespace Upgrade

variable {u : Upgrade} {j : Job} {ctx : Context} {m : Moment}

theorem removed_deeds_waiting (j : Job) (p : Position) :
    ((Progress.waiting p).deeds j).filterMap Deed.removed? =
      ((p.wait j).call?.bind Call.removed?).toList := by
  show (((p.wait j).call?.map Deed.called).toList).filterMap Deed.removed? = _
  cases (p.wait j).call? with
  | none => rfl
  | some c => cases c <;> rfl

/-- Where a run comes to stand still it asks for nothing to be removed, unless it is to be in the
first stage. -/
theorem removed_guard {p : Position} (h : p.stage ≠ .removeFromPool) :
    ((u.guard ctx m p).2.deeds j).filterMap Deed.removed? = [] := by
  unfold guard
  split
  · rfl
  · show ((Progress.waiting p).deeds j).filterMap Deed.removed? = []
    rw [removed_deeds_waiting, Position.removed?_of_stage h]
    rfl

theorem removed_enter {s : Stage} (h : s ≠ .removeFromPool) :
    ((u.enter j ctx m s).2.deeds j).filterMap Deed.removed? = [] := by
  unfold enter
  split
  · rfl
  · rename_i p hp
    exact removed_guard (Position.enter_stage hp ▸ h)

/-- A run begins with at most one call that removes something, its own backend. -/
theorem removed_startDeeds (u : Upgrade) (j : Job) (ctx : Context) (m : Moment) :
    ((u.startDeeds j ctx m).filterMap Deed.removed?).Sublist [j.backend] := by
  show (((u.start j ctx m).2.deeds j).filterMap Deed.removed?).Sublist [j.backend]
  cases hp : (u.start j ctx m).2 with
  | waiting p =>
    rw [removed_deeds_waiting]
    exact p.removed?_sublist j
  | ended result => exact List.nil_sublist _
  | crashed text => exact List.nil_sublist _

/-- A run that has begun removes nothing any more: it never comes to the first stage from another,
and does not wait there twice. -/
theorem removed_resumeDeeds (u : Upgrade) (j : Job) (ctx : Context) (m : Moment) (p : Position)
    (e : Event (p.wait j)) : (u.resumeDeeds j ctx m p e).filterMap Deed.removed? = [] := by
  have rest : ((u.resume j ctx m p e).2.deeds j).filterMap Deed.removed? = [] := by
    cases e with
    | stopped reason => rfl
    | crashed text => rfl
    | result r =>
      show ((u.take j ctx m (p.resume j m.now r)).2.deeds j).filterMap Deed.removed? = []
      cases hr : p.resume j m.now r with
      | failed e => rfl
      | passed => exact removed_enter u.current.next_ne_removeFromPool
      | stay q =>
        obtain ⟨hq, hloops⟩ := Position.stay_of_resume hr
        refine removed_guard fun h => ?_
        rcases hloops with hl | hl <;> rw [← hq, h] at hl <;> cases hl
  unfold resumeDeeds
  rw [List.filterMap_cons_none rfl, List.filterMap_append, rest, List.append_nil]
  split <;> rfl

end Upgrade

namespace Landing

/-- The flight of a landing, when it is still under way. -/
def flights : Landing → List Flight
  | flying f => [f]
  | _ => []

/-- The backends that a landing goes on to work on. -/
def targets (landing : Landing) : List Backend := landing.flights.map (·.job.backend)

/-- A landing of the upgrade at an index, which works on the backend given for it at most. -/
structure Works (landing : Landing) (index : Nat) (target : List Backend) : Prop where
  index : ∀ f ∈ landing.flights, f.index = index
  targets : landing.targets.Sublist target

theorem Works.of_nil {landing : Landing} (h : landing.flights = []) (index : Nat)
    (target : List Backend) : landing.Works index target where
  index f hf := by rw [h] at hf; cases hf
  targets := by rw [Landing.targets, h]; exact List.nil_sublist _

end Landing

namespace Flight

variable {fleet : Fleet}

theorem works_landing (index : Nat) (ctx : Context) (j : Job) (p : Progress) :
    (landing index ctx j p).Works index [j.backend] := by
  cases p with
  | waiting p => exact ⟨fun f hf => List.mem_singleton.mp hf ▸ rfl, .refl _⟩
  | ended result => exact .of_nil rfl _ _
  | crashed text => exact .of_nil rfl _ _

/-- A flight that begins removes and works on the backend of its upgrade. -/
theorem start_works (fleet : Fleet) (index : Nat) (ctx : Context) (source : Except IoError Entry)
    (m : Moment) :
    (removals (startHappenings fleet index ctx source m)).Sublist (fleet.target? index).toList ∧
      (start fleet index ctx source m).2.Works index (fleet.target? index).toList := by
  have hland (deeds : List Deed) : removals (.entered m index :: (deeds.map (.did m index) ++
      (start fleet index ctx source m).2.happenings m index)) =
      deeds.filterMap Deed.removed? := by
    show removals (deeds.map (.did m index) ++ _) = _
    rw [removals_append, removals_deeds, removals_landing, List.append_nil]
  unfold startHappenings
  rw [hland]
  cases hu : fleet.upgrade? index with
  | none =>
    refine ⟨List.nil_sublist _, ?_⟩
    unfold start
    rw [hu]
    exact .of_nil rfl _ _
  | some u =>
    have htarget : (fleet.target? index).toList = [u.backend] := by
      rw [Fleet.target?, hu]; rfl
    rw [htarget]
    cases source with
    | error e => exact ⟨List.nil_sublist _, by rw [start_error hu]; exact .of_nil rfl _ _⟩
    | ok source =>
      rw [start_ok hu]
      exact ⟨u.removed_startDeeds (fleet.job u source) ctx m, works_landing _ _ _ _⟩

/-- A flight that goes on removes nothing and works on its backend. -/
theorem resume_works (fleet : Fleet) (f : Flight) (m : Moment) (e : Event f.wait) :
    removals (f.resumeHappenings fleet m e) = [] ∧
      (f.resume fleet m e).2.Works f.index [f.job.backend] := by
  unfold resumeHappenings
  rw [removals_append, removals_deeds, removals_landing, List.append_nil]
  cases hu : fleet.upgrade? f.index with
  | none =>
    refine ⟨rfl, ?_⟩
    unfold resume
    rw [hu]
    exact .of_nil rfl _ _
  | some u =>
    rw [resume_eq hu]
    exact ⟨u.removed_resumeDeeds f.job f.ctx m f.position e, works_landing _ _ _ _⟩

end Flight

/-! ## A step of a rollout -/

/-- The upgrades whose runs may still be entered, in order. -/
def Phase.ahead (fleet : Fleet) : Phase → List Nat
  | idle | rollout (.gate _) => List.range fleet.size
  | rollout (.canaryDue index) => (List.range fleet.size).drop (min index fleet.canaries)
  | rollout (.canary f) => (List.range fleet.size).drop (min (f.index + 1) fleet.canaries)
  | rollout (.cooldown _) => (List.range fleet.size).drop fleet.canaries
  | rollout (.bulk b) => b.queuedAt ++ b.queue
  | _ => []

/-- The backends that the flights under way work on. -/
def Phase.targets (phase : Phase) : List Backend := phase.flights.map (·.job.backend)

/-- What came to pass between two scenes: only upgrades that were ahead were entered, each once. A
flight that works on a backend now did before or was entered for it, and so was who asked for it to
be removed. -/
structure Scene.Fetches {σ : Type} (x : Scene σ) (hs : List Happening) (y : Scene σ) : Prop where
  ahead : (entries hs ++ y.phase.ahead y.fleet).Subperm (x.phase.ahead x.fleet)
  targets : y.phase.targets.Subperm (x.phase.targets ++ (entries hs).filterMap x.fleet.target?)
  removals : (removals hs).Sublist ((entries hs).filterMap x.fleet.target?)

theorem Fleet.Keeps.target? {fleet fleet' : Fleet} (h : fleet.Keeps fleet') :
    fleet'.target? = fleet.target? := by
  funext index
  have hmap := congrArg (·[index]?) h.targets
  simp only [List.getElem?_map] at hmap
  exact hmap

theorem filterMap_range_getElem? {α : Type} (l : List α) :
    (List.range l.length).filterMap (l[·]?) = l := by
  induction l with
  | nil => rfl
  | cons a rest ih =>
    rw [List.length_cons, List.range_succ_eq_map, List.filterMap_cons, List.filterMap_map]
    exact congrArg (a :: ·) ih

/-- The upgrades of a new fleet are for its backends, in their order. -/
theorem Fleet.IsNew.targets {fleet : Fleet} (h : fleet.IsNew) :
    (List.range fleet.size).filterMap fleet.target? = fleet.backends := by
  have htarget : fleet.target? = (fleet.backends[·]?) := by
    funext index
    rw [← h.backends, List.getElem?_map]
    rfl
  have hsize : fleet.size = fleet.backends.length := by
    rw [← h.backends, List.length_map]
    rfl
  rw [htarget, hsize]
  exact filterMap_range_getElem? fleet.backends

namespace Scene.Fetches

variable {σ : Type} {x y z : Scene σ} {hs new : List Happening}

theorem refl (x : Scene σ) : x.Fetches [] x where
  ahead := .refl _
  targets := by
    show x.phase.targets.Subperm (x.phase.targets ++ [])
    rw [List.append_nil]
  removals := .refl _

theorem trans (h : x.Fetches hs y) (h' : y.Fetches new z) (hk : x.fleet.Keeps y.fleet) :
    x.Fetches (hs ++ new) z where
  ahead := by
    rw [entries_append, List.append_assoc]
    exact ((List.subperm_append_left _).mpr h'.ahead).trans h.ahead
  targets := by
    rw [entries_append, List.filterMap_append, ← List.append_assoc, ← hk.target?]
    refine h'.targets.trans ((List.subperm_append_right _).mpr ?_)
    rw [hk.target?]
    exact h.targets
  removals := by
    rw [entries_append, removals_append, List.filterMap_append]
    refine h.removals.append ?_
    rw [← hk.target?]
    exact h'.removals

/-- A step in which no run goes on. -/
theorem still (hn : ∀ h ∈ new, h.index? = none)
    (ha : (y.phase.ahead y.fleet).Subperm (x.phase.ahead x.fleet))
    (ht : y.phase.targets.Subperm x.phase.targets) : x.Fetches new y := by
  have he : entries new = [] := List.filterMap_eq_nil_iff.mpr fun h hm => by
    have := hn h hm
    cases h <;> first | rfl | cases this
  have hr : Rollout.removals new = [] := List.filterMap_eq_nil_iff.mpr fun h hm => by
    have := hn h hm
    cases h <;> first | rfl | cases this
  refine ⟨?_, ?_, ?_⟩
  · rw [he]; exact ha
  · rw [he, List.filterMap_nil, List.append_nil]; exact ht
  · rw [hr]; exact List.nil_sublist _

/-- A step in which nothing is seen. -/
theorem silent (ha : (y.phase.ahead y.fleet).Subperm (x.phase.ahead x.fleet))
    (ht : y.phase.targets.Subperm x.phase.targets) : x.Fetches [] y :=
  still (fun _ hm => absurd hm List.not_mem_nil) ha ht

/-- A step in which the run of an upgrade is entered. -/
theorem enters {index : Nat} (ctx : Context) (source : Except IoError Entry) (m : Moment)
    (ha : (index :: y.phase.ahead y.fleet).Subperm (x.phase.ahead x.fleet))
    (ht : y.phase.targets.Subperm (x.phase.targets ++ (x.fleet.target? index).toList)) :
    x.Fetches (Flight.startHappenings x.fleet index ctx source m) y := by
  have hentered := (Flight.tells_start x.fleet index ctx source m).entered
  have htarget : [index].filterMap x.fleet.target? = (x.fleet.target? index).toList := by
    rw [List.filterMap_cons]
    cases x.fleet.target? index <;> rfl
  refine ⟨?_, ?_, ?_⟩
  · rw [hentered]; exact ha
  · rw [hentered, htarget]; exact ht
  · rw [hentered, htarget]; exact (Flight.start_works x.fleet index ctx source m).1

/-- A step in which the run of an upgrade goes on. -/
theorem goesOn {f : Flight} (m : Moment) (e : Event f.wait)
    (ha : (y.phase.ahead y.fleet).Subperm (x.phase.ahead x.fleet))
    (ht : y.phase.targets.Subperm x.phase.targets) :
    x.Fetches (f.resumeHappenings x.fleet m e) y := by
  have hentered := (Flight.tells_resume x.fleet f m e).entered
  refine ⟨?_, ?_, ?_⟩
  · rw [hentered]; exact ha
  · rw [hentered, List.filterMap_nil, List.append_nil]; exact ht
  · rw [hentered, (Flight.resume_works x.fleet f m e).1]; exact .refl _

end Scene.Fetches

/-! ## The upgrades after the canaries -/

/-- The backend that an admitted upgrade works on. -/
def Admitted.target? (a : Admitted) : Option Backend := a.flight?.map (·.job.backend)

/-- What is left in the place of the admitted upgrade at an index. -/
def Landing.slot (index : Nat) : Landing → List Admitted
  | flying f => [.flying f]
  | landed result => [.landed index !result.isOk]
  | crashed _ => []

namespace Bulk

variable {fleet fleet' : Fleet} {b b' : Bulk} {at_ index : Nat} {a : Admitted}

/-- The backends that the admitted upgrades work on. -/
def targets (b : Bulk) : List Backend := b.admitted.filterMap Admitted.target?

theorem phase_targets (b : Bulk) : (Phase.rollout (.bulk b)).targets = b.targets :=
  List.map_filterMap

/-- A landing changes the upgrade at its position and leaves the others around it. -/
theorem admitted_settle (ha : b.admitted[at_]? = some a) (index : Nat) (landing : Landing) :
    ∃ front back, b.admitted = front ++ a :: back ∧
      (b.settle at_ index landing).admitted = front ++ (landing.slot index ++ back) := by
  obtain ⟨front, back, hb, hset, herase⟩ := split_at ha
  refine ⟨front, back, hb, ?_⟩
  cases landing with
  | flying f => exact hset _
  | landed result => cases result <;> exact hset _
  | crashed text => exact herase

/-- The upgrade at a position waits no more, and the landing says what it works on. The rest stays
as it was. -/
theorem settle_parts (ha : b.admitted[at_]? = some a) (index : Nat) (landing : Landing) :
    ∃ targets, (a.queued?.toList ++ (b.settle at_ index landing).queuedAt).Perm b.queuedAt ∧
      b.targets.Perm (a.target?.toList ++ targets) ∧
      (b.settle at_ index landing).targets.Perm (landing.targets ++ targets) := by
  obtain ⟨front, back, hb, hs⟩ := admitted_settle ha index landing
  have cons {γ : Type} (g : Admitted → Option γ) : (front ++ a :: back).filterMap g =
      front.filterMap g ++ ((g a).toList ++ back.filterMap g) := by
    rw [List.filterMap_append, List.filterMap_cons]
    cases g a <;> rfl
  have hqueued : (landing.slot index).filterMap Admitted.queued? = [] := by
    cases landing <;> rfl
  have htargets : (landing.slot index).filterMap Admitted.target? = landing.targets := by
    cases landing <;> rfl
  refine ⟨front.filterMap Admitted.target? ++ back.filterMap Admitted.target?, ?_, ?_, ?_⟩
  · rw [queuedAt, queuedAt, hb, hs, cons, List.filterMap_append, List.filterMap_append, hqueued]
    exact List.perm_append_comm_assoc _ _ _
  · rw [targets, hb, cons]
    exact List.perm_append_comm_assoc _ _ _
  · rw [targets, hs, List.filterMap_append, List.filterMap_append, htargets]
    exact List.perm_append_comm_assoc _ _ _

end Bulk

namespace Run

variable {fleet : Fleet} {index : Nat} {landing : Landing} {target : List Backend}

/-- After the landing of a canary only later upgrades are ahead. -/
theorem ahead_landed (h : landing.Works index target) (fleet : Fleet) :
    ((Phase.rollout (canaryLanded index (fleet, landing)).2).ahead
      (canaryLanded index (fleet, landing)).1).Sublist
      ((List.range fleet.size).drop (min (index + 1) fleet.canaries)) := by
  cases landing with
  | flying f =>
    rw [← h.index f List.mem_cons_self]
    exact .refl _
  | landed result =>
    cases result with
    | ok a => exact .refl _
    | error e => exact List.nil_sublist _
  | crashed text => exact List.nil_sublist _

theorem targets_landed (index : Nat) (x : Fleet × Landing) :
    (Phase.rollout (canaryLanded index x).2).targets = x.2.targets := by
  obtain ⟨fleet, landing⟩ := x
  cases landing with
  | landed result => cases result <;> rfl
  | _ => rfl

end Run

/-! ## Courses -/

section Courses

variable {σ : Type} {env : Surroundings σ} {ctx : Context} {x y : Scene σ} {s s' : σ}
  {fleet fleet' : Fleet} {b b' : Bulk} {hs new : List Happening} {at_ index : Nat}

namespace Scene.Fetches

theorem start (fleet : Fleet) (ctx : Context) (m : Moment) :
    Fetches ⟨s, fleet, .idle⟩ ((Run.start fleet ctx m).2.happenings m)
      (ofRun s (Run.start fleet ctx m)) := by
  have hs := Run.starts fleet ctx m
  generalize Run.start fleet ctx m = x at hs ⊢
  cases hs with
  | overflows _ => exact silent List.nil_subperm (.refl _)
  | halts _ _ => exact silent List.nil_subperm (.refl _)
  | asks _ _ => exact still (fun _ hm => List.mem_singleton.mp hm ▸ rfl) (.refl _) (.refl _)

theorem answered {inner : Context} (e : Event (Run.gateCall fleet)) :
    Fetches ⟨s, fleet, .rollout (.gate inner)⟩ [] (ofRun s' (Run.gateAnswered fleet e)) := by
  have ha := Run.answers fleet e
  generalize Run.gateAnswered fleet e = x at ha ⊢
  cases ha with
  | admits _ =>
    refine silent (List.Perm.subperm (.of_eq ?_)) (.refl _)
    show (List.range fleet.size).drop (min 0 fleet.canaries) = List.range fleet.size
    rw [Nat.zero_min, List.drop_zero]
  | denies _ => exact silent List.nil_subperm (.refl _)
  | halts => exact silent List.nil_subperm (.refl _)
  | crashes => exact silent List.nil_subperm (.refl _)

theorem canary (ctx : Context) (source : Except IoError Entry) (m : Moment) :
    Fetches ⟨s, fleet, .rollout (.canaryDue index)⟩
      (Run.canaryHappenings fleet ctx source m index)
      (ofRun s (Run.nextCanary fleet ctx source m index)) := by
  -- Behind the canaries the other upgrades are ahead.
  have past (hle : fleet.canaries ≤ index) : ((List.range fleet.size).drop fleet.canaries).Subperm
      ((List.range fleet.size).drop (min index fleet.canaries)) := by
    rw [Nat.min_eq_right hle]
  have hn := Run.nexts fleet ctx source m index
  generalize Run.canaryHappenings fleet ctx source m index = seen,
    Run.nextCanary fleet ctx source m index = x at hn ⊢
  cases hn with
  | overflows _ _ => exact silent List.nil_subperm (.refl _)
  | @begins inner hlt _ =>
    have hworks := (Flight.start_works fleet index inner source m).2
    have hk := Fleet.Keeps.start fleet index inner source m
    refine enters (x := ⟨s, fleet, _⟩) inner source m ?_ ?_
    · -- The canary is the first of those that are ahead.
      have hfirst : (List.range fleet.size).drop (min index fleet.canaries) =
          index :: (List.range fleet.size).drop (min (index + 1) fleet.canaries) := by
        have hsize : index < (List.range fleet.size).length := by
          rw [List.length_range]
          exact Nat.lt_of_lt_of_le hlt fleet.canaries_le
        rw [Nat.min_eq_left (Nat.le_of_lt hlt), Nat.min_eq_left hlt,
          List.drop_eq_getElem_cons hsize, List.getElem_range]
      have hland := Run.ahead_landed hworks (Flight.start fleet index inner source m).1
      rw [hk.size, hk.canaries] at hland
      show (index :: _).Subperm ((List.range fleet.size).drop (min index fleet.canaries))
      rw [hfirst]
      exact (hland.cons_cons index).subperm
    · show (Phase.rollout _).targets.Subperm _
      rw [Run.targets_landed]
      exact hworks.targets.subperm
  | skips hle _ => exact silent (past hle) (.refl _)
  | rests hle _ _ => exact silent (past hle) (.refl _)

theorem canaryResumed {f : Flight} (m : Moment) (e : Event f.wait) :
    Fetches ⟨s, fleet, .rollout (.canary f)⟩ (f.resumeHappenings fleet m e)
      (ofRun s' (Run.canaryResumed fleet m f e)) := by
  have hworks := (Flight.resume_works fleet f m e).2
  have hk := Fleet.Keeps.resume fleet f m e
  refine goesOn (x := ⟨s, fleet, _⟩) m e ?_ ?_
  · have hland := Run.ahead_landed hworks (f.resume fleet m e).1
    rw [hk.size, hk.canaries] at hland
    exact hland.subperm
  · show (Phase.rollout _).targets.Subperm _
    rw [Run.canaryResumed, Run.targets_landed]
    exact hworks.targets.subperm

theorem lead (hl : b.Leads fleet fleet' b') :
    Fetches ⟨s, fleet, .rollout (.bulk b)⟩ [] ⟨s, fleet', .rollout (.bulk b')⟩ := by
  refine silent ?_ ?_
  · cases hl with
    | @admits index rest inner _ hq =>
      -- The first that is not begun yet becomes the last that waits.
      refine List.Perm.subperm (.of_eq ?_)
      simp [Phase.ahead, Bulk.queuedAt, Admitted.queued?, hq]
    | _ => exact .refl _
  · rw [Bulk.phase_targets, Bulk.phase_targets]
    cases hl with
    | admits inner _ _ =>
      refine List.Perm.subperm (.of_eq ?_)
      simp [Bulk.targets, Admitted.target?, Admitted.flight?]
    | _ => exact .refl _

theorem takeOff {inner : Context} (ha : b.admitted[at_]? = some (.queued index inner))
    (source : Except IoError Entry) (m : Moment) :
    Fetches ⟨s, fleet, .rollout (.bulk b)⟩ (Flight.startHappenings fleet index inner source m)
      (ofBulk s (b.takeOff fleet at_ source m)) := by
  have hworks := (Flight.start_works fleet index inner source m).2
  obtain ⟨rest, hqueued, hbefore, hafter⟩ :=
    b.settle_parts ha index (Flight.start fleet index inner source m).2
  rw [Bulk.takeOff_eq ha]
  refine enters (x := ⟨s, fleet, _⟩) inner source m ?_ ?_
  · show ([index] ++ (Bulk.queuedAt _ ++ Bulk.queue _)).Subperm _
    rw [Bulk.queue_settle, ← List.append_assoc]
    exact (hqueued.append_right b.queue).subperm
  · rw [ofBulk_phase, Bulk.phase_targets, Bulk.phase_targets]
    refine hafter.subperm.trans ?_
    refine ((List.subperm_append_right _).mpr hworks.targets.subperm).trans ?_
    exact (List.perm_append_comm.trans (hbefore.symm.append_right _)).subperm

theorem resume {f : Flight} (ha : b.admitted[at_]? = some (.flying f)) (m : Moment)
    (e : Event f.wait) :
    Fetches ⟨s, fleet, .rollout (.bulk b)⟩ (f.resumeHappenings fleet m e)
      (ofBulk s' (b.resume fleet at_ f m e)) := by
  have hworks := (Flight.resume_works fleet f m e).2
  obtain ⟨rest, hqueued, hbefore, hafter⟩ := b.settle_parts ha f.index (f.resume fleet m e).2
  refine goesOn (x := ⟨s, fleet, _⟩) m e ?_ ?_
  · show ((b.settle at_ f.index (f.resume fleet m e).2).queuedAt ++
      (b.settle at_ f.index (f.resume fleet m e).2).queue).Subperm _
    rw [Bulk.queue_settle]
    exact (hqueued.append_right b.queue).subperm
  · rw [ofBulk_phase, Bulk.phase_targets, Bulk.phase_targets]
    refine hafter.subperm.trans ?_
    exact ((List.subperm_append_right _).mpr hworks.targets.subperm).trans hbefore.symm.subperm

theorem accounts (ha : b.Accounts fleet fleet' b') :
    Fetches ⟨s, fleet, .rollout (.bulk b)⟩ [] ⟨s, fleet', .rollout (.bulk b')⟩ := by
  obtain ⟨hqueue, hqueued, htargets⟩ :
      b'.queue = b.queue ∧ b'.queuedAt = b.queuedAt ∧ b'.targets = b.targets := by
    cases ha with
    | counts ha => exact ⟨rfl, filterMap_set_eq ha rfl, filterMap_set_eq ha rfl⟩
    | releases ha => exact ⟨rfl, filterMap_eraseIdx_eq ha rfl, filterMap_eraseIdx_eq ha rfl⟩
  refine silent (List.Perm.subperm (.of_eq ?_)) (List.Perm.subperm (.of_eq ?_))
  · exact congrArg₂ (· ++ ·) hqueued hqueue
  · rw [Bulk.phase_targets, Bulk.phase_targets, htargets]

end Scene.Fetches

theorem Scene.Acts.fetches (h : x.Acts env ctx new y) (hy : ∀ r, y.phase ≠ .retry r) :
    x.Fetches new y := by
  cases h with
  | start => exact .start _ _ _
  | canaryDue _ => exact .canary _ _ _
  | lead hl => exact .lead (Bulk.leads_of_moved hl)
  | conclude _ => exact .silent List.nil_subperm List.nil_subperm
  | overflow _ => exact .silent List.nil_subperm List.nil_subperm
  | takeOff ha _ => exact .takeOff ha _ _
  | account ha hl => exact .accounts (Bulk.accounts ha hl)
  | again _ _ _ => exact absurd rfl (hy _)
  | takeOffAgain _ _ => exact absurd rfl (hy _)
  | accountAgain _ _ => exact absurd rfl (hy _)

theorem Scene.Hears.fetches (h : x.Hears env ctx new y) (hy : ∀ r, y.phase ≠ .retry r) :
    x.Fetches new y := by
  cases h with
  | gate _ => exact .answered _
  | canary _ => exact .canaryResumed _ _
  | cooldown _ => exact .silent (.refl _) (.refl _)
  | bulk ha _ => exact .resume ha _ _
  | retry _ _ => exact absurd rfl (hy _)

theorem Course.fetches (h : Course env ctx x hs y) (hy : ∀ r, y.phase ≠ .retry r) :
    x.Fetches hs y := by
  induction h with
  | here => exact .refl _
  | later _ _ ih =>
    obtain ⟨ahead, targets, removals⟩ := ih hy
    exact ⟨ahead, targets, removals⟩
  | act h ha ih => exact (ih (ha.ne_retry hy)).trans (ha.fetches hy) h.keeps
  | hear h hh ih => exact (ih (hh.ne_retry hy)).trans (hh.fetches hy) h.keeps

/-- **Each backend by one.** The work of others may end in any way, at any time and in any order,
and may crash. Wherever a rollout comes to:

1. No more of the flights under way work on a backend than the configuration has addresses for it,
   and the load balancer was asked to remove it no more often.
2. Where the addresses are for different backends, no two flights work on the same one, and none was
   removed twice. -/
theorem exclusive_work {c : Config} {timeouts : StageTimeouts}
    (hc : Fleet.ofConfig c timeouts = .ok fleet) (h : Course env ctx ⟨s, fleet, .idle⟩ hs x)
    (hx : ∀ r, x.phase ≠ .retry r) :
    c.backends.mapM Backend.ofConfigured = .ok fleet.backends ∧
    (∀ b, (x.phase.flights.map (·.job.backend)).count b ≤ fleet.backends.count b ∧
      (removals hs).count b ≤ fleet.backends.count b) ∧
    (fleet.backends.Nodup →
      x.phase.flights.Pairwise (·.job.backend ≠ ·.job.backend) ∧ (removals hs).Nodup) := by
  obtain ⟨-, -, hnew⟩ := Fleet.config_of_ofConfig hc
  obtain ⟨-, -, hbackends, -⟩ := Fleet.targets_of_ofConfig hc
  obtain ⟨hahead, htargets, hremovals⟩ := h.fetches hx
  -- Those that were entered are some of all upgrades, so their backends are some of all backends.
  have hentered : ((entries hs).filterMap fleet.target?).Subperm fleet.backends := by
    have hle : (entries hs).Subperm (List.range fleet.size) :=
      (List.sublist_append_left _ _).subperm.trans hahead
    obtain ⟨l, hl, hsub⟩ := hle
    rw [← hnew.targets]
    exact ⟨l.filterMap fleet.target?, hl.filterMap _, hsub.filterMap _⟩
  have hflights : (x.phase.flights.map (·.job.backend)).Subperm fleet.backends :=
    htargets.trans hentered
  have hremoved : (removals hs).Subperm fleet.backends := hremovals.subperm.trans hentered
  have distinct {l : List Backend} (hl : l.Subperm fleet.backends) (hn : fleet.backends.Nodup) :
      l.Nodup := by
    obtain ⟨l', hperm, hsub⟩ := hl
    exact hperm.nodup_iff.mp (hsub.nodup hn)
  refine ⟨hbackends, fun b => ⟨hflights.count_le b, hremoved.count_le b⟩, fun hn => ⟨?_, ?_⟩⟩
  · exact List.pairwise_map.mp (distinct hflights hn)
  · exact distinct hremoved hn

end Courses

/-! ## A backend that is named twice -/

/-- Two addresses with a permit for each and ten minutes for an upgrade. -/
def duoConfig : Config := { pairConfig with actionTimeoutSecs := 600 }

/-- The fleet of the two. -/
def duoFleet : Fleet := { pairFleet with config := duoConfig }

/-- The same with one address twice. -/
def twinConfig : Config := { duoConfig with backends := ["10.0.0.1:80", "10.0.0.1:80"] }

/-- The fleet of the address that is there twice. -/
def twinFleet : Fleet :=
  { duoFleet with
    config := twinConfig
    backends := [⟨.v4 ⟨10, 0, 0, 1⟩, 80⟩, ⟨.v4 ⟨10, 0, 0, 1⟩, 80⟩]
    upgrades := List.replicate 2 (.fresh "10.0.0.1:80" ⟨.v4 ⟨10, 0, 0, 1⟩, 80⟩) }

theorem ofConfig_duo : Fleet.ofConfig duoConfig .standard = .ok duoFleet := rfl

theorem ofConfig_twin : Fleet.ofConfig twinConfig .standard = .ok twinFleet := rfl

/-- A pool that has each of a fleet's backends once, at the start of the clock. -/
def Fleet.pool (fleet : Fleet) : Table × Moment :=
  (Table.empty.seed "/" fleet.backends.eraseDups, ⟨0, []⟩)

/-- The two when both are admitted. -/
def duoAdmitted : List Admitted :=
  [.queued 0 ⟨some 600000000000, none⟩, .queued 1 ⟨some 600000000000, none⟩]

/-- The pool is as the two want it, and both are admitted. -/
theorem course_admitted {fleet : Fleet} (hf : fleet = duoFleet ∨ fleet = twinFleet) :
    Course .free .background ⟨fleet.pool, fleet, .idle⟩ [.asked ⟨0, []⟩]
      ⟨fleet.pool, { fleet with admitted := 2 },
        .rollout (.bulk ⟨.seeking, [], duoAdmitted, 0⟩)⟩ := by
  have missing : Surroundings.free.opens fleet.pool (.error (.code 2)) := trivial
  have start : Course .free .background ⟨fleet.pool, fleet, .idle⟩ [.asked ⟨0, []⟩]
      ⟨fleet.pool, fleet, .rollout (.gate ⟨some 30000000000, none⟩)⟩ := by
    rcases hf with rfl | rfl <;> exact .act .here .start
  have canaries : Course .free .background ⟨fleet.pool, fleet, .idle⟩ [.asked ⟨0, []⟩]
      ⟨fleet.pool, fleet, .rollout (.canaryDue 0)⟩ := by
    have health : Surroundings.free.ends fleet.pool ⟨some 30000000000, none⟩ (Run.gateCall fleet)
        (.result (fleet.pool.1.health "/")) fleet.pool := by
      rcases hf with rfl | rfl <;> exact ⟨trivial, rfl, rfl⟩
    rcases hf with rfl | rfl <;> exact start.hear (.gate health)
  have bulk : Course .free .background ⟨fleet.pool, fleet, .idle⟩ [.asked ⟨0, []⟩]
      ⟨fleet.pool, fleet, .rollout (.bulk (.start fleet))⟩ := by
    rcases hf with rfl | rfl <;> exact canaries.act (.canaryDue missing)
  have first : Course .free .background ⟨fleet.pool, fleet, .idle⟩ [.asked ⟨0, []⟩]
      ⟨fleet.pool, { fleet with admitted := 1 },
        .rollout (.bulk ⟨.seeking, [1], [.queued 0 ⟨some 600000000000, none⟩], 0⟩)⟩ := by
    rcases hf with rfl | rfl <;>
      exact ((bulk.act (.lead rfl)).act (.lead rfl)).act (.lead rfl)
  rcases hf with rfl | rfl <;> exact ((first.act (.lead rfl)).act (.lead rfl)).act (.lead rfl)

/-- Both are under way at once, and have asked for their backends to be removed. -/
theorem course_both {fleet : Fleet} (hf : fleet = duoFleet ∨ fleet = twinFleet) :
    ∃ hs x, Course .free .background ⟨fleet.pool, fleet, .idle⟩ hs x ∧
      (∀ r, x.phase ≠ .retry r) ∧ x.phase.flights.map (·.job.backend) = fleet.backends ∧
      removals hs = fleet.backends := by
  have found : Surroundings.free.opens fleet.pool (.ok .directory) := trivial
  have at₀ : duoAdmitted[0]? = some (.queued 0 ⟨some 600000000000, none⟩) := rfl
  have at₁ (a : Admitted) : (duoAdmitted.set 0 a)[1]? =
      some (.queued 1 ⟨some 600000000000, none⟩) := rfl
  have first := (course_admitted hf).act (.takeOff at₀ found)
  rcases hf with rfl | rfl
  · exact ⟨_, _, first.act (.takeOff (at₁ _) found), nofun, rfl, rfl⟩
  · exact ⟨_, _, first.act (.takeOff (at₁ _) found), nofun, rfl, rfl⟩

/-- The two are under way at once, each on a backend of its own that was removed once. -/
theorem exclusive_work_duo : ∃ hs x,
    Course .free .background ⟨duoFleet.pool, duoFleet, .idle⟩ hs x ∧
    x.phase.flights.length = 2 ∧ x.phase.flights.Pairwise (·.job.backend ≠ ·.job.backend) ∧
    removals hs = pairBackends ∧ (removals hs).Nodup := by
  obtain ⟨hs, x, course, running, flights, removed⟩ := course_both (.inl rfl)
  have law := (exclusive_work ofConfig_duo course running).2.2 (by decide)
  have two : x.phase.flights.length = 2 := by
    rw [← List.length_map (f := (·.job.backend)), flights]
    rfl
  exact ⟨hs, x, course, two, law.1, removed, law.2⟩

/-- A pool with the one backend of two equal addresses is as their configuration wants it. Then both
upgrades are under way on that backend at once, and it was asked twice to be removed. -/
theorem twin_shared : Fleet.ofConfig twinConfig .standard = .ok twinFleet ∧
    twinFleet.checkAnswer (twinFleet.pool.1.health "/") = .ok () ∧
    ∃ hs x b, Course .free .background ⟨twinFleet.pool, twinFleet, .idle⟩ hs x ∧
      (∀ r, x.phase ≠ .retry r) ∧ x.phase.flights.map (·.job.backend) = [b, b] ∧
      removals hs = [b, b] := by
  obtain ⟨hs, x, course, running, flights, removed⟩ := course_both (.inr rfl)
  exact ⟨ofConfig_twin, rfl, hs, x, _, course, running, flights, removed⟩

end Rollout
