import Rollout.Proofs.Fleet.Turns

/-!
# Canaries first

A rollout comes to the other upgrades after its canaries, and leaves the canaries alone from then
on.

- **Stopped contexts** (`Flight.start_stopped`): an upgrade that begins within a context that has
  stopped ends at once, without a call.
- **Behind the canaries** (`Bulk.Trails`): who is admitted there, and within which contexts.
  `Course.trailing` is what happens there, and `Course.silent` what happens when the context has
  stopped.
- **The law** (`canary_gate`): the order of the canaries, what is true when a rollout comes past
  them, and what a canary that fails leaves behind.
-/

namespace Rollout

/-- Whether a call is made. -/
def Happening.isCall : Happening → Bool
  | asked _ | did _ _ (.called _) => true
  | _ => false

/-! ## Stopped contexts -/

section Stopped

variable {ctx inner : Context} {m : Moment}

/-- A run that enters a stage within a context that has stopped ends there. -/
theorem Upgrade.enter_stopped (u : Upgrade) (j : Job) (s : Stage) (h : (ctx.stopped m).isSome) :
    ∃ result, (u.enter j ctx m s).2 = .ended result := by
  obtain ⟨reason, hr⟩ := Option.isSome_iff_exists.mp h
  rw [enter]
  cases Position.enter j m.now s with
  | none => exact ⟨_, rfl⟩
  | some p =>
    refine ⟨.error (.context reason), ?_⟩
    simp only [guard, hr]
    rfl

/-- A run without calls is seen to make none. -/
theorem Landing.not_isCall {deeds : List Deed} (hd : ∀ d ∈ deeds, d.called? = none)
    (landing : Landing) (index : Nat) : ∀ y ∈ Happening.entered m index ::
      (deeds.map (.did m index) ++ landing.happenings m index), y.isCall = false := by
  intro y hy
  rcases List.mem_cons.mp hy with rfl | hy
  · rfl
  rcases List.mem_append.mp hy with hy | hy
  · obtain ⟨d, hmem, rfl⟩ := List.mem_map.mp hy
    have := hd d hmem
    cases d <;> first | rfl | cases this
  · cases landing with
    | landed result => rw [List.mem_singleton.mp hy]; rfl
    | _ => exact absurd hy List.not_mem_nil

/-- An upgrade that begins within a context that has stopped lands at once, and makes no call. -/
theorem Flight.start_stopped (fleet : Fleet) (index : Nat) (source : Except IoError Entry)
    (h : (inner.stopped m).isSome) :
    (∃ result, (start fleet index inner source m).2 = .landed result) ∧
      ∀ y ∈ startHappenings fleet index inner source m, y.isCall = false := by
  have hnil : ∀ d ∈ ([] : List Deed), d.called? = none := fun _ h => absurd h List.not_mem_nil
  unfold startHappenings
  cases hu : fleet.upgrade? index with
  | none =>
    have hstart : start fleet index inner source m = (fleet, .landed (.ok ())) := by
      rw [start, hu]
    exact ⟨⟨_, by rw [hstart]⟩, Landing.not_isCall hnil _ _⟩
  | some u =>
    cases source with
    | error e => exact ⟨⟨_, by rw [start_error hu]⟩, Landing.not_isCall hnil _ _⟩
    | ok source =>
      obtain ⟨result, hr⟩ :
          ∃ result, (u.start (fleet.job u source) inner m).2 = .ended result :=
        Upgrade.enter_stopped _ _ _ h
      refine ⟨⟨result, by rw [start_ok hu, hr]; rfl⟩, Landing.not_isCall (fun d hd => ?_) _ _⟩
      change d ∈ u.startDeeds (fleet.job u source) inner m at hd
      rw [Upgrade.startDeeds, hr] at hd
      rw [List.mem_singleton.mp hd]
      rfl

end Stopped

/-! ## Behind the canaries -/

namespace Flight

theorem admitted_landing (index : Nat) (ctx : Context) (job : Job) (p : Progress) :
    ((landing index ctx job p).admitted index).index = index := by
  cases p <;> rfl

theorem admitted_start (fleet : Fleet) (index : Nat) (ctx : Context)
    (source : Except IoError Entry) (m : Moment) :
    ((start fleet index ctx source m).2.admitted index).index = index := by
  cases hu : fleet.upgrade? index with
  | none => rw [start, hu]; rfl
  | some u =>
    cases source with
    | error e => rw [start_error hu]; rfl
    | ok source => rw [start_ok hu]; exact admitted_landing _ _ _ _

theorem admitted_resume (fleet : Fleet) (f : Flight) (m : Moment) (e : Event f.wait) :
    ((f.resume fleet m e).2.admitted f.index).index = f.index := by
  unfold resume
  split
  · rfl
  · exact admitted_landing _ _ _ _

theorem upgrade?_start {fleet : Fleet} {index i : Nat} (h : index ≠ i) (ctx : Context)
    (source : Except IoError Entry) (m : Moment) :
    (start fleet index ctx source m).1.upgrade? i = fleet.upgrade? i := by
  unfold start
  split
  · rfl
  · split <;> exact Fleet.upgrade?_put_of_ne h

theorem upgrade?_resume {fleet : Fleet} {f : Flight} {i : Nat} (h : f.index ≠ i) (m : Moment)
    (e : Event f.wait) : (f.resume fleet m e).1.upgrade? i = fleet.upgrade? i := by
  unfold resume
  split
  · rfl
  · exact Fleet.upgrade?_put_of_ne h

end Flight

theorem Landing.admitted_ne_queued {index i : Nat} {inner : Context} (landing : Landing) :
    landing.admitted index ≠ .queued i inner := by
  cases landing <;> exact Admitted.noConfusion

namespace Bulk

variable {fleet fleet' : Fleet} {b b' : Bulk} {ctx inner : Context} {now : Instant}
  {at_ index k : Nat} {landing : Landing}

theorem queue_settle (b : Bulk) (at_ index : Nat) (landing : Landing) :
    (b.settle at_ index landing).queue = b.queue := by
  cases landing with
  | landed result => cases result <;> rfl
  | _ => rfl

theorem mem_settle {a : Admitted} (h : a ∈ (b.settle at_ index landing).admitted) :
    a ∈ b.admitted ∨ a = landing.admitted index := by
  cases landing with
  | flying f => exact List.mem_or_eq_of_mem_set h
  | crashed text => exact .inl (List.mem_of_mem_eraseIdx h)
  | landed result => cases result <;> exact List.mem_or_eq_of_mem_set h

/-- An upgrade that a step of the lead admits has its own time within the context of the rollout. -/
theorem mem_of_moved (h : b.leadStep fleet ctx now = .moved fleet' b') {a : Admitted}
    (ha : a ∈ b'.admitted) : a ∈ b.admitted ∨ ∃ index ∈ b.queue, ∃ inner,
      a = .queued index inner ∧ ctx.within? now fleet.config.actionTimeout = some inner := by
  cases leads_of_moved h with
  | @admits index rest inner hl hq =>
    rcases List.mem_append.mp ha with ha | ha
    · exact .inl ha
    · refine .inr ⟨index, hq ▸ List.mem_cons_self, inner, List.mem_singleton.mp ha, ?_⟩
      simp only [leadStep, hl, hq] at h
      cases hw : ctx.within? now fleet.config.actionTimeout with
      | none => rw [hw] at h; cases h
      | some inner' =>
        rw [hw, launch] at h
        injection h with _ hb
        injection hb with _ _ hadmitted
        have := List.append_cancel_left hadmitted
        injection this with hqueued
        injection hqueued with _ hinner
        rw [hinner]
  | _ => exact .inl ha

theorem mem_queue_of_leads (h : b.Leads fleet fleet' b') {i : Nat} (hi : i ∈ b'.queue) :
    i ∈ b.queue := by
  cases h with
  | admits _ _ hq => exact hq ▸ List.mem_cons_of_mem _ hi
  | _ => exact hi

/-- The upgrades after `k` canaries of a rollout within a context: those that are admitted have
their time within that context. -/
structure Trails (ctx : Context) (k : Nat) (b : Bulk) : Prop where
  queue : ∀ i ∈ b.queue, k ≤ i
  admitted : ∀ a ∈ b.admitted, k ≤ a.index
  inner : ∀ {i : Nat} {inner : Context}, .queued i inner ∈ b.admitted →
    ∃ deadline, inner = ctx.bounded deadline

namespace Trails

theorem start (fleet : Fleet) : (Bulk.start fleet).Trails ctx fleet.canaries where
  queue i hi := by
    obtain ⟨p, hp⟩ := List.getElem?_of_mem hi
    rw [Bulk.start, List.getElem?_drop] at hp
    obtain ⟨hlt, hp⟩ := List.getElem?_eq_some_iff.mp hp
    rw [List.getElem_range hlt] at hp
    omega
  admitted a ha := absurd ha List.not_mem_nil
  inner ha := absurd ha List.not_mem_nil

theorem lead (h : b.Trails ctx k) (hl : b.leadStep fleet ctx now = .moved fleet' b') :
    b'.Trails ctx k where
  queue i hi := h.queue i (mem_queue_of_leads (leads_of_moved hl) hi)
  admitted a ha := by
    rcases mem_of_moved hl ha with ha | ⟨index, hi, inner, rfl, -⟩
    · exact h.admitted a ha
    · exact h.queue index hi
  inner ha := by
    rcases mem_of_moved hl ha with ha | ⟨index, -, inner', he, hw⟩
    · exact h.inner ha
    · cases he
      obtain ⟨deadline, -, rfl⟩ := Option.map_eq_some_iff.mp hw
      exact ⟨deadline, rfl⟩

theorem settle (h : b.Trails ctx k) (hi : k ≤ index)
    (hl : (landing.admitted index).index = index) : (b.settle at_ index landing).Trails ctx k where
  queue i hi := h.queue i (by rwa [queue_settle] at hi)
  admitted a ha := by
    rcases mem_settle ha with ha | rfl
    · exact h.admitted a ha
    · rw [hl]; exact hi
  inner ha := by
    rcases mem_settle ha with ha | he
    · exact h.inner ha
    · exact absurd he.symm (landing.admitted_ne_queued)

theorem accounts (h : b.Trails ctx k) (ha : b.Accounts fleet fleet' b') : b'.Trails ctx k := by
  cases ha with
  | @counts at_ index failed ha =>
    have hi : k ≤ index := h.admitted _ (List.mem_of_getElem? ha)
    refine ⟨h.queue, fun a ha => ?_, fun ha => ?_⟩
    · rcases List.mem_or_eq_of_mem_set ha with ha | rfl
      · exact h.admitted a ha
      · exact hi
    · rcases List.mem_or_eq_of_mem_set ha with ha | he
      · exact h.inner ha
      · cases he
  | releases _ =>
    exact ⟨h.queue, fun a ha => h.admitted a (List.mem_of_mem_eraseIdx ha),
      fun ha => h.inner (List.mem_of_mem_eraseIdx ha)⟩

end Trails

/-- No upgrade is under way after one landed where none was. -/
theorem flights_settle (h : b.admitted.filterMap Admitted.flight? = [])
    {result : Except UpgradeError Unit} :
    (b.settle at_ index (.landed result)).admitted.filterMap Admitted.flight? = [] := by
  rw [List.filterMap_eq_nil_iff] at h ⊢
  intro a ha
  rcases mem_settle ha with ha | rfl
  · exact h a ha
  · rfl

theorem flights_accounts (h : b.admitted.filterMap Admitted.flight? = [])
    (ha : b.Accounts fleet fleet' b') : b'.admitted.filterMap Admitted.flight? = [] := by
  rw [List.filterMap_eq_nil_iff] at h ⊢
  intro a hmem
  cases ha with
  | counts _ =>
    rcases List.mem_or_eq_of_mem_set hmem with hmem | rfl
    · exact h a hmem
    · rfl
  | releases _ => exact h a (List.mem_of_mem_eraseIdx hmem)

theorem flights_lead (h : b.admitted.filterMap Admitted.flight? = [])
    (hl : b.leadStep fleet ctx now = .moved fleet' b') :
    b'.admitted.filterMap Admitted.flight? = [] := by
  rw [List.filterMap_eq_nil_iff] at h ⊢
  intro a ha
  rcases mem_of_moved hl ha with ha | ⟨index, -, inner, rfl, -⟩
  · exact h a ha
  · rfl

end Bulk

/-- What holds of a rollout past its `k` canaries in each phase. -/
def Phase.Trails (ctx : Context) (k : Nat) : Phase → Prop
  | rollout (.bulk b) => b.Trails ctx k
  | rollout (.ended _) | rollout (.crashed _) => True
  | _ => False

section Courses

variable {σ : Type} {env : Surroundings σ} {ctx : Context} {fleet₁ : Fleet} {x y z : Scene σ}
  {hs new : List Happening} {k : Nat}

theorem Scene.Acts.ne_retry (h : x.Acts env ctx new y) (hy : ∀ r, y.phase ≠ .retry r) :
    ∀ r, x.phase ≠ .retry r := by
  intro r hr
  cases h <;> first | exact hy _ rfl | cases hr

theorem Scene.Hears.ne_retry (h : x.Hears env ctx new y) (hy : ∀ r, y.phase ≠ .retry r) :
    ∀ r, x.phase ≠ .retry r := by
  intro r hr
  cases h <;> first | exact hy _ rfl | cases hr

/-- What happened to a rollout past its `k` canaries, which had come past them as `fleet₁`. -/
structure Trailing (ctx : Context) (k : Nat) (fleet₁ : Fleet) (hs : List Happening)
    (x : Scene σ) : Prop where
  phase : x.phase.Trails ctx k
  same : ∀ i < k, x.fleet.upgrade? i = fleet₁.upgrade? i
  index : ∀ y ∈ hs, ∀ i, y.index? = some i → k ≤ i

namespace Trailing

/-- A step that changes no upgrade, and in which nothing happens. -/
theorem keep (h : Trailing ctx k fleet₁ hs x) (hp : y.phase.Trails ctx k)
    (hf : ∀ i, y.fleet.upgrade? i = x.fleet.upgrade? i) :
    Trailing ctx k fleet₁ (hs ++ []) y where
  phase := hp
  same i hi := (hf i).trans (h.same i hi)
  index := by rw [List.append_nil]; exact h.index

/-- A step of the run of an upgrade. -/
theorem fly (h : Trailing ctx k fleet₁ hs x) {index : Nat} (hi : k ≤ index)
    (hp : y.phase.Trails ctx k)
    (hf : ∀ {i}, index ≠ i → y.fleet.upgrade? i = x.fleet.upgrade? i)
    (own : ∀ z ∈ new, z.index? = some index) : Trailing ctx k fleet₁ (hs ++ new) y where
  phase := hp
  same i hlt := (hf (Nat.ne_of_gt (Nat.lt_of_lt_of_le hlt hi))).trans (h.same i hlt)
  index z hz i hzi := by
    rcases List.mem_append.mp hz with hz | hz
    · exact h.index z hz i hzi
    · rw [own z hz] at hzi
      cases hzi
      exact hi

theorem acts (h : Trailing ctx k fleet₁ hs x) (ha : x.Acts env ctx new y)
    (hy : ∀ r, y.phase ≠ .retry r) : Trailing ctx k fleet₁ (hs ++ new) y := by
  cases ha with
  | start => exact h.phase.elim
  | canaryDue _ => exact h.phase.elim
  | lead hl =>
    refine h.keep (Bulk.Trails.lead h.phase hl) fun i => ?_
    exact congrArg (·[i]?) (Bulk.upgrades_of_leads (Bulk.leads_of_moved hl))
  | conclude hl =>
    obtain ⟨-, -, -, rfl, -⟩ := Bulk.conclude_of_ended hl
    exact h.keep trivial (Bulk.upgrade?_conclude _)
  | overflow hl =>
    obtain ⟨-, -, rfl⟩ := Bulk.overflow_of_overflowed hl
    exact h.keep trivial fun _ => rfl
  | takeOff ha _ =>
    have hi := h.phase.admitted _ (List.mem_of_getElem? ha)
    rw [Bulk.takeOff_eq ha]
    exact h.fly hi (h.phase.settle hi (Flight.admitted_start _ _ _ _ _))
      (fun hne => Flight.upgrade?_start hne _ _ _) (Flight.tells_start _ _ _ _ _).own
  | account ha hl =>
    refine h.keep (h.phase.accounts (Bulk.accounts ha hl)) fun i => ?_
    exact congrArg (·[i]?) (Bulk.upgrades_of_accounts (Bulk.accounts ha hl))
  | again _ _ _ => exact absurd rfl (hy _)
  | takeOffAgain _ _ => exact h.phase.elim
  | accountAgain _ _ => exact h.phase.elim

theorem hears (h : Trailing ctx k fleet₁ hs x) (hh : x.Hears env ctx new y) :
    Trailing ctx k fleet₁ (hs ++ new) y := by
  cases hh with
  | bulk ha _ =>
    have hi := h.phase.admitted _ (List.mem_of_getElem? ha)
    exact h.fly hi (h.phase.settle hi (Flight.admitted_resume _ _ _ _))
      (fun hne => Flight.upgrade?_resume hne _ _) (Flight.tells_resume _ _ _ _).own
  | _ => exact h.phase.elim

end Trailing

/-- What happens to a rollout past its canaries. -/
theorem Course.trailing (h : Course env ctx x hs y) (hx : x.phase.Trails ctx k)
    (hy : ∀ r, y.phase ≠ .retry r) : Trailing ctx k x.fleet hs y := by
  induction h with
  | here => exact ⟨hx, fun _ _ => rfl, fun _ h => absurd h List.not_mem_nil⟩
  | later _ _ ih =>
    obtain ⟨hp, hs, hi⟩ := ih hy
    exact ⟨hp, hs, hi⟩
  | act _ ha ih => exact (ih (ha.ne_retry hy)).acts ha hy
  | hear _ hh ih => exact (ih (hh.ne_retry hy)).hears hh

/-- A rollout past its canaries whose context has stopped: no upgrade is under way, and no call was
made. -/
structure Silent (env : Surroundings σ) (ctx : Context) (hs : List Happening) (x : Scene σ) :
    Prop where
  stopped : (ctx.stopped (env.moment x.around)).isSome
  flights : x.phase.flights = []
  calls : ∀ y ∈ hs, y.isCall = false

namespace Silent

theorem acts (h : Silent env ctx hs x) (hx : x.phase.Trails ctx k) (ha : x.Acts env ctx new y)
    (hy : ∀ r, y.phase ≠ .retry r) : Silent env ctx (hs ++ new) y := by
  have keep (hr : y.around = x.around) (hf : y.phase.flights = []) : Silent env ctx (hs ++ []) y :=
    ⟨by rw [hr]; exact h.stopped, hf, by rw [List.append_nil]; exact h.calls⟩
  cases ha with
  | start => exact hx.elim
  | canaryDue _ => exact hx.elim
  | lead hl => exact keep rfl (Bulk.flights_lead h.flights hl)
  | conclude _ => exact keep rfl rfl
  | overflow _ => exact keep rfl rfl
  | @takeOff s fleet b at_ index inner source ha _ =>
    obtain ⟨deadline, rfl⟩ := hx.inner (List.mem_of_getElem? ha)
    -- The upgrade's own context has stopped with that of the rollout.
    obtain ⟨⟨result, hr⟩, hcalls⟩ := Flight.start_stopped fleet index source
      (Context.isSome_stopped_bounded deadline h.stopped)
    rw [Bulk.takeOff_eq ha, hr]
    refine ⟨h.stopped, Bulk.flights_settle h.flights, fun z hz => ?_⟩
    rcases List.mem_append.mp hz with hz | hz
    · exact h.calls z hz
    · exact hcalls z hz
  | account ha hl => exact keep rfl (Bulk.flights_accounts h.flights (Bulk.accounts ha hl))
  | again _ _ _ => exact absurd rfl (hy _)
  | takeOffAgain _ _ => exact hx.elim
  | accountAgain _ _ => exact hx.elim

end Silent

/-- What happens to a rollout past its canaries whose context has stopped. -/
theorem Course.silent (timely : env.Timely) (h : Course env ctx x hs y)
    (hx : x.phase.Trails ctx k) (hy : ∀ r, y.phase ≠ .retry r)
    (hs' : (ctx.stopped (env.moment x.around)).isSome) (hf : x.phase.flights = []) :
    Silent env ctx hs y := by
  induction h with
  | here => exact ⟨hs', hf, fun _ h => absurd h List.not_mem_nil⟩
  | later _ hp ih =>
    obtain ⟨hstop, hflights, hcalls⟩ := ih hy
    exact ⟨Context.isSome_stopped_later (timely.passes hp) hstop, hflights, hcalls⟩
  | act h ha ih =>
    have hn := ha.ne_retry hy
    exact (ih hn).acts (h.trailing hx hn).phase ha hy
  | hear h hh ih =>
    -- Nothing is under way that could hear something.
    have hn := hh.ne_retry hy
    have hquiet := (ih hn).flights
    have htrails := (h.trailing hx hn).phase
    cases hh with
    | bulk ha _ =>
      cases List.filterMap_eq_nil_iff.mp hquiet _ (List.mem_of_getElem? ha)
    | _ => exact htrails.elim

end Courses

/-! ## The law -/

section Law

variable {σ : Type} {env : Surroundings σ} {ctx : Context} {c : Config} {timeouts : StageTimeouts}
  {fleet fleet₁ : Fleet} {s s₁ : σ} {x : Scene σ} {hs hs₁ hs₂ : List Happening}

theorem Waited.keeps (hk : fleet.Keeps fleet₁) (h : Waited env ctx fleet₁ hs s) :
    Waited env ctx fleet hs s := by
  unfold Waited Fleet.Cooled at h ⊢
  rwa [hk.canaries, hk.config] at h

/-- A rollout of `fleet` came past its canaries in the surroundings `s₁`, after `hs₁`, and what
happened since is `hs₂`: until then no other upgrade was admitted and nothing happened to any; the
canaries were done, the wait after them was over, and nothing happens to them any more. If its
context had stopped by then, no call is made any more. -/
structure CameBy (env : Surroundings σ) (ctx : Context) (fleet : Fleet) (s s₁ : σ)
    (hs₁ hs₂ : List Happening) (x : Scene σ) : Prop where
  course : ∃ fleet₁, fleet₁.admitted = 0 ∧
    Course env ctx ⟨s, fleet, .idle⟩ hs₁ ⟨s₁, fleet₁, .rollout (.bulk (.start fleet₁))⟩ ∧
    Course env ctx ⟨s₁, fleet₁, .rollout (.bulk (.start fleet₁))⟩ hs₂ x ∧
    ∀ i < fleet.canaries, x.fleet.upgrade? i = fleet₁.upgrade? i
  before : ∀ y ∈ hs₁, ∀ i, y.index? = some i → i < fleet.canaries
  done : ∀ i < fleet.canaries, ∃ u, x.fleet.upgrade? i = some u ∧ u.current = .done ∧ u.err = none
  waited : Waited env ctx fleet hs₁ s₁
  after : ∀ y ∈ hs₂, ∀ i, y.index? = some i → fleet.canaries ≤ i
  silent : (ctx.stopped (env.moment s₁)).isSome → ∀ y ∈ hs₂, y.isCall = false

theorem Turn.cameBy (timely : env.Timely) (ht : fleet₁.Trying fleet₁.canaries [])
    (hturn : Turn fleet fleet₁ hs₁ fleet₁.canaries fleet₁.canaries)
    (hw : Waited env ctx fleet₁ hs₁ s₁)
    (h₁ : Course env ctx ⟨s, fleet, .idle⟩ hs₁ ⟨s₁, fleet₁, .rollout (.bulk (.start fleet₁))⟩)
    (h₂ : Course env ctx ⟨s₁, fleet₁, .rollout (.bulk (.start fleet₁))⟩ hs₂ x)
    (hx : ∀ r, x.phase ≠ .retry r) : CameBy env ctx fleet s s₁ hs₁ hs₂ x := by
  have hk : fleet.Keeps fleet₁ := h₁.keeps
  have htrails : (Phase.rollout (.bulk (.start fleet₁))).Trails ctx fleet.canaries :=
    hk.canaries ▸ Bulk.Trails.start fleet₁
  have hrest := h₂.trailing htrails hx
  rw [hk.canaries] at hturn
  refine ⟨⟨fleet₁, ht.admitted, h₁, h₂, hrest.same⟩, hturn.below, fun i hi => ?_, hw.keeps hk,
    hrest.index, fun hstop => (h₂.silent timely htrails hx hstop rfl).calls⟩
  obtain ⟨u, hu, hdone, herr⟩ := hturn.done i hi
  exact ⟨u, (hrest.same i hi).trans hu, hdone, herr⟩

/-- Behind the canaries their turns stay as they were. -/
theorem InTurn.followed {k : Nat} (h : InTurn k hs₁)
    (hadded : ∀ i < k, ∃ y ∈ hs₁, y.Succeeds i .addToPool)
    (hafter : ∀ y ∈ hs₂, ∀ i, y.index? = some i → k ≤ i) : InTurn k (hs₁ ++ hs₂) where
  order := by
    have later {y : Happening} (hy : y ∈ hs₂) (z : Happening) : z.Before k y := by
      intro i j _ hj hlt
      have := hafter y hy j hj
      omega
    refine List.pairwise_append.mpr ⟨h.order, ?_, fun z _ y hy => later hy z⟩
    exact List.pairwise_of_forall_mem_list fun z _ y hy => later hy z
  added {p y j} hy hj i hik hij := by
    by_cases hp : p < hs₁.length
    · rw [List.getElem?_append_left hp] at hy
      obtain ⟨z, hz, ha⟩ := h.added hy hj i hik hij
      rw [List.take_append_of_le_length (Nat.le_of_lt hp)]
      exact ⟨z, hz, ha⟩
    · obtain ⟨z, hz, ha⟩ := hadded i hik
      rw [List.take_append, List.take_of_length_le (Nat.le_of_not_lt hp)]
      exact ⟨z, List.mem_append_left _ hz, ha⟩

/-- What a rollout has come to: its canaries are under way and none has failed, one has failed, or
it came past them. -/
theorem Leading.comes (hk : fleet.Keeps x.fleet) (hnew : fleet.IsNew)
    (h : Leading env ctx fleet s hs x) :
    (∃ low next, Turn fleet x.fleet hs low next ∧ next ≤ fleet.canaries ∧
      x.fleet.admitted = 0) ∨
    (∃ index endpoint e, CanaryFailed fleet x.fleet hs index endpoint e ∧
      x.phase = .rollout (.ended (.error (.canary endpoint e)))) ∨
    ∃ s₁ fleet₁ hs₁ hs₂, hs = hs₁ ++ hs₂ ∧ fleet₁.Trying fleet₁.canaries [] ∧
      Turn fleet fleet₁ hs₁ fleet₁.canaries fleet₁.canaries ∧ Waited env ctx fleet₁ hs₁ s₁ ∧
      Course env ctx ⟨s, fleet, .idle⟩ hs₁ ⟨s₁, fleet₁, .rollout (.bulk (.start fleet₁))⟩ ∧
      Course env ctx ⟨s₁, fleet₁, .rollout (.bulk (.start fleet₁))⟩ hs₂ x := by
  cases h with
  | idle =>
    have hnil : ∀ y ∈ ([] : List Happening), y.index? = none :=
      fun _ h => absurd h List.not_mem_nil
    exact .inl ⟨0, 0, .start hnil fun _ => rfl, Nat.zero_le _, hnew.admitted⟩
  | gate hn => exact .inl ⟨0, 0, .start hn fun _ => rfl, Nat.zero_le _, hnew.admitted⟩
  | refused hn => exact .inl ⟨0, 0, .start hn fun _ => rfl, Nat.zero_le _, hnew.admitted⟩
  | due ht hturn _ => exact .inl ⟨_, _, hturn, hk.canaries ▸ ht.le, ht.admitted⟩
  | flying ht hturn => exact .inl ⟨_, _, hturn, hk.canaries ▸ ht.le, ht.admitted⟩
  | crashed hturn hle ha => exact .inl ⟨_, _, hturn, hle, ha⟩
  | cooling ht hturn _ _ => exact .inl ⟨_, _, hturn, hk.canaries ▸ ht.le, ht.admitted⟩
  | failed hf => exact .inr (.inl ⟨_, _, _, hf, rfl⟩)
  | past ht hturn hw h₁ h₂ => exact .inr (.inr ⟨_, _, _, _, rfl, ht, hturn, hw, h₁, h₂⟩)

/-- **The canaries first.** The work of others may end in any way, and the context may stop at any
time. With `k` canaries, wherever a rollout comes to:

1. They take turns: nothing happens to a canary after its run returned or after something happened
   to a later upgrade, and nothing happens to an upgrade, and so it makes no call, before each
   canary before it heard that it is in its pool again.
2. Either no other upgrade was admitted and nothing happened to any, or the rollout came past its
   canaries: they are all done, and left alone from then on; and the wait after the last of them was
   over, or the context had stopped, in which case no call is made any more.
3. Where the run of a canary failed, the rollout ended with its endpoint and its error, no other
   upgrade was admitted and no failure is counted. The canary is the only failure, those before it
   are done, and those after it are untouched. -/
theorem canary_gate (hc : Fleet.ofConfig c timeouts = .ok fleet) (timely : env.Timely)
    (h : Course env ctx ⟨s, fleet, .idle⟩ hs x) (hx : ∀ r, x.phase ≠ .retry r) :
    fleet.canaries = min c.canaryNum.toNat c.backends.length ∧
    InTurn fleet.canaries hs ∧
    ((x.fleet.admitted = 0 ∧ ∀ y ∈ hs, ∀ i, y.index? = some i → i < fleet.canaries) ∨
      ∃ s₁ hs₁ hs₂, hs = hs₁ ++ hs₂ ∧ CameBy env ctx fleet s s₁ hs₁ hs₂ x) ∧
    ∀ m j e, .returned m j (.error e) ∈ hs → j < fleet.canaries →
      ∃ endpoint, c.backends[j]? = some endpoint ∧
        x.phase = .rollout (.ended (.error (.canary endpoint e))) ∧
        CanaryFailed fleet x.fleet hs j endpoint e := by
  obtain ⟨hconfig, -, hnew⟩ := Fleet.config_of_ofConfig hc
  have hcanaries : fleet.canaries = min c.canaryNum.toNat c.backends.length := by
    rw [Fleet.canaries, hconfig, Fleet.size, Fleet.length_mapM (Fleet.targets_of_ofConfig hc).2.2.2]
  refine ⟨hcanaries, ?_⟩
  rcases (h.leading timely hnew).comes h.keeps hnew with
    ⟨low, next, hturn, hle, ha⟩ | ⟨index, endpoint, e, hf, hp⟩ |
    ⟨s₁, fleet₁, hs₁, hs₂, rfl, ht, hturn, hw, h₁, h₂⟩
  · refine ⟨hturn.inTurn, .inl ⟨ha, fun y hy i hi => ?_⟩, fun m j e hr => ?_⟩
    · exact Nat.lt_of_lt_of_le (hturn.below y hy i hi) hle
    · cases (hturn.returned hr).2
  · refine ⟨hf.inTurn, .inl ⟨hf.admitted, fun y hy i hi => ?_⟩, fun m j e' hr hj => ?_⟩
    · by_contra hge
      exact (hf.later i (Nat.lt_of_lt_of_le hf.lt (Nat.le_of_not_lt hge))).2 y hy hi
    · obtain ⟨rfl, rfl⟩ := hf.returned hr
      obtain ⟨u, hu, rfl⟩ := hf.endpoint
      exact ⟨_, Fleet.endpoint_of_ofConfig hc hu, hp, hf⟩
  · have hk₁ : fleet.Keeps fleet₁ := h₁.keeps
    have hby := hturn.cameBy timely ht hw h₁ h₂ hx
    rw [hk₁.canaries] at hturn
    refine ⟨hturn.inTurn.followed hturn.added hby.after, .inr ⟨s₁, hs₁, hs₂, rfl, hby⟩,
      fun m j e hr hj => ?_⟩
    rcases List.mem_append.mp hr with hr | hr
    · cases (hturn.returned hr).2
    · exact absurd hj (Nat.not_lt.mpr (hby.after _ hr j rfl))

end Law

/-! ## A canary without a binary -/

/-- The two with ten minutes for an upgrade, the first of them a canary. -/
def canaryConfig : Config := { pairConfig with canaryNum := 1, actionTimeoutSecs := 600 }

/-- The fleet of the two. -/
def canaryFleet : Fleet := { pairFleet with config := canaryConfig }

/-- The two in their pool, at the start of the clock. -/
def canaryStart : Scene (Table × Moment) := ⟨pairStart.around, canaryFleet, .idle⟩

theorem ofConfig_canary : Fleet.ofConfig canaryConfig .standard = .ok canaryFleet := rfl

/-- The pool lets the rollout come to its canary, whose binary is missing. -/
theorem course_canary : ∃ hs fleet, Course .timed .background canaryStart hs
    ⟨pairStart.around, fleet,
      .rollout (.ended (.error (.canary "10.0.0.1:80" (.openSource "web" (.code 2)))))⟩ ∧
    .returned ⟨0, []⟩ 0 (.error (.openSource "web" (.code 2))) ∈ hs := by
  have start : Course .timed .background canaryStart _
      ⟨pairStart.around, canaryFleet, .rollout (.gate ⟨some 30000000000, none⟩)⟩ :=
    .act .here .start
  have health : Surroundings.timed.ends pairStart.around ⟨some 30000000000, none⟩
      (Run.gateCall canaryFleet) (.result (pairStart.around.1.health "/")) pairStart.around :=
    ⟨trivial, ⟨rfl, rfl⟩, .refl _, trivial⟩
  have due : Course .timed .background canaryStart _
      ⟨pairStart.around, canaryFleet, .rollout (.canaryDue 0)⟩ := start.hear (.gate health)
  have missing : Surroundings.timed.opens pairStart.around (.error (.code 2)) := trivial
  exact ⟨_, _, due.act (.canaryDue missing),
    List.mem_append_right _ (List.mem_cons_of_mem _ List.mem_cons_self)⟩

/-- The canary of the two fails, and the other is left alone. -/
theorem canary_gate_missing : ∃ hs x, Course .timed .background canaryStart hs x ∧
    x.phase = .rollout (.ended (.error (.canary "10.0.0.1:80" (.openSource "web" (.code 2))))) ∧
    x.fleet.endState = .canaryFailure ∧ x.fleet.failures.map (·.index) = [0] ∧
    x.fleet.upgrade? 1 = canaryFleet.upgrade? 1 ∧ ∀ y ∈ hs, y.index? ≠ some 1 := by
  obtain ⟨hs, fleet, course, returned⟩ := course_canary
  have law := canary_gate ofConfig_canary Surroundings.timed_timely course nofun
  obtain ⟨endpoint, he, hp, hf⟩ := law.2.2.2 _ 0 _ returned (by decide)
  exact ⟨hs, _, course, rfl, hf.endState, hf.failures, hf.later 1 (by decide)⟩

end Rollout
