import Mathlib.Algebra.Order.Ring.Nat
import Rollout.Proofs.Fleet.Prompt
import Rollout.Proofs.Time

/-!
# How long a rollout may take

- **Lengths** (`Fleet.untilCanary`, `Fleet.untilOthers`, `Fleet.untilAdmitted`): by when a rollout
  comes to each of its upgrades, counted from its start.
- **Permits** (`exists_early`): where all permits are taken, one of them is held by an upgrade that
  was admitted a whole round before.
- **The others** (`Bulk.InTime`): the upgrades after the canaries are admitted by their time, and
  the context of each ends by the time for its round.
- **Rollouts** (`Phase.InTime`): each phase is in time. `Scene.Goes.inTime` is a step of a rollout,
  and `Prompt.inTime` any course. So no run takes longer than its limit (`Prompt.paced`).
-/

namespace Rollout

/-! ## Lengths -/

namespace Fleet

/-- By when the canary at an index is due. -/
def untilCanary (f : Fleet) (index : Nat) : Nat :=
  f.config.preconditionTimeout.nanos + index * f.config.actionTimeout.nanos

/-- By when the canaries and the wait after them are over. -/
def untilOthers (f : Fleet) : Nat :=
  f.untilCanary f.canaries + if 0 < f.canaries then f.config.canaryCooldown.nanos else 0

/-- By when so many of the others are admitted and one more can be: each round takes the time of an
upgrade. -/
def untilAdmitted (f : Fleet) (count : Nat) : Nat :=
  f.untilOthers + count / f.capacity * f.config.actionTimeout.nanos

/-- By when the upgrade at an index after the canaries ends. -/
def untilEnded (f : Fleet) (index : Nat) : Nat :=
  f.untilAdmitted (index - f.canaries) + f.config.actionTimeout.nanos

variable {f : Fleet} {i j : Nat}

theorem longest_nanos (f : Fleet) :
    f.longest.nanos = f.untilOthers + f.rounds * f.config.actionTimeout.nanos := rfl

theorem untilCanary_succ (f : Fleet) (i : Nat) :
    f.untilCanary (i + 1) = f.untilCanary i + f.config.actionTimeout.nanos := by
  rw [untilCanary, untilCanary, Nat.succ_mul, Nat.add_assoc]

theorem untilCanary_mono (h : i ≤ j) : f.untilCanary i ≤ f.untilCanary j :=
  Nat.add_le_add_left (Nat.mul_le_mul_right _ h) _

theorem untilCanary_le_others (h : i ≤ f.canaries) : f.untilCanary i ≤ f.untilOthers :=
  Nat.le_trans (untilCanary_mono h) (Nat.le_add_right _ _)

theorem untilOthers_le_longest (f : Fleet) : f.untilOthers ≤ f.longest.nanos :=
  Nat.le_add_right _ _

theorem untilCanary_le_longest (h : i ≤ f.canaries) : f.untilCanary i ≤ f.longest.nanos :=
  Nat.le_trans (untilCanary_le_others h) f.untilOthers_le_longest

theorem untilAdmitted_zero (f : Fleet) : f.untilAdmitted 0 = f.untilOthers := by
  rw [untilAdmitted, Nat.zero_div, Nat.zero_mul, Nat.add_zero]

theorem untilAdmitted_mono (h : i ≤ j) : f.untilAdmitted i ≤ f.untilAdmitted j :=
  Nat.add_le_add_left (Nat.mul_le_mul_right _ (Nat.div_le_div_right h)) _

/-- One round later as many more are admitted as there are permits. -/
theorem untilAdmitted_add (h : 0 < f.capacity) (i : Nat) :
    f.untilAdmitted (i + f.capacity) = f.untilAdmitted i + f.config.actionTimeout.nanos := by
  rw [untilAdmitted, untilAdmitted, Nat.add_div_right _ h, Nat.succ_mul, Nat.add_assoc]

/-- The rounds are enough for each of the others to end. -/
theorem untilEnded_le_longest (hcap : f.canaries < f.size → 0 < f.capacity)
    (hle : f.canaries ≤ i) (h : i < f.size) : f.untilEnded i ≤ f.longest.nanos := by
  have hpos := hcap (Nat.lt_of_le_of_lt hle h)
  have hround : (i - f.canaries) / f.capacity + 1 ≤ f.rounds := by
    rw [rounds, if_neg (by omega), ← Nat.add_div_right _ hpos]
    exact Nat.div_le_div_right (by omega)
  rw [untilEnded, ← untilAdmitted_add hpos, longest_nanos, untilAdmitted, Nat.add_div_right _ hpos]
  exact Nat.add_le_add_left (Nat.mul_le_mul_right _ hround) _

theorem IsNew.capacity_pos (h : f.IsNew) (hlt : f.canaries < f.size) : 0 < f.capacity :=
  Nat.lt_min.mpr ⟨h.concurrency, Nat.sub_pos_of_lt hlt⟩

end Fleet

/-! ## Permits -/

/-- Among `n` different numbers below `high` there is one that is smaller by `n` at least. -/
theorem exists_early {l : List Nat} {n high : Nat} (hn : l.Nodup) (hlt : ∀ i ∈ l, i < high)
    (hpos : 0 < n) (hlen : n ≤ l.length) : ∃ i ∈ l, i + n ≤ high := by
  by_contra hlate
  have hsub : l ⊆ List.range' (high + 1 - n) (n - 1) := by
    intro i hi
    have hnot : ¬ i + n ≤ high := fun h => hlate ⟨i, hi, h⟩
    have := hlt i hi
    rw [List.mem_range'_1]
    omega
  have hle := (hn.subperm hsub).length_le
  rw [List.length_range'] at hle
  omega

/-! ## The others -/

/-- The context of an admitted upgrade that has not landed. -/
def Admitted.context? : Admitted → Option Context
  | queued _ ctx => some ctx
  | flying f => some f.ctx
  | _ => none

/-- The upgrades after the canaries of a rollout of `fleet₀` that began at `t₀`: they are admitted
in order and by their time, and none of them lasts longer than its round. -/
structure Bulk.InTime (fleet₀ : Fleet) (t₀ now : Instant) (fleet : Fleet) (b : Bulk) : Prop where
  queue : b.queue = (List.range fleet₀.size).drop (fleet₀.canaries + fleet.admitted)
  le : fleet₀.canaries + fleet.admitted ≤ fleet₀.size
  nodup : (b.admitted.map Admitted.index).Nodup
  range : ∀ a ∈ b.admitted, fleet₀.canaries ≤ a.index ∧
    a.index < fleet₀.canaries + fleet.admitted
  ends : ∀ a ∈ b.admitted, ∀ c, a.context? = some c → c.EndsBy (t₀ + fleet₀.untilEnded a.index)
  lead : b.lead ≠ .draining → now ≤ t₀ + fleet₀.untilAdmitted fleet.admitted
  now : now ≤ t₀ + fleet₀.longest.nanos
  stands : ∀ f, .flying f ∈ b.admitted → f.Stands fleet

namespace Bulk.InTime

variable {fleet₀ fleet fleet' : Fleet} {t₀ now : Instant} {b b' : Bulk} {ctx : Context}
  {at_ : Nat} {a a' : Admitted}

/-- The beginning, after the canaries. -/
theorem start (hk : fleet₀.Keeps fleet) (ha : fleet.admitted = 0)
    (hnow : now ≤ t₀ + fleet₀.untilOthers) :
    (Bulk.start fleet).InTime fleet₀ t₀ now fleet where
  queue := by rw [ha, ← hk.size, ← hk.canaries]; rfl
  le := by rw [ha]; exact fleet₀.canaries_le
  nodup := List.nodup_nil
  range a ha := absurd ha List.not_mem_nil
  ends a ha := absurd ha List.not_mem_nil
  lead _ := by rw [ha, Fleet.untilAdmitted_zero]; exact hnow
  now := Nat.le_trans hnow (Nat.add_le_add_left fleet₀.untilOthers_le_longest _)
  stands f hf := absurd hf List.not_mem_nil

theorem lt_size (h : b.InTime fleet₀ t₀ now fleet) (hq : b.queue ≠ []) :
    fleet₀.canaries + fleet.admitted < fleet₀.size := by
  by_contra hnot
  refine hq ?_
  rw [h.queue, List.drop_eq_nil_of_le]
  rw [List.length_range]
  omega

/-- An upgrade is admitted when all before it are, and has its time from then on. -/
theorem admits (h : b.InTime fleet₀ t₀ now fleet) {index : Nat} {rest : List Nat} {inner : Context}
    (hl : b.lead = .cleared) (hq : b.queue = index :: rest)
    (hends : inner.EndsBy (now + fleet₀.config.actionTimeout.nanos)) :
    InTime fleet₀ t₀ now { fleet with admitted := fleet.admitted + 1 }
      { b with
        lead := .seeking, queue := rest, admitted := b.admitted ++ [.queued index inner] } := by
  obtain ⟨rfl, hlt, hrest⟩ := drop_range_eq_cons (h.queue.symm.trans hq)
  have hnow := h.lead (by rw [hl]; exact nofun)
  have hnew : fleet₀.canaries + fleet.admitted ∉ b.admitted.map Admitted.index := fun hm => by
    obtain ⟨a, ha, hi⟩ := List.mem_map.mp hm
    have := (h.range a ha).2
    omega
  refine ⟨hrest, hlt, ?_, fun a ha => ?_, fun a ha c hc => ?_, fun _ => ?_, h.now, fun f hf => ?_⟩
  · rw [List.map_append]
    refine List.nodup_append.mpr ⟨h.nodup, List.nodup_singleton _, fun i hi j hj => ?_⟩
    rintro rfl
    rw [List.mem_singleton.mp hj] at hi
    exact hnew hi
  · show fleet₀.canaries ≤ a.index ∧ a.index < fleet₀.canaries + (fleet.admitted + 1)
    rcases List.mem_append.mp ha with ha | ha
    · have := h.range a ha
      omega
    · rw [List.mem_singleton.mp ha, Admitted.index]
      omega
  · rcases List.mem_append.mp ha with ha | ha
    · exact h.ends a ha c hc
    · obtain rfl := List.mem_singleton.mp ha
      cases hc
      refine hends.mono ?_
      rw [Admitted.index, Fleet.untilEnded, Nat.add_sub_cancel_left, ← Nat.add_assoc]
      exact Nat.add_le_add_right hnow _
  · exact Nat.le_trans hnow (Nat.add_le_add_left (Fleet.untilAdmitted_mono (Nat.le_succ _)) _)
  · rcases List.mem_append.mp hf with hf | hf
    · exact (h.stands f hf).keep rfl rfl
    · cases List.mem_singleton.mp hf

/-- A step of the lead. -/
theorem moved (h : b.InTime fleet₀ t₀ now fleet) (hk : fleet₀.Keeps fleet)
    (hl : b.leadStep fleet ctx now = .moved fleet' b') : b'.InTime fleet₀ t₀ now fleet' := by
  have hstands : ∀ f, .flying f ∈ b.admitted → f.Stands { fleet with
      failureCount := fleet.failureCount + 1 } := fun f hf => (h.stands f hf).keep rfl rfl
  have hmem := @Bulk.mem_of_moved _ _ _ _ _ _ hl
  cases leads_of_moved hl with
  | exhausts _ _ => exact ⟨h.queue, h.le, h.nodup, h.range, h.ends, nofun, h.now, h.stands⟩
  | takes hs _ =>
    exact ⟨h.queue, h.le, h.nodup, h.range, h.ends, fun _ => h.lead (by rw [hs]; exact nofun),
      h.now, h.stands⟩
  | stops _ _ => exact ⟨h.queue, h.le, h.nodup, h.range, h.ends, nofun, h.now, h.stands⟩
  | clears hs _ =>
    exact ⟨h.queue, h.le, h.nodup, h.range, h.ends, fun _ => h.lead (by rw [hs]; exact nofun),
      h.now, h.stands⟩
  | gathers _ _ => exact ⟨h.queue, h.le, h.nodup, h.range, h.ends, h.lead, h.now, hstands⟩
  | @admits index rest inner hs hq =>
    refine h.admits hs hq ?_
    rcases hmem (List.mem_append_right _ List.mem_cons_self) with ha | ⟨i, -, inner', he, hw⟩
    · -- The upgrade to be admitted is not among those that were.
      have hlt := (h.range _ ha).2
      obtain ⟨hi, -, -⟩ := drop_range_eq_cons (h.queue.symm.trans hq)
      exact absurd hlt (by rw [Admitted.index, hi]; exact Nat.lt_irrefl _)
    · cases he
      rw [← hk.config]
      exact Context.endsBy_of_within? hw

/-- An admitted upgrade goes on, and keeps its context. -/
theorem place (h : b.InTime fleet₀ t₀ now fleet) (ha : b.admitted[at_]? = some a)
    (hi : a'.index = a.index) (hc : ∀ c, a'.context? = some c → a.context? = some c)
    (hadmitted : fleet'.admitted = fleet.admitted) (hs : ∀ f, a' = .flying f → f.Stands fleet')
    (hothers : ∀ f, .flying f ∈ b.admitted → f.index ≠ a.index → f.Stands fleet') :
    (b.place at_ a').InTime fleet₀ t₀ now fleet' := by
  have hmem : a ∈ b.admitted := List.mem_of_getElem? ha
  refine ⟨by rw [hadmitted]; exact h.queue, by rw [hadmitted]; exact h.le,
    by rw [Bulk.place, map_key_set ha hi]; exact h.nodup, fun x hx => ?_, fun x hx c hxc => ?_, ?_,
    h.now, fun f hf => ?_⟩
  · rw [hadmitted]
    rcases (mem_set_iff h.nodup ha).mp hx with rfl | ⟨hx, -⟩
    · rw [hi]; exact h.range a hmem
    · exact h.range x hx
  · rcases (mem_set_iff h.nodup ha).mp hx with rfl | ⟨hx, -⟩
    · rw [hi]; exact h.ends a hmem c (hc c hxc)
    · exact h.ends x hx c hxc
  · rw [hadmitted]; exact h.lead
  · rcases (mem_set_iff h.nodup ha).mp hf with hf | ⟨hf, hne⟩
    · exact hs f hf.symm
    · exact hothers f hf hne

/-- The permit of an admitted upgrade becomes free. -/
theorem release (h : b.InTime fleet₀ t₀ now fleet) (ha : b.admitted[at_]? = some a)
    (hadmitted : fleet'.admitted = fleet.admitted)
    (hothers : ∀ f, .flying f ∈ b.admitted → f.index ≠ a.index → f.Stands fleet')
    (crashes : Nat) : InTime fleet₀ t₀ now fleet' { b.release at_ with crashes } := by
  have hmem {x : Admitted} (hx : x ∈ b.admitted.eraseIdx at_) :
      x ∈ b.admitted ∧ x.index ≠ a.index := (mem_eraseIdx_iff h.nodup ha).mp hx
  refine ⟨by rw [hadmitted]; exact h.queue, by rw [hadmitted]; exact h.le,
    h.nodup.sublist ((List.eraseIdx_sublist _ at_).map _), fun x hx => ?_,
    fun x hx => h.ends x (hmem hx).1, ?_, h.now, fun f hf => hothers f (hmem hf).1 (hmem hf).2⟩
  · rw [hadmitted]; exact h.range x (hmem hx).1
  · rw [hadmitted]; exact h.lead

/-- A step of the run of an admitted upgrade. -/
theorem settle (h : b.InTime fleet₀ t₀ now fleet) (ha : b.admitted[at_]? = some a) {m : Moment}
    {inner : Context} {new : List Happening} {x : Fleet × Landing} (hc : a.context? = some inner)
    (hx : Landing.From fleet m a.index inner new x) :
    (b.settle at_ a.index x.2).InTime fleet₀ t₀ now x.1 := by
  have hothers : ∀ f, .flying f ∈ b.admitted → f.index ≠ a.index → f.Stands x.1 :=
    fun f hf hne => (h.stands f hf).keep (hx.others (Ne.symm hne)) hx.keeps.timeouts
  cases hl : x.2 with
  | flying f =>
    obtain ⟨hi, hctx, hs⟩ := hx.flying f hl
    refine h.place ha hi (fun c hfc => ?_) hx.admitted (fun g hg => ?_) hothers
    · cases hfc; rw [hctx]; exact hc
    · cases hg; exact hs
  | landed r =>
    cases r <;> exact h.place ha rfl (fun _ hc => by cases hc) hx.admitted
      (fun _ hf => by cases hf) hothers
  | crashed text => exact h.release ha hx.admitted hothers _

/-- The account of an upgrade that landed. -/
theorem accounts (h : b.InTime fleet₀ t₀ now fleet) (ha : b.Accounts fleet fleet' b') :
    b'.InTime fleet₀ t₀ now fleet' := by
  cases ha with
  | counts ha =>
    exact h.place ha rfl (fun _ hc => by cases hc) rfl (fun _ hf => by cases hf)
      fun f hf _ => (h.stands f hf).keep rfl rfl
  | releases ha => exact h.release ha rfl (fun f hf _ => h.stands f hf) b.crashes

end Bulk.InTime

section Rests

variable {σ : Type} {env : Surroundings σ} {ctx : Context} {fleet₀ fleet : Fleet} {s s' : σ}
  {b : Bulk} {t₀ now : Instant}

/-- Where no step is possible, all upgrades that hold a permit are under way. -/
theorem Bulk.exists_flight_of_rest (live : env.Live)
    (hrest : ∀ new y, ¬ Scene.Acts env ctx ⟨s, fleet, .rollout (.bulk b)⟩ new y) {a : Admitted}
    (ha : a ∈ b.admitted) : ∃ f, a = .flying f := by
  obtain ⟨at_, hat⟩ := List.getElem?_of_mem ha
  cases a with
  | flying f => exact ⟨f, rfl⟩
  | queued index inner =>
    obtain ⟨source, hsource⟩ := live.opens s
    exact absurd (.takeOff hat hsource) (hrest _ _)
  | landed index failed => exact absurd (.account hat rfl) (hrest _ _)
  | counted index => exact absurd (.account hat rfl) (hrest _ _)

/-- Where no step is possible, the lead is blocked. -/
theorem Bulk.blocked_of_rest
    (hrest : ∀ new y, ¬ Scene.Acts env ctx ⟨s, fleet, .rollout (.bulk b)⟩ new y) :
    b.leadStep fleet ctx (env.moment s).now = .blocked := by
  cases hl : b.leadStep fleet ctx (env.moment s).now with
  | blocked => rfl
  | moved fleet' b' => exact absurd (.lead hl) (hrest _ _)
  | ended fleet' result => exact absurd (.conclude hl) (hrest _ _)
  | overflowed fleet' => exact absurd (.overflow hl) (hrest _ _)

/-- Time passes while the lead is blocked and all upgrades with a permit are under way. Where it
waits for a permit, one of them is of the round before. -/
theorem Bulk.InTime.rest (live : env.Live) (h : b.InTime fleet₀ t₀ (env.moment s).now fleet)
    (hk : fleet₀.Keeps fleet) (hcap : fleet₀.canaries < fleet₀.size → 0 < fleet₀.capacity)
    (hrest : ∀ new y, ¬ Scene.Acts env ctx ⟨s, fleet, .rollout (.bulk b)⟩ new y)
    (hwaits : ∀ w ∈ Scene.waits ctx ⟨s, fleet, .rollout (.bulk b)⟩, ∀ t,
      w.1.latest (env.moment s) w.2 = some t → (env.moment s').now ≤ t) :
    b.InTime fleet₀ t₀ (env.moment s').now fleet := by
  have last {a : Admitted} (ha : a ∈ b.admitted) :
      (env.moment s').now ≤ t₀ + fleet₀.untilEnded a.index := by
    obtain ⟨f, rfl⟩ := exists_flight_of_rest live hrest ha
    obtain ⟨t, ht, hle⟩ := (h.ends _ ha f.ctx rfl).exists_latest (env.moment s) f.wait
    have hf : f ∈ (Phase.rollout (.bulk b)).flights := List.mem_filterMap.mpr ⟨_, ha, rfl⟩
    exact Nat.le_trans (hwaits _ (Scene.mem_waits hf ctx s fleet) t ht) hle
  have hblocked := blocked_cases (blocked_of_rest hrest)
  have hpos (hq : b.queue ≠ []) : 0 < fleet₀.capacity :=
    hcap (Nat.lt_of_le_of_lt (Nat.le_add_right _ _) (h.lt_size hq))
  refine ⟨h.queue, h.le, h.nodup, h.range, h.ends, fun hl => ?_, ?_, h.stands⟩
  · rcases hblocked with ⟨-, hq, hlen⟩ | ⟨hd, -⟩
    · rw [hk.capacity] at hlen
      have hlt : ∀ i ∈ b.admitted.map Admitted.index, i < fleet₀.canaries + fleet.admitted := by
        intro i hi
        obtain ⟨a, ha, rfl⟩ := List.mem_map.mp hi
        exact (h.range a ha).2
      obtain ⟨i, hi, hearly⟩ :=
        exists_early h.nodup hlt (hpos hq) (by rwa [List.length_map])
      obtain ⟨a, ha, rfl⟩ := List.mem_map.mp hi
      have hle := (h.range a ha).1
      refine Nat.le_trans (last ha) (Nat.add_le_add_left ?_ _)
      rw [Fleet.untilEnded, ← Fleet.untilAdmitted_add (hpos hq)]
      exact Fleet.untilAdmitted_mono (by omega)
    · exact absurd hd hl
  · obtain ⟨a, ha⟩ : ∃ a, a ∈ b.admitted := by
      rcases hblocked with ⟨-, hq, hlen⟩ | ⟨-, hne⟩
      · rw [hk.capacity] at hlen
        exact List.exists_mem_of_length_pos (Nat.lt_of_lt_of_le (hpos hq) hlen)
      · exact List.exists_mem_of_ne_nil _ hne
    obtain ⟨hle, hlt⟩ := h.range a ha
    refine Nat.le_trans (last ha) (Nat.add_le_add_left ?_ _)
    exact Fleet.untilEnded_le_longest hcap hle (Nat.lt_of_lt_of_le hlt h.le)

end Rests

/-! ## Rollouts -/

/-- What is true in each phase of a rollout of `fleet₀` that began at `t₀`: it has come there by its
time, and what it waits for ends by the time for what is next. It crashes only where work does. -/
def Phase.InTime (calm : Prop) (fleet₀ : Fleet) (t₀ now : Instant) (fleet : Fleet) : Phase → Prop
  | idle => fleet.admitted = 0 ∧ now ≤ t₀
  | rollout (.gate inner) => fleet.admitted = 0 ∧ now ≤ t₀ + fleet₀.untilCanary 0 ∧
    inner.EndsBy (t₀ + fleet₀.untilCanary 0)
  | rollout (.canaryDue index) => fleet.admitted = 0 ∧ now ≤ t₀ + fleet₀.untilCanary index ∧
    index ≤ fleet₀.canaries
  | rollout (.canary f) => fleet.admitted = 0 ∧ now ≤ t₀ + fleet₀.untilCanary (f.index + 1) ∧
    f.ctx.EndsBy (t₀ + fleet₀.untilCanary (f.index + 1)) ∧ f.index < fleet₀.canaries ∧
    f.Stands fleet
  | rollout (.cooldown until_) => fleet.admitted = 0 ∧ now ≤ t₀ + fleet₀.untilOthers ∧
    until_ ≤ t₀ + fleet₀.untilOthers
  | rollout (.bulk b) => b.InTime fleet₀ t₀ now fleet
  | rollout (.ended _) => now ≤ t₀ + fleet₀.longest.nanos
  | rollout (.crashed _) => now ≤ t₀ + fleet₀.longest.nanos ∧ ¬ calm
  | retry _ => False

section Phases

variable {calm : Prop} {fleet₀ fleet : Fleet} {t₀ now : Instant} {m : Moment} {phase : Phase}
  {index : Nat} {inner : Context} {new : List Happening} {x : Fleet × Landing}

namespace Phase.InTime

theorem le_longest (h : phase.InTime calm fleet₀ t₀ now fleet) :
    now ≤ t₀ + fleet₀.longest.nanos := by
  have add {n : Nat} (hn : n ≤ fleet₀.longest.nanos) (h : now ≤ t₀ + n) :
      now ≤ t₀ + fleet₀.longest.nanos := Nat.le_trans h (Nat.add_le_add_left hn _)
  cases phase with
  | idle => exact Nat.le_trans h.2 (Nat.le_add_right _ _)
  | retry r => exact h.elim
  | rollout run =>
    cases run with
    | gate inner => exact add (Fleet.untilCanary_le_longest (Nat.zero_le _)) h.2.1
    | canaryDue index => exact add (Fleet.untilCanary_le_longest h.2.2) h.2.1
    | canary f => exact add (Fleet.untilCanary_le_longest h.2.2.2.1) h.2.1
    | cooldown until_ => exact add fleet₀.untilOthers_le_longest h.2.1
    | bulk b => exact Bulk.InTime.now h
    | ended result => exact h
    | crashed text => exact h.1

theorem stands (h : phase.InTime calm fleet₀ t₀ now fleet) :
    ∀ f ∈ phase.flights, f.Stands fleet := by
  intro f hf
  cases phase with
  | idle => cases hf
  | retry r => exact h.elim
  | rollout run =>
    cases run with
    | canary g =>
      obtain rfl := List.mem_singleton.mp hf
      exact h.2.2.2.2
    | bulk b =>
      obtain ⟨a, ha, haf⟩ := List.mem_filterMap.mp hf
      cases a <;> cases haf
      exact Bulk.InTime.stands h f ha
    | _ => cases hf

theorem not_crashed (h : phase.InTime calm fleet₀ t₀ now fleet) (hc : calm) :
    phase.hasCrashed = false := by
  cases phase with
  | rollout run =>
    cases run with
    | crashed text => exact absurd hc h.2
    | _ => rfl
  | _ => rfl

/-- The pool is asked for within its limit. -/
theorem start (hk : fleet₀.Keeps fleet) (hclock : t₀.Shows fleet₀.longest)
    (h : Phase.idle.InTime calm fleet₀ t₀ m.now fleet) (ctx : Context) :
    (Phase.rollout (Run.start fleet ctx m).2).InTime calm fleet₀ t₀ m.now
      (Run.start fleet ctx m).1 := by
  obtain ⟨ha, hnow⟩ := h
  have hcheck : m.now + fleet.config.preconditionTimeout.nanos ≤ t₀ + fleet₀.untilCanary 0 := by
    rw [hk.config, Fleet.untilCanary, Nat.zero_mul, Nat.add_zero]
    exact Nat.add_le_add_right hnow _
  have hlate : m.now ≤ t₀ + fleet₀.untilCanary 0 := Nat.le_trans (Nat.le_add_right _ _) hcheck
  have hle : fleet₀.untilCanary 0 ≤ fleet₀.longest.nanos :=
    Fleet.untilCanary_le_longest (Nat.zero_le _)
  have hs := Run.starts fleet ctx m
  generalize Run.start fleet ctx m = x at hs ⊢
  cases hs with
  | overflows hw =>
    refine absurd (hclock.before ?_) (Context.not_shows_of_within? hw)
    exact Nat.le_trans hcheck (Nat.add_le_add_left hle _)
  | halts _ _ => exact Nat.le_trans hlate (Nat.add_le_add_left hle _)
  | asks hw _ => exact ⟨ha, hlate, (Context.endsBy_of_within? hw).mono hcheck⟩

/-- The check of the pool is over by its time. -/
theorem gateAnswered (h : (Phase.rollout (.gate inner)).InTime calm fleet₀ t₀ now fleet)
    {e : Event (Run.gateCall fleet)} (he : calm → e.IsCalm) :
    (Phase.rollout (Run.gateAnswered fleet e).2).InTime calm fleet₀ t₀ now
      (Run.gateAnswered fleet e).1 := by
  have hlate := h.le_longest
  obtain ⟨ha, hnow, -⟩ := h
  have hanswers := Run.answers fleet e
  generalize Run.gateAnswered fleet e = x at hanswers ⊢
  cases hanswers with
  | admits _ => exact ⟨ha, hnow, Nat.zero_le _⟩
  | denies _ => exact hlate
  | halts => exact hlate
  | crashes => exact ⟨hlate, he⟩

/-- A step of the run of the canary at an index. -/
theorem landed (hx : Landing.From fleet m index inner new x) (ha : fleet.admitted = 0)
    (hlt : index < fleet₀.canaries) (hnow : now ≤ t₀ + fleet₀.untilCanary (index + 1))
    (hends : inner.EndsBy (t₀ + fleet₀.untilCanary (index + 1)))
    (hcalm : calm → ∀ text, x.2 ≠ .crashed text) :
    (Phase.rollout (Run.canaryLanded index x).2).InTime calm fleet₀ t₀ now
      (Run.canaryLanded index x).1 := by
  have hadmitted := hx.admitted.trans ha
  have hlate := Nat.le_trans hnow
    (Nat.add_le_add_left (Fleet.untilCanary_le_longest hlt) t₀)
  obtain ⟨fleet', landing⟩ := x
  cases landing with
  | flying f =>
    obtain ⟨rfl, rfl, hs⟩ := hx.flying f rfl
    exact ⟨hadmitted, hnow, hends, hlt, hs⟩
  | landed r =>
    cases r with
    | ok a => exact ⟨hadmitted, hnow, hlt⟩
    | error e => exact hlate
  | crashed text => exact ⟨hlate, fun h => hcalm h text rfl⟩

/-- The wait after the canaries is over by its time. -/
theorem cooldown (hk : fleet₀.Keeps fleet) (hclock : t₀.Shows fleet₀.longest)
    (ha : fleet.admitted = 0) (hpos : 0 < fleet₀.canaries)
    (hnow : now ≤ t₀ + fleet₀.untilCanary fleet₀.canaries) :
    (Phase.rollout (.cooldown (now.wakeAfter fleet.config.canaryCooldown))).InTime
      calm fleet₀ t₀ now fleet := by
  have hlate : now ≤ t₀ + fleet₀.untilOthers :=
    Nat.le_trans hnow (Nat.add_le_add_left (Fleet.untilCanary_le_others (Nat.le_refl _)) _)
  have hpause : now + fleet.config.canaryCooldown.nanos ≤ t₀ + fleet₀.untilOthers := by
    rw [hk.config, Fleet.untilOthers, if_pos hpos, ← Nat.add_assoc]
    exact Nat.add_le_add_right hnow _
  have hshows : now.Shows fleet.config.canaryCooldown :=
    hclock.before (Nat.le_trans hpause (Nat.add_le_add_left fleet₀.untilOthers_le_longest _))
  refine ⟨ha, hlate, ?_⟩
  rw [hshows.wakeAfter]
  exact hpause

/-- A canary that is due gets its time, and when there is none any more all have had theirs. -/
theorem nextCanary (hk : fleet₀.Keeps fleet) (hclock : t₀.Shows fleet₀.longest)
    (h : (Phase.rollout (.canaryDue index)).InTime calm fleet₀ t₀ m.now fleet)
    (ctx : Context) (source : Except IoError Entry) :
    (Phase.rollout (Run.nextCanary fleet ctx source m index).2).InTime calm fleet₀ t₀ m.now
      (Run.nextCanary fleet ctx source m index).1 := by
  obtain ⟨ha, hnow, hle⟩ := h
  have hrun : m.now + fleet.config.actionTimeout.nanos ≤
      t₀ + fleet₀.untilCanary (index + 1) := by
    rw [hk.config, Fleet.untilCanary_succ, ← Nat.add_assoc]
    exact Nat.add_le_add_right hnow _
  have hn := Run.nexts fleet ctx source m index
  generalize Run.canaryHappenings fleet ctx source m index = seen,
    Run.nextCanary fleet ctx source m index = x at hn ⊢
  cases hn with
  | overflows hlt hw =>
    rw [hk.canaries] at hlt
    refine absurd (hclock.before ?_) (Context.not_shows_of_within? hw)
    exact Nat.le_trans hrun (Nat.add_le_add_left (Fleet.untilCanary_le_longest hlt) _)
  | @begins inner hlt hw =>
    rw [hk.canaries] at hlt
    exact landed (Flight.from_start fleet index inner source m) ha hlt
      (Nat.le_trans (Nat.le_add_right _ _) hrun) ((Context.endsBy_of_within? hw).mono hrun)
      fun _ _ => Flight.start_ne_crashed
  | skips hall _ =>
    rw [hk.canaries] at hall
    obtain rfl := Nat.le_antisymm hle hall
    exact Bulk.InTime.start hk ha (Nat.le_trans hnow
      (Nat.add_le_add_left (Fleet.untilCanary_le_others (Nat.le_refl _)) _))
  | rests hall hpos _ =>
    rw [hk.canaries] at hall hpos
    obtain rfl := Nat.le_antisymm hle hall
    exact cooldown hk hclock ha hpos hnow

end Phase.InTime

end Phases

section Steps

variable {σ : Type} {env : Surroundings σ} {ctx : Context} {fleet₀ fleet : Fleet} {t₀ : Instant}
  {phase : Phase} {x y : Scene σ} {s s' : σ} {hs new : List Happening}

/-- There is time for one more upgrade wherever there is one. -/
theorem Bulk.InTime.shows {b : Bulk} {now : Instant} (h : b.InTime fleet₀ t₀ now fleet)
    (hk : fleet₀.Keeps fleet) (hcap : fleet₀.canaries < fleet₀.size → 0 < fleet₀.capacity)
    (hclock : t₀.Shows fleet₀.longest) (hl : b.lead = .cleared) (hq : b.queue ≠ []) :
    now.Shows fleet.config.actionTimeout := by
  have hnow := h.lead (by rw [hl]; exact nofun)
  have hended := Fleet.untilEnded_le_longest hcap (Nat.le_add_right _ fleet.admitted) (h.lt_size hq)
  rw [Fleet.untilEnded, Nat.add_sub_cancel_left] at hended
  refine hclock.before (Nat.le_trans ?_ (Nat.add_le_add_left hended _))
  rw [hk.config, ← Nat.add_assoc]
  exact Nat.add_le_add_right hnow _

/-- A step that the rollout takes by itself. -/
theorem Scene.Acts.inTime (h : x.Acts env ctx new y) (hu : x.phase.isUnderWay = true)
    (hk : fleet₀.Keeps x.fleet) (hcap : fleet₀.canaries < fleet₀.size → 0 < fleet₀.capacity)
    (hclock : t₀.Shows fleet₀.longest)
    (ht : x.phase.InTime env.Calm fleet₀ t₀ (env.moment x.around).now x.fleet) :
    y.phase.InTime env.Calm fleet₀ t₀ (env.moment x.around).now y.fleet := by
  cases h with
  | start =>
    rw [Scene.ofRun_fleet, Scene.ofRun_phase]
    exact .start hk hclock ht ctx
  | canaryDue _ => exact .nextCanary hk hclock ht ctx _
  | lead hl => exact Bulk.InTime.moved ht hk hl
  | conclude _ => exact Bulk.InTime.now ht
  | @overflow s fleet fleet' b hl =>
    obtain ⟨hlead, hw, -⟩ := Bulk.overflow_of_overflowed hl
    have hq : b.queue ≠ [] := fun hq => by simp only [Bulk.leadStep, hlead, hq, reduceCtorEq] at hl
    exact absurd (Bulk.InTime.shows ht hk hcap hclock hlead hq) (Context.not_shows_of_within? hw)
  | @takeOff s fleet b at_ index inner source ha _ =>
    rw [Bulk.takeOff_eq ha]
    exact Bulk.InTime.settle ht ha rfl (Flight.from_start fleet index inner source _)
  | account ha hl => exact Bulk.InTime.accounts ht (Bulk.accounts ha hl)
  | again hover _ _ => rw [Phase.isOver_of_isUnderWay hu] at hover; cases hover
  | takeOffAgain _ _ => cases hu
  | accountAgain _ _ => cases hu

/-- A step in which a wait ends. -/
theorem Scene.Hears.inTime (h : x.Hears env ctx new y) (hu : x.phase.isUnderWay = true)
    (hk : fleet₀.Keeps x.fleet)
    (ht : x.phase.InTime env.Calm fleet₀ t₀ (env.moment x.around).now x.fleet) :
    y.phase.InTime env.Calm fleet₀ t₀ (env.moment x.around).now y.fleet := by
  cases h with
  | gate he => exact .gateAnswered ht fun calm => calm he
  | @canary s s' fleet f e he =>
    obtain ⟨ha, hnow, hends, hlt, hs⟩ := ht
    exact .landed (Flight.from_resume hs (env.moment s') e) ha hlt hnow hends
      fun calm _ => Flight.resume_ne_crashed hs (calm he)
  | cooldown _ => exact Bulk.InTime.start hk ht.1 ht.2.1
  | @bulk s s' fleet b at_ f e ha he =>
    have hs := Bulk.InTime.stands ht f (List.mem_of_getElem? ha)
    exact Bulk.InTime.settle ht ha rfl (Flight.from_resume hs (env.moment s') e)
  | retry _ _ => cases hu

/-- Time passes while all waits last. -/
theorem Phase.InTime.rest (live : env.Live) (hk : fleet₀.Keeps fleet)
    (hcap : fleet₀.canaries < fleet₀.size → 0 < fleet₀.capacity)
    (hu : phase.isUnderWay = true)
    (h : phase.InTime env.Calm fleet₀ t₀ (env.moment s).now fleet)
    (hrest : ∀ new y, ¬ Scene.Acts env ctx ⟨s, fleet, phase⟩ new y)
    (hwaits : ∀ w ∈ Scene.waits ctx ⟨s, fleet, phase⟩, ∀ t,
      w.1.latest (env.moment s) w.2 = some t → (env.moment s').now ≤ t) :
    phase.InTime env.Calm fleet₀ t₀ (env.moment s').now fleet := by
  cases phase with
  | idle => exact absurd .start (hrest _ _)
  | retry r => cases hu
  | rollout run =>
    cases run with
    | gate inner =>
      obtain ⟨ha, -, hends⟩ := h
      obtain ⟨t, ht, hle⟩ := hends.exists_latest (env.moment s) (Run.gateCall fleet)
      exact ⟨ha, Nat.le_trans (hwaits _ List.mem_cons_self t ht) hle, hends⟩
    | canaryDue index =>
      obtain ⟨source, hsource⟩ := live.opens s
      exact absurd (.canaryDue hsource) (hrest _ _)
    | canary f =>
      obtain ⟨ha, -, hends, hlt, hs⟩ := h
      obtain ⟨t, ht, hle⟩ := hends.exists_latest (env.moment s) f.wait
      have hf : f ∈ (Phase.rollout (.canary f)).flights := List.mem_cons_self
      exact ⟨ha, Nat.le_trans (hwaits _ (Scene.mem_waits hf ctx s fleet) t ht) hle, hends, hlt, hs⟩
    | cooldown until_ =>
      obtain ⟨ha, hnow, huntil⟩ := h
      obtain ⟨t, ht, hle⟩ := ctx.exists_latest_pause (env.moment s) until_
      refine ⟨ha, ?_, huntil⟩
      exact Nat.le_trans (hwaits _ List.mem_cons_self t ht)
        (Nat.le_trans hle (Nat.max_le.mpr ⟨hnow, huntil⟩))
    | bulk b => exact Bulk.InTime.rest live h hk hcap hrest hwaits
    | ended result => cases hu
    | crashed text => cases hu

/-- A step of a rollout keeps it in time. -/
theorem Scene.Goes.inTime (h : x.Goes env ctx new y) (live : env.Live)
    (hk : fleet₀.Keeps x.fleet) (hcap : fleet₀.canaries < fleet₀.size → 0 < fleet₀.capacity)
    (hclock : t₀.Shows fleet₀.longest)
    (ht : x.phase.InTime env.Calm fleet₀ t₀ (env.moment x.around).now x.fleet) :
    y.phase.InTime env.Calm fleet₀ t₀ (env.moment y.around).now y.fleet := by
  cases h with
  | @acts s s' fleet phase new y hu hturns ha =>
    have hnow := hturns.now_eq
    rw [ha.around]
    exact ha.inTime hu hk hcap hclock (hnow ▸ ht)
  | hears hu hh hnow =>
    rw [hnow]
    exact hh.inTime hu hk ht
  | rests hu hrest hpass hlt hwaits => exact ht.rest live hk hcap hu hrest hwaits

theorem Scene.Goes.keeps (h : x.Goes env ctx new y) : x.fleet.Keeps y.fleet := by
  cases h with
  | acts _ _ ha => exact ha.keeps
  | hears _ hh _ => exact hh.keeps
  | rests _ _ _ _ _ => exact .refl _

theorem Prompt.keeps (h : Prompt env ctx x hs y) : x.fleet.Keeps y.fleet := by
  induction h with
  | here => exact .refl _
  | step _ hg ih => exact ih.trans hg.keeps

/-- Wherever a rollout comes to, it is in time. -/
theorem Prompt.inTime (h : Prompt env ctx ⟨s, fleet, .idle⟩ hs y) (live : env.Live)
    (hnew : fleet.IsNew) (hclock : (env.moment s).now.Shows fleet.longest) :
    y.phase.InTime env.Calm fleet (env.moment s).now (env.moment y.around).now y.fleet := by
  induction h with
  | here => exact ⟨hnew.admitted, Nat.le_refl _⟩
  | step hp hg ih => exact hg.inTime live hp.keeps hnew.capacity_pos hclock ih

/-- Wherever a rollout comes to, none of its runs has taken longer than its limit. -/
theorem Prompt.paced (h : Prompt env ctx ⟨s, fleet, .idle⟩ hs y) (live : env.Live)
    (hnew : fleet.IsNew) (hclock : (env.moment s).now.Shows fleet.longest) :
    y.phase.Paced env fleet.config.actionTimeout (env.moment y.around).now hs := by
  induction h with
  | here => exact .start rfl rfl
  | @step hs new y z hp hg ih =>
    have ht := hp.inTime live hnew hclock
    have ht' := (hp.step hg).inTime live hnew hclock
    rw [← hp.keeps.config] at ih ⊢
    exact hg.paced live ih ht.stands ht'.not_crashed

end Steps

end Rollout
