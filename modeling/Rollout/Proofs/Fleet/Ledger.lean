import Rollout.Proofs.Fleet.Order

/-!
# What happened and who is where

The happenings of a rollout agree with its fleet.

* **Entries and returns** (`entries`, `returns`): the upgrades whose runs were entered, and how runs
  returned.
* **A step of a run** (`Tells`): what its happenings say, for the upgrade at one index.
* **The ledger** (`Ledger`): the runs entered and the upgrades waiting for theirs are those that
  should be, each once; the runs that returned and those under way are the runs entered; and an
  upgrade whose run was not entered is as it was. `Ledger.fly` is a step of a run, `Ledger.queue`
  one more upgrade that waits.
-/

namespace Rollout

/-! ## Entries and returns -/

/-- The upgrades whose runs were entered, in the order of time. -/
def entries (hs : List Happening) : List Nat := hs.filterMap Happening.entered?

/-- The runs that returned, and what they returned. -/
def returns (hs : List Happening) : List (Nat × Except UpgradeError Unit) :=
  hs.filterMap Happening.returned?

/-- How many runs of the upgrades from an index on returned an error. -/
def failedRuns (low : Nat) (hs : List Happening) : Nat :=
  (returns hs).countP fun x => decide (low ≤ x.1) && !x.2.isOk

theorem entries_append (hs hs' : List Happening) :
    entries (hs ++ hs') = entries hs ++ entries hs' := List.filterMap_append

theorem returns_append (hs hs' : List Happening) :
    returns (hs ++ hs') = returns hs ++ returns hs' := List.filterMap_append

theorem failedRuns_append (low : Nat) (hs hs' : List Happening) :
    failedRuns low (hs ++ hs') = failedRuns low hs + failedRuns low hs' := by
  rw [failedRuns, returns_append, List.countP_append]; rfl

/-- What a landing returns. -/
def Landing.returns (index : Nat) : Landing → List (Nat × Except UpgradeError Unit)
  | .landed result => [(index, result)]
  | _ => []

/-- The happenings of a step of the run of the upgrade at an index: it is entered or not, and this
is its landing. -/
structure Tells (hs : List Happening) (index : Nat) (entered : List Nat) (landing : Landing) :
    Prop where
  entered : entries hs = entered
  returned : returns hs = landing.returns index
  own : ∀ h ∈ hs, h.index? = some index

namespace Landing

theorem tells_happenings (m : Moment) (index : Nat) (landing : Landing) :
    Tells (landing.happenings m index) index [] landing := by
  cases landing with
  | landed result => exact ⟨rfl, rfl, fun h hm => List.mem_singleton.mp hm ▸ rfl⟩
  | _ => exact ⟨rfl, rfl, fun h hm => absurd hm List.not_mem_nil⟩

end Landing

theorem entries_deeds (m : Moment) (index : Nat) (deeds : List Deed) :
    entries (deeds.map (.did m index)) = [] := by
  induction deeds with
  | nil => rfl
  | cons d rest ih => exact ih

theorem returns_deeds (m : Moment) (index : Nat) (deeds : List Deed) :
    returns (deeds.map (.did m index)) = [] := by
  induction deeds with
  | nil => rfl
  | cons d rest ih => exact ih

/-- The deeds of a run before its landing. -/
theorem Tells.deeds {m : Moment} {index : Nat} {hs : List Happening} {entered : List Nat}
    {landing : Landing} (h : Tells hs index entered landing) (deeds : List Deed) :
    Tells (deeds.map (.did m index) ++ hs) index entered landing where
  entered := by rw [entries_append, entries_deeds]; exact h.entered
  returned := by rw [returns_append, returns_deeds]; exact h.returned
  own x hx := by
    rcases List.mem_append.mp hx with hx | hx
    · obtain ⟨d, -, rfl⟩ := List.mem_map.mp hx
      rfl
    · exact h.own x hx

namespace Flight

theorem tells_start (fleet : Fleet) (index : Nat) (ctx : Context) (source : Except IoError Entry)
    (m : Moment) :
    Tells (startHappenings fleet index ctx source m) index [index]
      (start fleet index ctx source m).2 := by
  unfold startHappenings
  have h (deeds : List Deed) := (Landing.tells_happenings m index
    (start fleet index ctx source m).2).deeds (m := m) deeds
  refine ⟨?_, ?_, fun x hx => ?_⟩
  · exact congrArg (index :: ·) (h _).entered
  · exact (h _).returned
  · rcases List.mem_cons.mp hx with rfl | hx
    · rfl
    · exact (h _).own x hx

theorem tells_resume (fleet : Fleet) (f : Flight) (m : Moment) (e : Event f.wait) :
    Tells (f.resumeHappenings fleet m e) f.index [] (f.resume fleet m e).2 :=
  (Landing.tells_happenings m f.index _).deeds _

end Flight

/-! ## The ledger -/

/-- The happenings so far of a fleet that was `fleet₀`: the upgrades of `all` are those whose runs
were entered and those that wait; `flying` are those under way. -/
structure Ledger (fleet₀ fleet : Fleet) (hs : List Happening) (all queued flying : List Nat) :
    Prop where
  distinct : all.Nodup
  entered : (entries hs ++ queued).Perm all
  returned : ((returns hs).map Prod.fst ++ flying).Perm (entries hs)
  err : ∀ {i : Nat} {result : Except UpgradeError Unit}, (i, result) ∈ returns hs →
    ∃ u, fleet.upgrade? i = some u ∧ u.err.isSome = !result.isOk
  untouched : ∀ {i : Nat}, i ∉ entries hs →
    fleet.upgrade? i = fleet₀.upgrade? i ∧ ∀ h ∈ hs, h.index? ≠ some i

namespace Ledger

variable {fleet₀ fleet : Fleet} {hs new : List Happening} {base index : Nat}
  {all queued queued' flying flying' entered : List Nat}

theorem none (fleet : Fleet) (hs : List Happening) (h : ∀ x ∈ hs, x.index? = Option.none) :
    Ledger fleet fleet hs [] [] [] := by
  have he : entries hs = [] := List.filterMap_eq_nil_iff.mpr fun x hx => by
    have := h x hx
    cases x <;> first | rfl | cases this
  have hr : returns hs = [] := List.filterMap_eq_nil_iff.mpr fun x hx => by
    have := h x hx
    cases x <;> first | rfl | cases this
  refine ⟨List.nodup_nil, by rw [he]; rfl, by rw [he, hr]; rfl, fun hm => ?_,
    fun _ => ⟨rfl, fun x hx hi => ?_⟩⟩
  · rw [hr] at hm; cases hm
  · rw [h x hx] at hi; cases hi

/-- The upgrades do not change. -/
theorem keep (h : Ledger fleet₀ fleet hs all queued flying) {fleet' : Fleet}
    (hf : ∀ i, fleet'.upgrade? i = fleet.upgrade? i) :
    Ledger fleet₀ fleet' hs all queued flying :=
  ⟨h.distinct, h.entered, h.returned, fun hm => by rw [hf]; exact h.err hm,
    fun hi => by rw [hf]; exact h.untouched hi⟩

/-- One more upgrade waits for its run. -/
theorem queue (h : Ledger fleet₀ fleet hs (List.range base) queued flying) :
    Ledger fleet₀ fleet hs (List.range (base + 1)) (queued ++ [base]) flying where
  distinct := List.nodup_range
  entered := by
    rw [← List.append_assoc, List.range_succ]
    exact h.entered.append_right [base]
  returned := h.returned
  err := h.err
  untouched := h.untouched

theorem nodup (h : Ledger fleet₀ fleet hs all queued flying) : (entries hs ++ queued).Nodup :=
  h.entered.nodup_iff.mpr h.distinct

/-- A run that is under way, or entered now, has not returned. -/
theorem not_returned (h : Ledger fleet₀ fleet hs all queued flying)
    (hq : (entered ++ queued').Perm queued) {i : Nat} (hi : i ∈ entered ++ flying) :
    i ∉ (returns hs).map Prod.fst ∧ i ∈ entries hs ++ entered := by
  have hn := h.nodup
  rw [List.nodup_append] at hn
  have hr : ((returns hs).map Prod.fst ++ flying).Nodup := h.returned.nodup_iff.mpr hn.1
  rw [List.nodup_append] at hr
  rcases List.mem_append.mp hi with hi | hi
  · have hiq : i ∈ queued := hq.mem_iff.mp (List.mem_append_left _ hi)
    refine ⟨fun hm => ?_, List.mem_append_right _ hi⟩
    exact hn.2.2 i (h.returned.mem_iff.mp (List.mem_append_left _ hm)) i hiq rfl
  · refine ⟨fun hm => hr.2.2 i hm i hi rfl, List.mem_append_left _ ?_⟩
    exact h.returned.mem_iff.mp (List.mem_append_right _ hi)

/-- A step of the run of the upgrade at an index. -/
theorem fly (h : Ledger fleet₀ fleet hs all queued flying) {landing : Landing}
    (ht : Tells new index entered landing) (hi : index ∈ entered ++ flying)
    (hq : (entered ++ queued').Perm queued)
    (hf : ((landing.returns index).map Prod.fst ++ flying').Perm (entered ++ flying))
    {u v : Upgrade} (hu : fleet.upgrade? index = some u)
    (hs' : landing.Suits fleet.config index u v) :
    Ledger fleet₀ (fleet.put index v) (hs ++ new) all queued' flying' := by
  obtain ⟨hnot, hin⟩ := h.not_returned hq hi
  refine ⟨h.distinct, ?_, ?_, fun {i result} hm => ?_, fun {i} hi => ?_⟩
  · rw [entries_append, ht.entered, List.append_assoc]
    exact (hq.append_left _).trans h.entered
  · rw [returns_append, entries_append, ht.entered, ht.returned, List.map_append,
      List.append_assoc]
    have hswap : ((returns hs).map Prod.fst ++ (entered ++ flying)).Perm
        (((returns hs).map Prod.fst ++ flying) ++ entered) := by
      rw [List.append_assoc]
      exact List.perm_append_comm.append_left _
    exact (hf.append_left _).trans (hswap.trans (h.returned.append_right _))
  · rw [returns_append, ht.returned] at hm
    rcases List.mem_append.mp hm with hm | hm
    · have hne : index ≠ i := fun he => hnot (he ▸ List.mem_map_of_mem hm)
      rw [Fleet.upgrade?_put_of_ne hne]
      exact h.err hm
    · cases landing with
      | landed r =>
        obtain ⟨rfl, rfl⟩ := Prod.mk.inj (List.mem_singleton.mp hm)
        exact ⟨v, Fleet.upgrade?_put_self hu, hs'.2⟩
      | flying f => cases hm
      | crashed text => cases hm
  · rw [entries_append, ht.entered] at hi
    have hne : index ≠ i := fun he => hi (he ▸ hin)
    obtain ⟨hsame, hnone⟩ := h.untouched fun hm => hi (List.mem_append_left _ hm)
    refine ⟨by rw [Fleet.upgrade?_put_of_ne hne]; exact hsame, fun x hx hxi => ?_⟩
    rcases List.mem_append.mp hx with hx | hx
    · exact hnone x hx hxi
    · rw [ht.own x hx] at hxi
      exact hne (Option.some.inj hxi)

/-- The same where those that wait and those under way are members of a list, and another member
takes the place of the one whose run goes on. -/
theorem place {α : Type} {l : List α} {at_ : Nat} {a a' : α} {queued? flying? : α → Option Nat}
    (h : Ledger fleet₀ fleet hs all (l.filterMap queued?) (l.filterMap flying?))
    (ha : l[at_]? = some a) {landing : Landing}
    (ht : Tells new index (queued? a).toList landing)
    (hbefore : (queued? a).toList ++ (flying? a).toList = [index])
    (hqueued : queued? a' = Option.none)
    (hafter : (landing.returns index).map Prod.fst ++ (flying? a').toList = [index])
    {u v : Upgrade} (hu : fleet.upgrade? index = some u)
    (hs' : landing.Suits fleet.config index u v) :
    Ledger fleet₀ (fleet.put index v) (hs ++ new) all ((l.set at_ a').filterMap queued?)
      ((l.set at_ a').filterMap flying?) := by
  have hwaits := filterMap_set_perm ha a' queued?
  have hflies := filterMap_set_perm ha a' flying?
  rw [hqueued] at hwaits
  have hin : index ∈ (queued? a).toList ++ l.filterMap flying? := by
    have hmem : index ∈ (queued? a).toList ++ (flying? a).toList :=
      hbefore ▸ List.mem_singleton_self index
    rcases List.mem_append.mp hmem with hq | hf
    · exact List.mem_append_left _ hq
    · refine List.mem_append_right _ (List.mem_filterMap.mpr ⟨a, List.mem_of_getElem? ha, ?_⟩)
      exact Option.mem_toList.mp hf
  refine h.fly ht hin hwaits ?_ hu hs'
  -- The index is counted once on either side, for what the member was and for what it becomes.
  refine (List.perm_append_left_iff (flying? a').toList).mp ?_
  have hleft : ((flying? a').toList ++
      ((landing.returns index).map Prod.fst ++ (l.set at_ a').filterMap flying?)).Perm
      ((queued? a).toList ++ ((flying? a).toList ++ (l.set at_ a').filterMap flying?)) := by
    refine (List.perm_append_comm_assoc _ _ _).trans (.of_eq ?_)
    rw [← List.append_assoc, hafter, ← hbefore, List.append_assoc]
  exact hleft.trans ((hflies.append_left _).trans (List.perm_append_comm_assoc _ _ _))

end Ledger

end Rollout
