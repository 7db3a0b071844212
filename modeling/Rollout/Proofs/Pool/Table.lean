import Rollout.Pool.Table

/-!
# Calls on the pool table

* **Looking up** (`Table.pool?_put_self`, `Table.pool?_put_of_ne`): a pool that is put under a name
  is found there, and no other pool changes.
* **Members** (`Table.mem_of_remove`, `Table.mem_of_add`): what a call that succeeds does to the
  members of its pool.
-/

namespace Rollout

/-! ## Pools -/

namespace Pool

variable {p : Pool} {b b' : Backend}

theorem has_iff : p.has b = true ↔ b ∈ p.backends := by
  simp [has, backends]

theorem mem_add : b' ∈ (p.add b).backends ↔ b' ∈ p.backends ∨ b' = b := by
  simp [add, backends]

theorem mem_drop : b' ∈ (p.drop b).backends ↔ b' ∈ p.backends ∧ b' ≠ b := by
  constructor
  · intro h
    obtain ⟨m, hm, rfl⟩ := List.mem_map.mp h
    obtain ⟨hm, hne⟩ := List.mem_filter.mp hm
    exact ⟨List.mem_map_of_mem hm, bne_iff_ne.mp hne⟩
  · rintro ⟨h, hne⟩
    obtain ⟨m, hm, rfl⟩ := List.mem_map.mp h
    exact List.mem_map_of_mem (List.mem_filter.mpr ⟨hm, bne_iff_ne.mpr hne⟩)

end Pool

namespace Table

/-! ## Looking up -/

variable {t t' : Table} {pattern name : String} {p : Pool} {b b' : Backend}

theorem lookup_cons_eq (entry : String × Pool) (rest : List (String × Pool)) :
    (entry :: rest).lookup name = if name = entry.1 then some entry.2 else rest.lookup name := by
  rw [List.lookup_cons]
  by_cases h : name = entry.1
  · rw [beq_iff_eq.mpr h, if_pos h]
  · rw [beq_false_of_ne h, if_neg h]

theorem lookup_putIn (pools : List (String × Pool)) :
    (putIn pattern p pools).lookup name = if name = pattern then some p else pools.lookup name := by
  induction pools with
  | nil => exact lookup_cons_eq _ _
  | cons entry rest ih =>
    obtain ⟨other, q⟩ := entry
    rw [putIn]
    by_cases ho : other = pattern
    · rw [if_pos ho, lookup_cons_eq, lookup_cons_eq, ho]
      by_cases hn : name = pattern
      · rw [if_pos hn, if_pos hn]
      · rw [if_neg hn, if_neg hn, if_neg hn]
    · rw [if_neg ho, lookup_cons_eq, lookup_cons_eq, ih]
      by_cases hn : name = other
      · rw [if_pos hn, if_pos hn, if_neg fun he => ho (hn.symm.trans he)]
      · rw [if_neg hn, if_neg hn]

theorem pool?_put_self : (t.put pattern p).pool? pattern = some p := by
  rw [pool?, put, lookup_putIn, if_pos rfl]

theorem pool?_put_of_ne (h : name ≠ pattern) : (t.put pattern p).pool? name = t.pool? name := by
  rw [pool?, put, lookup_putIn, if_neg h, pool?]

theorem backends_of_pool? (h : t.pool? pattern = some p) : t.backends pattern = p.backends := by
  rw [backends, h]; rfl

theorem backends_put : (t.put pattern p).backends pattern = p.backends :=
  backends_of_pool? pool?_put_self

/-! ## Members -/

/-- The load balancer tells the members of a pool. -/
theorem backends_of_health {r : PoolHealth} (h : t.health pattern = .ok r) :
    r.backends = t.backends pattern := by
  unfold health at h
  split at h
  · rename_i p hp
    cases h
    rw [backends_of_pool? hp]
  · cases h

/-- Only a member can be removed, and the others stay. -/
theorem mem_of_remove (h : t.removeBackend pattern b = .ok t') :
    b ∈ t.backends pattern ∧
      ∀ b', b' ∈ t'.backends pattern ↔ b' ∈ t.backends pattern ∧ b' ≠ b := by
  unfold removeBackend at h
  split at h
  · cases h
  · rename_i p hp
    split at h
    · rename_i hm
      cases h
      rw [backends_of_pool? hp, backends_put]
      exact ⟨Pool.has_iff.mp hm, fun b' => Pool.mem_drop⟩
    · cases h

/-- Only another can be added, and the others stay. -/
theorem mem_of_add (h : t.addBackend pattern b = .ok t') :
    b ∉ t.backends pattern ∧
      ∀ b', b' ∈ t'.backends pattern ↔ b' ∈ t.backends pattern ∨ b' = b := by
  unfold addBackend at h
  split at h
  · cases h
  · rename_i p hp
    split at h
    · cases h
    · rename_i hm
      cases h
      rw [backends_of_pool? hp, backends_put]
      exact ⟨fun hb => hm (Pool.has_iff.mpr hb), fun b' => Pool.mem_add⟩

end Table

end Rollout
