import JbOrchestrator.Lib.Dict

/-!
# Indexes — unique columns of a dictionary

The rows of a table, by their primary key, with a column in which no two of them agree.  A row is found by
the column, and stays so while rows are replaced by rows with the same column or new ones are added.
-/

namespace Lib.Dict

variable {κ ν γ : Type*} [DecidableEq κ] [DecidableEq γ]

/-- The row with the value `c` in the column. -/
def findBy (d : Dict κ ν) (column : ν → γ) (c : γ) : Option ν :=
  d.values.find? fun v => column v = c

omit [DecidableEq γ] in
/-- Neither keys nor the column repeat. -/
structure Indexed (column : ν → γ) (d : Dict κ ν) : Prop where
  keys : d.keys.Nodup
  unique : ∀ k k' v v', d.get? k = some v → d.get? k' = some v' → column v = column v' → k = k'

variable {column : ν → γ} {d : Dict κ ν} {k : κ} {v w : ν}

omit [DecidableEq γ] in
theorem Indexed.empty : Indexed column (empty : Dict κ ν) where
  keys := List.nodup_nil
  unique _ _ _ _ h := by cases h

theorem mem_values_iff (hkeys : d.keys.Nodup) : v ∈ d.values ↔ ∃ k, d.get? k = some v := by
  constructor
  · intro h
    obtain ⟨⟨k, w⟩, hp, hw⟩ := List.mem_map.mp h
    obtain rfl : w = v := hw
    exact ⟨k, get?_of_mem_entries hkeys hp⟩
  · rintro ⟨k, h⟩
    exact List.mem_map.mpr ⟨(k, v), mem_entries_of_get? h, rfl⟩

theorem nodup_keys_set (hkeys : d.keys.Nodup) (k : κ) (v : ν) : (d.set k v).keys.Nodup := by
  rw [keys_set]
  split
  · exact hkeys
  · rename_i hnone
    rw [List.nodup_append]
    refine ⟨hkeys, List.pairwise_singleton _ k, ?_⟩
    rintro k' hk' k'' hk'' rfl
    obtain rfl := List.mem_singleton.mp hk''
    exact hnone ((mem_keys_iff d k').mp hk')

theorem findBy_some {c : γ} (hkeys : d.keys.Nodup) (h : d.findBy column c = some v) :
    (∃ k, d.get? k = some v) ∧ column v = c := by
  have hcolumn := List.find?_some h
  rw [decide_eq_true_eq] at hcolumn
  exact ⟨(mem_values_iff hkeys).mp (List.mem_of_find?_eq_some h), hcolumn⟩

/-- A row is found by its column. -/
theorem Indexed.findBy (hd : d.Indexed column) (h : d.get? k = some v) :
    d.findBy column (column v) = some v := by
  have hmem : v ∈ d.values := (mem_values_iff hd.keys).mpr ⟨k, h⟩
  cases hfind : d.findBy column (column v) with
  | none =>
    have hnot := List.find?_eq_none.mp hfind v hmem
    simp at hnot
  | some w =>
    obtain ⟨⟨k', hk'⟩, hcolumn⟩ := findBy_some hd.keys hfind
    obtain rfl := hd.unique k' k w v hk' h hcolumn
    exact hk'.symm.trans h

omit [DecidableEq γ] in
/-- A row is replaced by one with the same column. -/
theorem Indexed.replace (hd : d.Indexed column) (h : d.get? k = some w)
    (hcolumn : column v = column w) : (d.set k v).Indexed column where
  keys := nodup_keys_set hd.keys k v
  unique k₁ k₂ v₁ v₂ h₁ h₂ heq := by
    -- the row that was there has the same key and column
    have hrow : ∀ k' v', (d.set k v).get? k' = some v' →
        ∃ v'', d.get? k' = some v'' ∧ column v'' = column v' := by
      intro k' v' h'
      rw [get?_set] at h'
      split at h'
      · rename_i hk
        obtain rfl := Option.some.inj h'
        exact ⟨w, hk ▸ h, hcolumn.symm⟩
      · exact ⟨v', h', rfl⟩
    obtain ⟨w₁, hw₁, hcolumn₁⟩ := hrow k₁ v₁ h₁
    obtain ⟨w₂, hw₂, hcolumn₂⟩ := hrow k₂ v₂ h₂
    exact hd.unique k₁ k₂ w₁ w₂ hw₁ hw₂ (hcolumn₁.trans (heq.trans hcolumn₂.symm))

/-- A row is added whose column no row has. -/
theorem Indexed.add (hd : d.Indexed column) (hnone : d.findBy column (column v) = none) :
    (d.set k v).Indexed column where
  keys := nodup_keys_set hd.keys k v
  unique k₁ k₂ v₁ v₂ h₁ h₂ heq := by
    have hother : ∀ k' v', d.get? k' = some v' → column v' ≠ column v := by
      intro k' v' h' hsame
      have hfound := hd.findBy h'
      rw [hsame, hnone] at hfound
      cases hfound
    rw [get?_set] at h₁ h₂
    split at h₁
    · rename_i hk₁
      split at h₂
      · rename_i hk₂
        exact hk₁.trans hk₂.symm
      · obtain rfl := Option.some.inj h₁
        exact absurd heq.symm (hother k₂ v₂ h₂)
    · split at h₂
      · obtain rfl := Option.some.inj h₂
        exact absurd heq (hother k₁ v₁ h₁)
      · exact hd.unique k₁ k₂ v₁ v₂ h₁ h₂ heq

end Lib.Dict
