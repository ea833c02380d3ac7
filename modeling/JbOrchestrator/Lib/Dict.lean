import Mathlib.Data.List.Basic

/-!
# Dict — insertion-ordered dictionaries

A dictionary is the list of its entries in insertion order, as a Python `dict` iterates.  Looking a
key up answers the first entry of the key; an update in place never moves an entry, and a new key is
appended.  Everything below is stated through `get?`, so that a proof about a table never unfolds the
list behind it.
-/

namespace Lib

structure Dict (κ ν : Type*) where
  entries : List (κ × ν)

namespace Dict

variable {κ ν ω : Type*} [DecidableEq κ]

def empty : Dict κ ν := ⟨[]⟩

def get? (d : Dict κ ν) (k : κ) : Option ν :=
  (d.entries.find? fun p => p.1 = k).map Prod.snd

def keys (d : Dict κ ν) : List κ := d.entries.map Prod.fst

def values (d : Dict κ ν) : List ν := d.entries.map Prod.snd

/-- Apply `f` to the value stored under `k`; a dictionary without `k` is left as it is. -/
def modify (d : Dict κ ν) (k : κ) (f : ν → ν) : Dict κ ν :=
  ⟨d.entries.map fun p => if p.1 = k then (p.1, f p.2) else p⟩

def mapValues (d : Dict κ ν) (f : ν → ω) : Dict κ ω :=
  ⟨d.entries.map fun p => (p.1, f p.2)⟩

def mapEntries (d : Dict κ ν) (f : κ → ν → ω) : Dict κ ω :=
  ⟨d.entries.map fun p => (p.1, f p.1 p.2)⟩

/-- `d[k] = v`: overwrite in place, or append a new entry. -/
def set (d : Dict κ ν) (k : κ) (v : ν) : Dict κ ν :=
  if (d.get? k).isSome then d.modify k fun _ => v else ⟨d.entries ++ [(k, v)]⟩

/-- The dictionary comprehension `{key x: value x for x in xs}` for keys that do not repeat. -/
def ofList {α : Type*} (key : α → κ) (value : α → ν) (xs : List α) : Dict κ ν :=
  ⟨xs.map fun x => (key x, value x)⟩

omit [DecidableEq κ] in
@[simp] theorem keys_mapValues (d : Dict κ ν) (f : ν → ω) : (d.mapValues f).keys = d.keys := by
  simp [keys, mapValues, Function.comp_def]

omit [DecidableEq κ] in
@[simp] theorem keys_mapEntries (d : Dict κ ν) (f : κ → ν → ω) :
    (d.mapEntries f).keys = d.keys := by
  simp [keys, mapEntries, Function.comp_def]

@[simp] theorem keys_modify (d : Dict κ ν) (k : κ) (f : ν → ν) : (d.modify k f).keys = d.keys := by
  simp only [keys, modify, List.map_map, List.map_inj_left, Function.comp_apply]
  intro p _
  split <;> rfl

@[simp] theorem get?_empty (k : κ) : (empty : Dict κ ν).get? k = none := rfl

theorem get?_modify (d : Dict κ ν) (k : κ) (f : ν → ν) (k' : κ) :
    (d.modify k f).get? k' = if k' = k then (d.get? k').map f else d.get? k' := by
  obtain ⟨entries⟩ := d
  simp only [get?, modify, List.find?_map, Option.map_map]
  have hkey : ((fun p : κ × ν => decide (p.1 = k')) ∘ fun p : κ × ν =>
      if p.1 = k then (p.1, f p.2) else p) = fun p => decide (p.1 = k') := by
    funext p
    by_cases hp : p.1 = k <;> simp [Function.comp, hp]
  rw [hkey]
  cases hfind : entries.find? fun p => decide (p.1 = k') with
  | none => simp
  | some p =>
    have hp : p.1 = k' := by simpa using List.find?_some hfind
    by_cases hk : k' = k
    · simp [hp, hk]
    · simp [hp, hk]

@[simp] theorem get?_modify_self (d : Dict κ ν) (k : κ) (f : ν → ν) :
    (d.modify k f).get? k = (d.get? k).map f := by
  rw [get?_modify, if_pos rfl]

theorem get?_modify_of_ne (d : Dict κ ν) {k k' : κ} (f : ν → ν) (h : k' ≠ k) :
    (d.modify k f).get? k' = d.get? k' := by
  rw [get?_modify, if_neg h]

theorem modify_modify (d : Dict κ ν) (k : κ) (f g : ν → ν) :
    (d.modify k f).modify k g = d.modify k fun v => g (f v) := by
  simp only [modify, List.map_map, mk.injEq, List.map_inj_left, Function.comp_apply]
  intro p _
  by_cases hp : p.1 = k <;> simp [hp]

@[simp] theorem get?_mapValues (d : Dict κ ν) (f : ν → ω) (k : κ) :
    (d.mapValues f).get? k = (d.get? k).map f := by
  obtain ⟨entries⟩ := d
  simp only [get?, mapValues, List.find?_map, Option.map_map]
  rfl

@[simp] theorem get?_mapEntries (d : Dict κ ν) (f : κ → ν → ω) (k : κ) :
    (d.mapEntries f).get? k = (d.get? k).map (f k) := by
  obtain ⟨entries⟩ := d
  simp only [get?, mapEntries, List.find?_map, Option.map_map]
  have hkey : ((fun p : κ × ω => decide (p.1 = k)) ∘ fun p : κ × ν => (p.1, f p.1 p.2)) =
      fun p => decide (p.1 = k) := rfl
  rw [hkey]
  cases hfind : entries.find? fun p => decide (p.1 = k) with
  | none => rfl
  | some p =>
    have hp : p.1 = k := by simpa using List.find?_some hfind
    simp [hp]

omit [DecidableEq κ] in
theorem mapEntries_congr (d : Dict κ ν) {f g : κ → ν → ω}
    (h : ∀ k v, (k, v) ∈ d.entries → f k v = g k v) : d.mapEntries f = d.mapEntries g := by
  simp only [mapEntries, mk.injEq]
  exact List.map_congr_left fun p hp => Prod.ext rfl (h p.1 p.2 hp)

omit [DecidableEq κ] in
theorem mapEntries_of_eq (d : Dict κ ν) (f : κ → ν → ν)
    (h : ∀ k v, (k, v) ∈ d.entries → f k v = v) : d.mapEntries f = d := by
  rw [mapEntries_congr d (g := fun _ v => v) h]
  simp [mapEntries]

theorem get?_append_entry (d : Dict κ ν) (k : κ) (v : ν) (h : d.get? k = none) (k' : κ) :
    (⟨d.entries ++ [(k, v)]⟩ : Dict κ ν).get? k' = if k' = k then some v else d.get? k' := by
  simp only [get?, List.find?_append, Option.map_or]
  by_cases hk : k' = k
  · subst hk
    have hnone : (d.entries.find? fun p => decide (p.1 = k')) = none := by
      simpa [get?] using h
    simp [hnone]
  · have : (k = k') = False := by simp [Ne.symm hk]
    simp [hk, this]

theorem get?_set (d : Dict κ ν) (k : κ) (v : ν) (k' : κ) :
    (d.set k v).get? k' = if k' = k then some v else d.get? k' := by
  unfold set
  split
  · rename_i hsome
    rw [get?_modify]
    by_cases hk : k' = k
    · subst hk
      obtain ⟨w, hw⟩ := Option.isSome_iff_exists.mp hsome
      simp [hw]
    · simp [hk]
  · rename_i hnone
    exact get?_append_entry d k v (by simpa using hnone) k'

@[simp] theorem get?_set_self (d : Dict κ ν) (k : κ) (v : ν) : (d.set k v).get? k = some v := by
  rw [get?_set, if_pos rfl]

theorem get?_set_of_ne (d : Dict κ ν) {k k' : κ} (v : ν) (h : k' ≠ k) :
    (d.set k v).get? k' = d.get? k' := by
  rw [get?_set, if_neg h]

/-- A new key comes last. -/
theorem keys_set (d : Dict κ ν) (k : κ) (v : ν) :
    (d.set k v).keys = if (d.get? k).isSome then d.keys else d.keys ++ [k] := by
  unfold set
  split
  · exact keys_modify d k _
  · simp [keys]

theorem get?_ofList {α : Type*} (key : α → κ) (value : α → ν) (xs : List α) (k : κ) :
    (ofList key value xs).get? k = (xs.find? fun x => key x = k).map value := by
  simp only [get?, ofList, List.find?_map, Option.map_map]
  rfl

theorem mem_entries_of_get? {d : Dict κ ν} {k : κ} {v : ν} (h : d.get? k = some v) :
    (k, v) ∈ d.entries := by
  obtain ⟨p, hp, hv⟩ := Option.map_eq_some_iff.mp h
  have hk : p.1 = k := by simpa using List.find?_some hp
  have := List.mem_of_find?_eq_some hp
  rwa [show (k, v) = p from Prod.ext hk.symm hv.symm]

/-- Where keys do not repeat, an entry is what its key finds. -/
theorem get?_of_mem_entries {d : Dict κ ν} (hd : d.keys.Nodup) {k : κ} {v : ν}
    (h : (k, v) ∈ d.entries) : d.get? k = some v := by
  obtain ⟨entries⟩ := d
  simp only [get?, keys] at hd h ⊢
  induction entries with
  | nil => cases h
  | cons p entries ih =>
    rw [List.map_cons, List.nodup_cons] at hd
    rcases List.mem_cons.mp h with rfl | h
    · simp
    · have hne : p.1 ≠ k := by
        rintro rfl
        exact hd.1 (List.mem_map.mpr ⟨_, h, rfl⟩)
      rw [List.find?_cons_of_neg (by simpa using hne)]
      exact ih hd.2 h

theorem mem_keys_iff (d : Dict κ ν) (k : κ) : k ∈ d.keys ↔ (d.get? k).isSome := by
  simp [keys, get?, List.find?_isSome]

end Dict

end Lib
