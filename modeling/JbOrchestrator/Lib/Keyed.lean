import Mathlib.Algebra.BigOperators.Group.List.Basic
import Mathlib.Data.List.Nodup
import Mathlib.Tactic.Abel

/-!
# Keyed — lists of records under a key

A table is a list of records, one for each key.  `put` is the update of the record under a key; what it
does to a sum over the table is what it does to the one summand.
-/

namespace Lib

variable {α κ : Type*} [DecidableEq κ] (key : α → κ)

/-- The record under the key of `a` is replaced by `a`. -/
def put (a : α) (l : List α) : List α := l.map fun b => if key b = key a then a else b

variable {key} {a b : α} {l : List α}

@[simp] theorem map_key_put : (put key a l).map key = l.map key := by
  unfold put
  rw [List.map_map]
  apply List.map_congr_left
  intro b _
  by_cases h : key b = key a <;> simp [h]

theorem mem_put (h : b ∈ put key a l) : b = a ∨ b ∈ l ∧ key b ≠ key a := by
  obtain ⟨c, hc, rfl⟩ := List.mem_map.mp h
  by_cases hkey : key c = key a
  · left
    exact if_pos hkey
  · right
    rw [if_neg hkey]
    exact ⟨hc, hkey⟩

theorem mem_put_self (hb : b ∈ l) (hkey : key b = key a) : a ∈ put key a l :=
  List.mem_map.mpr ⟨b, hb, if_pos hkey⟩

theorem mem_put_of_ne (hb : b ∈ l) (hkey : key b ≠ key a) : b ∈ put key a l :=
  List.mem_map.mpr ⟨b, hb, if_neg hkey⟩

theorem put_of_not_mem (h : key a ∉ l.map key) : put key a l = l := by
  unfold put
  apply (List.map_congr_left _).trans (List.map_id l)
  intro b hb
  apply if_neg
  intro hkey
  exact h (hkey ▸ List.mem_map_of_mem hb)

/-- An update keeps what the new record has in common with the old one. -/
theorem map_put_of_eq {β : Type*} {f : α → β} (hnodup : (l.map key).Nodup) (hb : b ∈ l)
    (hkey : key b = key a) (hf : f a = f b) : (put key a l).map f = l.map f := by
  unfold put
  rw [List.map_map]
  apply List.map_congr_left
  intro c hc
  by_cases h : key c = key a
  · have hcb : c = b := List.inj_on_of_nodup_map hnodup hc hb (h.trans hkey.symm)
    simp [hcb, hkey, hf]
  · simp [h]

/-- An update changes a sum by the new summand for the old one. -/
theorem sum_put {M : Type*} [AddCommGroup M] (weight : α → M) (hnodup : (l.map key).Nodup)
    (hb : b ∈ l) (hkey : key b = key a) :
    ((put key a l).map weight).sum = (l.map weight).sum - weight b + weight a := by
  induction l with
  | nil => cases hb
  | cons c l ih =>
    rw [List.map_cons, List.nodup_cons] at hnodup
    rw [show put key a (c :: l) = (if key c = key a then a else c) :: put key a l from rfl]
    by_cases hc : key c = key a
    · have hbc : b = c := by
        rcases List.mem_cons.mp hb with h | h
        · exact h
        · exact absurd (List.mem_map_of_mem h) (hc.trans hkey.symm ▸ hnodup.1)
      rw [if_pos hc, put_of_not_mem (hc ▸ hnodup.1), hbc]
      simp only [List.map_cons, List.sum_cons]
      abel
    · have hbl : b ∈ l := by
        rcases List.mem_cons.mp hb with h | h
        · exact absurd (h ▸ hkey) hc
        · exact h
      rw [if_neg hc]
      simp only [List.map_cons, List.sum_cons, ih hnodup.2 hbl]
      abel

theorem sum_map_filter {M : Type*} [AddMonoid M] (p : α → Bool) (weight : α → M) :
    ((l.filter p).map weight).sum = (l.map fun a => if p a then weight a else 0).sum := by
  induction l with
  | nil => rfl
  | cons c l ih =>
    by_cases hc : p c = true
    · rw [List.filter_cons_of_pos hc, List.map_cons, List.sum_cons, ih, List.map_cons,
        List.sum_cons, if_pos hc]
    · rw [List.filter_cons_of_neg hc, ih, List.map_cons, List.sum_cons, if_neg hc, zero_add]

omit [DecidableEq κ] in
theorem eq_of_key (hnodup : (l.map key).Nodup) (ha : a ∈ l) (hb : b ∈ l) (h : key a = key b) :
    a = b :=
  List.inj_on_of_nodup_map hnodup ha hb h

end Lib
