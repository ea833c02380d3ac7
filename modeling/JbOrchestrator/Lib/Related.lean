import Mathlib.Data.List.Forall2

/-! # Related — lists that agree member by member -/

namespace Lib

variable {α β γ : Type*} {S : α → β → Prop} {xs : List α} {ys : List β}

/-- What stands against a member of the first list. -/
theorem exists_of_forall₂ (h : List.Forall₂ S xs ys) {x : α} (hx : x ∈ xs) : ∃ y ∈ ys, S x y := by
  induction h with
  | nil => cases hx
  | cons hhead _ ih =>
    rcases List.mem_cons.mp hx with rfl | hx
    · exact ⟨_, List.mem_cons_self, hhead⟩
    · obtain ⟨y, hy, hxy⟩ := ih hx
      exact ⟨y, List.mem_cons_of_mem _ hy, hxy⟩

theorem map_eq_of_forall₂ {f : α → γ} {g : β → γ} (h : List.Forall₂ S xs ys)
    (hfg : ∀ x y, S x y → f x = g y) : xs.map f = ys.map g := by
  induction h with
  | nil => rfl
  | cons hxy _ ih => rw [List.map_cons, List.map_cons, hfg _ _ hxy, ih]

theorem forall₂_filter {p : α → Bool} {q : β → Bool} (h : List.Forall₂ S xs ys)
    (hpq : ∀ x y, S x y → p x = q y) : List.Forall₂ S (xs.filter p) (ys.filter q) := by
  induction h with
  | nil => exact .nil
  | @cons x y xs ys hxy _ ih =>
    cases hp : p x with
    | false =>
      rw [List.filter_cons_of_neg (by simp [hp]),
        List.filter_cons_of_neg (by simp [← hpq x y hxy, hp])]
      exact ih
    | true =>
      rw [List.filter_cons_of_pos hp, List.filter_cons_of_pos (by rw [← hpq x y hxy, hp])]
      exact .cons hxy ih

theorem pairwise_of_forall₂ {R : β → β → Prop} {Q : α → α → Prop} (h : List.Forall₂ S xs ys)
    (hys : ys.Pairwise R) (hRQ : ∀ x x' y y', S x y → S x' y' → R y y' → Q x x') :
    xs.Pairwise Q := by
  induction h with
  | nil => exact .nil
  | cons hxy hrest ih =>
    rw [List.pairwise_cons] at hys ⊢
    refine ⟨?_, ih hys.2⟩
    intro x' hx'
    obtain ⟨y', hy', hxy'⟩ := exists_of_forall₂ hrest hx'
    exact hRQ _ _ _ _ hxy hxy' (hys.1 y' hy')

end Lib
