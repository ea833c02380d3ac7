import Mathlib.Data.Nat.Init

/-! # Forest — the root a partial parent function leads to -/

namespace Lib

variable {α : Type*} {parent : α → Option α}

/-- Following `parent` from the first node ends at the second. -/
inductive Root (parent : α → Option α) : α → α → Prop where
  | here {node : α} (h : parent node = none) : Root parent node node
  | up {node above root : α} (h : parent node = some above) (hroot : Root parent above root) :
      Root parent node root

namespace Root

theorem parent_eq_none {node root : α} (h : Root parent node root) : parent root = none := by
  induction h with
  | here h => exact h
  | up _ _ ih => exact ih

theorem eq_of_none {node root : α} (h : Root parent node root) (hnone : parent node = none) :
    root = node := by
  cases h with
  | here => rfl
  | up hsome => rw [hsome] at hnone; cases hnone

theorem of_some {node above root : α} (h : Root parent node root)
    (hsome : parent node = some above) : Root parent above root := by
  cases h with
  | here hnone => rw [hnone] at hsome; cases hsome
  | up hup hroot =>
    rw [hup] at hsome
    obtain rfl := Option.some.inj hsome
    exact hroot

theorem iff_of_some {node above root : α} (hsome : parent node = some above) :
    Root parent node root ↔ Root parent above root :=
  ⟨fun h => h.of_some hsome, .up hsome⟩

theorem unique {node root root' : α} (h : Root parent node root) (h' : Root parent node root') :
    root = root' := by
  induction h with
  | here hnone => exact (h'.eq_of_none hnone).symm
  | up hsome _ ih => exact ih (h'.of_some hsome)

/-- Parents of a smaller rank lead to a root. -/
theorem exists_of_rank (rank : α → ℕ)
    (hrank : ∀ node above, parent node = some above → rank above < rank node) (node : α) :
    ∃ root, Root parent node root := by
  induction hn : rank node using Nat.strong_induction_on generalizing node with
  | _ n ih =>
    subst hn
    cases hparent : parent node with
    | none => exact ⟨node, .here hparent⟩
    | some above =>
      obtain ⟨root, hroot⟩ := ih (rank above) (hrank node above hparent) above rfl
      exact ⟨root, .up hparent hroot⟩

/-- What a node hands to its parent holds at the root. -/
theorem holds {P : α → Prop} (hup : ∀ node above, parent node = some above → P node → P above)
    {node root : α} (h : Root parent node root) (hnode : P node) : P root := by
  induction h with
  | here => exact hnode
  | up hsome _ ih => exact ih (hup _ _ hsome hnode)

end Root

end Lib
