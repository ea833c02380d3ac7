import Mathlib.Data.List.Sort
import Mathlib.Order.Lex

/-!
# SortBy — rows in the order of a key

A stable sort by a key in a linear order.  Where no two rows share a key the result does not depend on
the order of the rows, and selecting rows commutes with sorting them.
-/

namespace Lib

variable {α κ : Type*} [LinearOrder κ] (key : α → κ)

def sortBy (rows : List α) : List α := rows.insertionSort (key · ≤ key ·)

namespace SortBy

instance total_key : Std.Total fun a b : α => key a ≤ key b := ⟨fun a b => le_total (key a) (key b)⟩

instance trans_key : IsTrans α fun a b : α => key a ≤ key b := ⟨fun _ _ _ => le_trans⟩

variable {key} {rows rows' : List α}

theorem perm (rows : List α) : (sortBy key rows).Perm rows := List.perm_insertionSort _ _

@[simp] theorem mem_iff {row : α} : row ∈ sortBy key rows ↔ row ∈ rows := (perm rows).mem_iff

theorem pairwise_le (rows : List α) : (sortBy key rows).Pairwise (key · ≤ key ·) :=
  List.pairwise_insertionSort _ _

theorem pairwise (h : (rows.map key).Nodup) : (sortBy key rows).Pairwise (key · < key ·) := by
  have hne : (sortBy key rows).Pairwise (key · ≠ key ·) :=
    List.pairwise_map.mp (((perm rows).map key).nodup_iff.mpr h)
  exact ((pairwise_le rows).and hne).imp fun h => lt_of_le_of_ne h.1 h.2

theorem eq_of_perm (h : (rows.map key).Nodup) (hperm : rows'.Perm rows) :
    sortBy key rows' = sortBy key rows := by
  have h' : (rows'.map key).Nodup := (hperm.map key).nodup_iff.mpr h
  have hsorted : (sortBy key rows').Perm (sortBy key rows) :=
    (perm rows').trans (hperm.trans (perm rows).symm)
  refine List.Perm.eq_of_pairwise ?_ (pairwise h') (pairwise h) hsorted
  intro a b _ _ hab hba
  exact absurd hab (lt_asymm hba)

/-- Selecting before and after the rows are put in order is the same. -/
theorem filter (h : (rows.map key).Nodup) (p : α → Bool) :
    (sortBy key rows).filter p = sortBy key (rows.filter p) := by
  have hsub : ((rows.filter p).map key).Nodup := (List.filter_sublist.map key).nodup h
  have hperm : ((sortBy key rows).filter p).Perm (sortBy key (rows.filter p)) :=
    ((perm rows).filter p).trans (perm _).symm
  refine List.Perm.eq_of_pairwise ?_ ((pairwise h).filter p) (pairwise hsub) hperm
  intro a b _ _ hab hba
  exact absurd hab (lt_asymm hba)

/-- The first rows of a sorted list are those with few rows before them. -/
theorem mem_take_of_pairwise (h : rows.Pairwise (key · < key ·)) {row : α} {limit : ℕ} :
    row ∈ rows.take limit ↔ row ∈ rows ∧ rows.countP (key · < key row) < limit := by
  induction rows generalizing limit with
  | nil => simp
  | cons first rest ih =>
    rw [List.pairwise_cons] at h
    cases limit with
    | zero => simp
    | succ limit =>
      rw [List.take_succ_cons, List.mem_cons, List.mem_cons, ih h.2]
      constructor
      · rintro (rfl | ⟨hrow, hcount⟩)
        · have hnone : rest.countP (key · < key row) = 0 := by
            rw [List.countP_eq_zero]
            intro other hother
            simpa using (h.1 other hother).le
          exact ⟨.inl rfl, by rw [List.countP_cons, hnone]; simp⟩
        · refine ⟨.inr hrow, ?_⟩
          rw [List.countP_cons, if_pos (by simpa using h.1 row hrow)]
          omega
      · rintro ⟨rfl | hrow, hcount⟩
        · exact .inl rfl
        · right
          rw [List.countP_cons, if_pos (by simpa using h.1 row hrow)] at hcount
          exact ⟨hrow, by omega⟩

theorem mem_take_iff (h : (rows.map key).Nodup) {row : α} {limit : ℕ} :
    row ∈ (sortBy key rows).take limit ↔ row ∈ rows ∧ rows.countP (key · < key row) < limit := by
  rw [mem_take_of_pairwise (pairwise h), mem_iff, (perm rows).countP_eq]

theorem map {β : Type*} (f : β → α) (rows : List β) :
    sortBy key (rows.map f) = (sortBy (fun b => key (f b)) rows).map f :=
  (List.map_insertionSort (fun a b => key (f a) ≤ key (f b)) (key · ≤ key ·) f rows
    fun _ _ _ _ => Iff.rfl).symm

/-- Sorting by a relation that compares the keys. -/
theorem insertionSort_eq (key : α → κ) {r : α → α → Prop} [DecidableRel r] (h : ∀ a b, r a b ↔ key a ≤ key b)
    (rows : List α) : rows.insertionSort r = sortBy key rows := by
  have hmap := List.map_insertionSort r (key · ≤ key ·) id rows fun a _ b _ => h a b
  rw [List.map_id, List.map_id] at hmap
  exact hmap

end SortBy

end Lib
