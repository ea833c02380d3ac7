import JbOrchestrator.Lib.SortBy
import Mathlib.Data.Nat.Init

/-!
# OrderedPage — `SELECT … WHERE … ORDER BY key LIMIT n`

A page is the first rows that a condition selects behind a position.  With one row to a key it is an
initial segment: whatever is selected in front of one of its rows is on the page as well.
-/

namespace Lib

variable {α : Type*} (key : α → ℕ)

/-- The row stands behind the position. -/
def isBehind (after : Option ℕ) (row : α) : Bool := after.all (· < key row)

def ordered (rows : List α) : List α := rows.insertionSort (key · ≤ key ·)

def orderedPage (selected : α → Bool) (after : Option ℕ) (limit : ℕ) (rows : List α) : List α :=
  (ordered key (rows.filter fun row => selected row && isBehind key after row)).take limit

namespace OrderedPage

variable {key} {selected : α → Bool} {after : Option ℕ} {limit : ℕ} {rows : List α}

theorem perm_ordered (rows : List α) : (ordered key rows).Perm rows := SortBy.perm rows

theorem ordered_eq_nil : ordered key rows = [] ↔ rows = [] := by
  constructor
  · intro h
    have hperm : (ordered key rows).Perm rows := perm_ordered rows
    rw [h] at hperm
    exact hperm.symm.eq_nil
  · rintro rfl
    rfl

theorem ordered_pairwise (h : (rows.map key).Nodup) :
    (ordered key rows).Pairwise (key · < key ·) := SortBy.pairwise h

/-- Selecting before and after the rows are put in order is the same. -/
theorem filter_ordered (h : (rows.map key).Nodup) (p : α → Bool) :
    (ordered key rows).filter p = ordered key (rows.filter p) := SortBy.filter h p

theorem take_filter_of_take {all : List α} {p : α → Bool}
    (h : ∀ row ∈ all.take limit, p row = true) : (all.filter p).take limit = all.take limit := by
  have hsplit : all.filter p = all.take limit ++ (all.drop limit).filter p := by
    rw [← List.filter_eq_self.mpr h, ← List.filter_append, List.take_append_drop]
  rw [hsplit, List.take_append, List.take_take, Nat.min_self, List.length_take]
  rcases Nat.le_total limit all.length with hle | hle
  · rw [Nat.min_eq_left hle, Nat.sub_self, List.take_zero, List.append_nil]
  · rw [List.drop_eq_nil_of_le hle, List.filter_nil, List.take_nil, List.append_nil]

theorem mem_of_mem {row : α} (h : row ∈ orderedPage key selected after limit rows) :
    row ∈ rows ∧ selected row = true ∧ isBehind key after row = true := by
  have hmem := (perm_ordered _).subset (List.mem_of_mem_take h)
  simpa using hmem

theorem selection_pairwise (h : (rows.map key).Nodup) (p : α → Bool) :
    (ordered key (rows.filter p)).Pairwise (key · < key ·) :=
  ordered_pairwise ((List.filter_sublist.map key).nodup h)

theorem pairwise (h : (rows.map key).Nodup) :
    (orderedPage key selected after limit rows).Pairwise (key · < key ·) :=
  (selection_pairwise h _).sublist (List.take_sublist _ _)

/-- What is selected in front of a row of the page is on the page. -/
theorem mem_of_lt (h : (rows.map key).Nodup) {row last : α} (hrow : row ∈ rows)
    (hselected : selected row = true) (hbehind : isBehind key after row = true)
    (hlast : last ∈ orderedPage key selected after limit rows) (hlt : key row < key last) :
    row ∈ orderedPage key selected after limit rows := by
  have hmem : row ∈ ordered key (rows.filter fun r => selected r && isBehind key after r) := by
    apply (perm_ordered _).symm.subset
    simp [hrow, hselected, hbehind]
  have hsorted := selection_pairwise h fun r => selected r && isBehind key after r
  rw [← List.take_append_drop limit (ordered key _)] at hmem hsorted
  rcases List.mem_append.mp hmem with hpage | hrest
  · exact hpage
  · have hgt := (List.pairwise_append.mp hsorted).2.2 last hlast row hrest
    exact absurd hlt (lt_asymm hgt)

theorem eq_nil_iff (hlimit : 0 < limit) :
    orderedPage key selected after limit rows = [] ↔
      ∀ row ∈ rows, selected row = true → isBehind key after row = false := by
  rw [orderedPage, List.take_eq_nil_iff, or_iff_right (by omega),
    ordered_eq_nil, List.filter_eq_nil_iff]
  simp only [Bool.and_eq_true, not_and, Bool.not_eq_true]

/-- A narrower condition has the same page exactly where it selects the whole page. -/
theorem eq_iff_of_imp (h : (rows.map key).Nodup) {narrow wide : α → Bool}
    (himp : ∀ row, narrow row = true → wide row = true) :
    orderedPage key narrow after limit rows = orderedPage key wide after limit rows ↔
      ∀ row ∈ orderedPage key wide after limit rows, narrow row = true := by
  constructor
  · intro heq row hrow
    rw [← heq] at hrow
    exact (mem_of_mem hrow).2.1
  · intro hall
    have hfilter : ordered key (rows.filter fun r => narrow r && isBehind key after r) =
        (ordered key (rows.filter fun r => wide r && isBehind key after r)).filter narrow := by
      rw [filter_ordered ((List.filter_sublist.map key).nodup h), List.filter_filter]
      congr 2
      funext row
      cases hnarrow : narrow row with
      | false => simp
      | true => simp [himp row hnarrow]
    unfold orderedPage at hall ⊢
    rw [hfilter]
    exact take_filter_of_take hall

end OrderedPage

/-! ## Inserting a row

Where a new row comes to stand on the first page of a table that is in order. -/

section Insertion

variable {r : α → α → Prop} [DecidableRel r] {x y : α} {rows : List α} {limit : ℕ}

theorem orderedInsert_eq (x : α) (rows : List α) :
    rows.orderedInsert r x = rows.takeWhile (fun y => !decide (r x y)) ++
      x :: rows.dropWhile (fun y => !decide (r x y)) := by
  have hsplit := List.orderedInsert_eq_take_drop r x rows
  simpa using hsplit

/-- An insertion pushes rows off the page and brings none but the new one. -/
theorem mem_take_of_mem_take_orderedInsert (h : y ∈ (rows.orderedInsert r x).take limit) :
    y = x ∨ y ∈ rows.take limit := by
  have hrows := List.takeWhile_append_dropWhile (p := fun y => !decide (r x y)) (l := rows)
  rw [orderedInsert_eq, List.take_append, List.mem_append] at h
  rw [← hrows, List.take_append, List.mem_append]
  rcases h with hfront | hback
  · exact Or.inr (Or.inl hfront)
  · rcases Nat.eq_zero_or_pos (limit - (rows.takeWhile fun y => !decide (r x y)).length) with
      hzero | hpos
    · rw [hzero, List.take_zero] at hback
      cases hback
    · obtain ⟨k, hk⟩ := Nat.exists_eq_succ_of_ne_zero hpos.ne'
      rw [hk, List.take_succ_cons, List.mem_cons] at hback
      rw [hk]
      rcases hback with hself | hrest
      · exact Or.inl hself
      · exact Or.inr (Or.inr ((List.take_subset_take_left _ (Nat.le_succ k)) hrest))

theorem self_mem_take_orderedInsert_iff (hnew : x ∉ rows) :
    x ∈ (rows.orderedInsert r x).take limit ↔
      (rows.takeWhile fun y => !decide (r x y)).length < limit := by
  have hfront : x ∉ rows.takeWhile fun y => !decide (r x y) := fun h =>
    hnew ((List.takeWhile_subset _) h)
  rw [orderedInsert_eq, List.take_append, List.mem_append]
  constructor
  · rintro (h | h)
    · exact absurd (List.mem_of_mem_take h) hfront
    · by_contra hle
      rw [Nat.sub_eq_zero_of_le (not_lt.mp hle), List.take_zero] at h
      cases h
  · intro hlt
    obtain ⟨k, hk⟩ := Nat.exists_eq_succ_of_ne_zero (Nat.sub_pos_of_lt hlt).ne'
    rw [hk, List.take_succ_cons]
    exact Or.inr List.mem_cons_self

/-- In front of the new row stand the rows that are not behind it. -/
theorem takeWhile_eq_filter [IsTrans α r] (h : rows.Pairwise r) :
    rows.takeWhile (fun y => !decide (r x y)) = rows.filter fun y => !decide (r x y) := by
  induction rows with
  | nil => rfl
  | cons y rows ih =>
    obtain ⟨hy, hrows⟩ := List.pairwise_cons.mp h
    by_cases hxy : r x y
    · -- Everything behind `y` is behind `x` as well.
      have hnone : rows.filter (fun z => !decide (r x z)) = [] := by
        rw [List.filter_eq_nil_iff]
        intro z hz
        have hxz : r x z := IsTrans.trans _ _ _ hxy (hy z hz)
        simp [hxz]
      simp [hxy, hnone]
    · simp [hxy, ih hrows]

end Insertion

end Lib
