import JbOrchestrator.Lib.SortBy

/-!
# Cursors — a table read page by page behind the key of the last row

A page holds the first rows behind a cursor, in the order of their keys, and its last row is the next
cursor.  A sweep follows the cursors until a page is empty and visits every row once.  The cursor may be
another representation of the key than the one that is compared.
-/

namespace Lib

variable {α γ κ : Type*} [LinearOrder κ]

/-- The rows behind a key, in order. -/
def following (key : α → κ) (after : Option κ) (rows : List α) : List α :=
  sortBy key (rows.filter fun row => after.all fun k => decide (k < key row))

/-- A sweep from a cursor, with the rows of its pages. -/
inductive Sweep (cursor : α → γ) (listing : Option γ → List α) : Option γ → List α → Prop where
  | stop {after : Option γ} (hpage : listing after = []) : Sweep cursor listing after []
  | next {after : Option γ} {front rest : List α} {last : α} (hpage : listing after = front ++ [last])
      (hrest : Sweep cursor listing (some (cursor last)) rest) :
      Sweep cursor listing after (front ++ last :: rest)

/-- The pages of a listing are those of a table, and its sweeps visit each row of the table behind
the cursor once. -/
structure Lists (collate : γ → κ) (cursor : α → γ) (listing : Option γ → ℕ → List α)
    (rows : List α) : Prop where
  page : ∀ after limit, 1 ≤ limit → listing after limit =
    (following (fun row => collate (cursor row)) (after.map collate) rows).take limit
  sweep : ∀ limit, 1 ≤ limit → ∀ after results,
    Sweep cursor (fun after => listing after limit) after results ↔
      results = following (fun row => collate (cursor row)) (after.map collate) rows

namespace Cursors

variable {key : α → κ} {after : Option κ} {rows : List α}

@[simp] theorem mem_following {row : α} :
    row ∈ following key after rows ↔ row ∈ rows ∧ ∀ k ∈ after, k < key row := by
  unfold following
  rw [SortBy.mem_iff, List.mem_filter]
  cases after <;> simp

theorem following_pairwise (h : (rows.map key).Nodup) :
    (following key after rows).Pairwise (key · < key ·) :=
  SortBy.pairwise ((List.filter_sublist.map key).nodup h)

theorem following_filter (h : (rows.map key).Nodup) (after : Option κ) (p : α → Bool) :
    (following key after rows).filter p = following key after (rows.filter p) := by
  unfold following
  rw [SortBy.filter ((List.filter_sublist.map key).nodup h), List.filter_filter, List.filter_filter]
  simp only [Bool.and_comm]

theorem following_map {β : Type*} (key : α → κ) (after : Option κ) (f : β → α) (rows : List β) :
    following key after (rows.map f) = (following (fun b => key (f b)) after rows).map f := by
  unfold following
  rw [List.filter_map, SortBy.map]
  rfl

/-- Behind a row stand the rows that come after it. -/
theorem following_last (h : (rows.map key).Nodup) {front rest : List α} {last : α}
    (hsplit : following key after rows = front ++ last :: rest) :
    following key (some (key last)) rows = rest := by
  have hlast : last ∈ following key after rows := by
    rw [hsplit]
    simp
  have hbehind : ∀ k ∈ after, k < key last := (mem_following.mp hlast).2
  have hsorted : (front ++ last :: rest).Pairwise (key · < key ·) := hsplit ▸ following_pairwise h
  rw [List.pairwise_append, List.pairwise_cons] at hsorted
  obtain ⟨-, ⟨hrest, -⟩, hacross⟩ := hsorted
  have hnarrow : following key (some (key last)) rows =
      (following key after rows).filter fun row => decide (key last < key row) := by
    rw [following_filter h after]
    unfold following
    rw [List.filter_filter]
    congr 1
    apply List.filter_congr
    intro row _
    rw [Bool.eq_iff_iff]
    simp only [Option.all_some, Bool.and_eq_true, decide_eq_true_eq, Option.all_eq_true]
    constructor
    · intro hlt
      exact ⟨fun k hk => lt_trans (hbehind k hk) hlt, hlt⟩
    · exact fun hboth => hboth.2
  rw [hnarrow, hsplit, List.filter_append, List.filter_cons_of_neg (by simp)]
  have hfront : front.filter (fun row => decide (key last < key row)) = [] := by
    rw [List.filter_eq_nil_iff]
    intro row hrow
    have hlt : key row < key last := hacross row hrow last List.mem_cons_self
    simpa using hlt.le
  have hback : rest.filter (fun row => decide (key last < key row)) = rest := by
    rw [List.filter_eq_self]
    intro row hrow
    simpa using hrest row hrow
  rw [hfront, hback, List.nil_append]

section Sweeps

variable {collate : γ → κ} {cursor : α → γ} {listing : Option γ → List α} {limit : ℕ}

/-- Sweeps by pages of a table visit the table in order, whatever the size of the pages. -/
theorem sweep_iff (h : (rows.map fun row => collate (cursor row)).Nodup) (hlimit : 1 ≤ limit)
    (hlisting : ∀ after, listing after =
      (following (fun row => collate (cursor row)) (after.map collate) rows).take limit)
    {after : Option γ} {results : List α} :
    Sweep cursor listing after results ↔
      results = following (fun row => collate (cursor row)) (after.map collate) rows := by
  constructor
  · intro hsweep
    induction hsweep with
    | stop hpage =>
      rw [hlisting, List.take_eq_nil_iff, or_iff_right (by omega)] at hpage
      exact hpage.symm
    | @next after front rest last hpage _ ih =>
      rw [hlisting] at hpage
      have hsplit : following (fun row => collate (cursor row)) (after.map collate) rows =
          front ++ last :: List.drop limit
            (following (fun row => collate (cursor row)) (after.map collate) rows) := by
        conv_lhs => rw [← List.take_append_drop limit (following _ _ rows), hpage]
        simp
      rw [ih, Option.map_some, following_last h hsplit]
      exact hsplit.symm
  · rintro rfl
    -- by induction on the number of rows behind the cursor
    generalize hn :
      (following (fun row => collate (cursor row)) (after.map collate) rows).length = n
    induction n using Nat.strong_induction_on generalizing after with
    | _ n ih =>
      rcases List.eq_nil_or_concat (listing after) with hpage | ⟨front, last, hpage⟩
      · have hnil := hpage
        rw [hlisting, List.take_eq_nil_iff, or_iff_right (by omega)] at hnil
        rw [hnil]
        exact .stop hpage
      · rw [List.concat_eq_append] at hpage
        have hfull := hpage
        rw [hlisting] at hfull
        have hsplit : following (fun row => collate (cursor row)) (after.map collate) rows =
            front ++ last :: List.drop limit
              (following (fun row => collate (cursor row)) (after.map collate) rows) := by
          conv_lhs => rw [← List.take_append_drop limit (following _ _ rows), hfull]
          simp
        have hlast := following_last h hsplit
        have hlength := congrArg List.length hsplit
        rw [List.length_append, List.length_cons] at hlength
        rw [hsplit]
        apply Sweep.next hpage
        rw [← hlast]
        exact ih _ (by rw [Option.map_some, hlast]; omega) rfl

theorem lists_of_page {listing : Option γ → ℕ → List α}
    (h : (rows.map fun row => collate (cursor row)).Nodup)
    (hpage : ∀ after limit, 1 ≤ limit → listing after limit =
      (following (fun row => collate (cursor row)) (after.map collate) rows).take limit) :
    Lists collate cursor listing rows where
  page := hpage
  sweep := fun limit hlimit _ _ => sweep_iff h hlimit fun after => hpage after limit hlimit

/-- A listing of the rows that `wide` selects is one of those that `narrow` selects exactly when the
two select the same rows. -/
theorem lists_filter_iff {listing : Option γ → ℕ → List α} {narrow wide : α → Bool}
    (himp : ∀ row ∈ rows, narrow row = true → wide row = true)
    (hlists : Lists collate cursor listing (rows.filter wide)) :
    Lists collate cursor listing (rows.filter narrow) ↔
      ∀ row ∈ rows, wide row = true → narrow row = true := by
  constructor
  · intro hnarrow row hrow hwide
    -- one page with room for all rows
    have hlimit : 1 ≤ rows.length + 1 := by omega
    have hpages := (hlists.page none _ hlimit).symm.trans (hnarrow.page none _ hlimit)
    have hwideLength : (following (fun row => collate (cursor row)) none
        (rows.filter wide)).length ≤ rows.length + 1 := by
      unfold following
      rw [(SortBy.perm _).length_eq]
      exact ((List.length_filter_le _ _).trans (List.length_filter_le _ _)).trans (Nat.le_succ _)
    rw [Option.map_none, List.take_of_length_le hwideLength] at hpages
    have hmem : row ∈ following (fun row => collate (cursor row)) none (rows.filter wide) :=
      mem_following.mpr ⟨List.mem_filter.mpr ⟨hrow, hwide⟩, by simp⟩
    rw [hpages] at hmem
    exact (List.mem_filter.mp (mem_following.mp (List.mem_of_mem_take hmem)).1).2
  · intro hall
    have hsame : rows.filter narrow = rows.filter wide := by
      apply List.filter_congr
      intro row hrow
      rw [Bool.eq_iff_iff]
      exact ⟨himp row hrow, hall row hrow⟩
    rw [hsame]
    exact hlists

end Sweeps

end Cursors

end Lib
