import Mathlib.Data.List.Sort
import Mathlib.Data.Nat.Init

/-!
# Keyset — reading a changing set of keys page by page

A page holds the least `limit` keys behind a cursor.  One key more is looked at to see whether there
is a next page; then the last key of the page is the next cursor, and otherwise the sweep ends.
-/

namespace Lib.Keyset

variable {κ : Type*} [LinearOrder κ]

/-! ## 1. One page -/

/-- The keys behind a cursor, in order. -/
def behind (keys : List κ) (after : Option κ) : List κ :=
  (keys.filter fun k => decide (∀ a ∈ after, a < k)).insertionSort (· ≤ ·)

def page (keys : List κ) (after : Option κ) (limit : ℕ) : List κ := (behind keys after).take limit

def next (keys : List κ) (after : Option κ) (limit : ℕ) : Option κ :=
  if limit < (behind keys after).length then (page keys after limit).getLast? else none

theorem mem_behind {keys : List κ} {after : Option κ} {k : κ} :
    k ∈ behind keys after ↔ k ∈ keys ∧ ∀ a ∈ after, a < k := by
  simp [behind]

theorem length_behind_none (keys : List κ) : (behind keys none).length = keys.length := by
  simp [behind]

theorem behind_pairwise {keys : List κ} (h : keys.Nodup) (after : Option κ) :
    (behind keys after).Pairwise (· < ·) := by
  have hle : (behind keys after).Pairwise (· ≤ ·) := List.pairwise_insertionSort _ _
  have hne : (behind keys after).Pairwise (· ≠ ·) :=
    (List.perm_insertionSort _ _).nodup_iff.mpr (h.filter _)
  exact (hle.and hne).imp fun h => lt_of_le_of_ne h.1 h.2

theorem behind_perm {keys keys' : List κ} (h : keys.Perm keys') (after : Option κ) :
    behind keys after = behind keys' after := by
  apply List.Perm.eq_of_pairwise' (List.pairwise_insertionSort _ _)
    (List.pairwise_insertionSort _ _)
  exact ((List.perm_insertionSort _ _).trans (h.filter _)).trans (List.perm_insertionSort _ _).symm

variable {limit : ℕ}

theorem mem_of_mem_page {keys : List κ} {after : Option κ} {k : κ}
    (h : k ∈ page keys after limit) : k ∈ keys ∧ ∀ a ∈ after, a < k :=
  mem_behind.mp (List.mem_of_mem_take h)

theorem page_pairwise {keys : List κ} (h : keys.Nodup) (after : Option κ) :
    (page keys after limit).Pairwise (· < ·) :=
  (behind_pairwise h after).sublist (List.take_sublist _ _)

/-- Without a next cursor the page held all keys behind the cursor. -/
theorem page_of_next_eq_none (hlimit : 1 ≤ limit) {keys : List κ} {after : Option κ}
    (h : next keys after limit = none) :
    page keys after limit = behind keys after ∧ (behind keys after).length ≤ limit := by
  unfold next at h
  split at h
  · rename_i hlt
    rw [List.getLast?_eq_none_iff] at h
    have hlength := congrArg List.length h
    rw [page, List.length_take, List.length_nil] at hlength
    omega
  · rename_i hle
    exact ⟨List.take_of_length_le (not_lt.mp hle), not_lt.mp hle⟩

/-- The next cursor is the greatest key of a full page, and more keys follow. -/
theorem next_eq_some {keys : List κ} {after : Option κ} {c : κ}
    (hkeys : keys.Nodup) (h : next keys after limit = some c) :
    limit < (behind keys after).length ∧ c ∈ page keys after limit ∧
      (∀ k ∈ page keys after limit, k ≤ c) ∧
      ∀ k ∈ (behind keys after).drop limit, c < k := by
  unfold next at h
  split at h
  · rename_i hlt
    have hsorted := behind_pairwise hkeys after
    rw [← List.take_append_drop limit (behind keys after), List.pairwise_append] at hsorted
    obtain ⟨hpage, -, hacross⟩ := hsorted
    have hmem : c ∈ page keys after limit := List.mem_of_getLast? h
    refine ⟨hlt, hmem, ?_, fun k hk => hacross c hmem k hk⟩
    intro k hk
    obtain ⟨front, hfront⟩ := List.getLast?_eq_some_iff.mp h
    have hpage' : (front ++ [c]).Pairwise (· < ·) := by
      rw [← hfront]
      exact hpage
    rw [hfront, List.mem_append, List.mem_singleton] at hk
    rcases hk with hk | rfl
    · exact le_of_lt ((List.pairwise_append.mp hpage').2.2 k hk c List.mem_cons_self)
    · exact le_rfl
  · cases h

/-- Behind the next cursor there are `limit` keys less. -/
theorem length_behind_next {keys : List κ} {after : Option κ} {c : κ} (hkeys : keys.Nodup)
    (h : next keys after limit = some c) :
    (behind keys (some c)).length = (behind keys after).length - limit := by
  obtain ⟨-, hmem, hle, hgt⟩ := next_eq_some hkeys h
  have hperm : (behind keys (some c)).Perm ((behind keys after).drop limit) := by
    rw [List.perm_ext_iff_of_nodup]
    · intro k
      rw [mem_behind]
      constructor
      · rintro ⟨hk, hc⟩
        have hc' : c < k := hc c rfl
        have hbehind : k ∈ behind keys after := by
          refine mem_behind.mpr ⟨hk, fun a ha => ?_⟩
          exact lt_trans ((mem_of_mem_page hmem).2 a ha) hc'
        rw [← List.take_append_drop limit (behind keys after), List.mem_append] at hbehind
        rcases hbehind with hfront | hrest
        · exact absurd (hle k hfront) (not_le.mpr hc')
        · exact hrest
      · intro hk
        refine ⟨(mem_behind.mp (List.mem_of_mem_drop hk)).1, fun a ha => ?_⟩
        obtain rfl := Option.some_injective _ ha
        exact hgt k hk
    · exact (behind_pairwise hkeys _).imp ne_of_lt
    · exact ((behind_pairwise hkeys after).sublist (List.drop_sublist _ _)).imp ne_of_lt
  rw [hperm.length_eq, List.length_drop]

/-! ## 2. Sweeps -/

/-- The keys of the pages that are read one after the other, each from the table of its time. -/
def visited (limit : ℕ) : Option κ → List (List κ) → List κ
  | _, [] => []
  | after, keys :: tables => page keys after limit ++ visited limit (next keys after limit) tables

/-- The sweep ends with the last of the tables and not before. -/
def Ends (limit : ℕ) : Option κ → List (List κ) → Prop
  | _, [] => False
  | after, keys :: tables =>
    match next keys after limit with
    | none => tables = []
    | some c => Ends limit (some c) tables

theorem ends_cons_of_none {keys : List κ} {after : Option κ} {tables : List (List κ)}
    (h : next keys after limit = none) : Ends limit after (keys :: tables) ↔ tables = [] := by
  rw [Ends, h]

theorem ends_cons_of_some {keys : List κ} {after : Option κ} {c : κ} {tables : List (List κ)}
    (h : next keys after limit = some c) :
    Ends limit after (keys :: tables) ↔ Ends limit (some c) tables := by
  rw [Ends, h]

theorem exists_table_of_mem_visited {after : Option κ} {tables : List (List κ)} {k : κ}
    (hk : k ∈ visited limit after tables) : ∃ keys ∈ tables, k ∈ keys := by
  induction tables generalizing after with
  | nil => cases hk
  | cons keys tables ih =>
    rw [visited, List.mem_append] at hk
    rcases hk with hk | hk
    · exact ⟨keys, List.mem_cons_self, (mem_of_mem_page hk).1⟩
    · obtain ⟨keys', hkeys', hk'⟩ := ih hk
      exact ⟨keys', List.mem_cons_of_mem _ hkeys', hk'⟩

theorem gt_of_mem_visited {after : Option κ} {tables : List (List κ)}
    (hkeys : ∀ keys ∈ tables, keys.Nodup) (hends : Ends limit after tables) {k : κ}
    (hk : k ∈ visited limit after tables) : ∀ a ∈ after, a < k := by
  induction tables generalizing after with
  | nil => cases hk
  | cons keys tables ih =>
    rw [List.forall_mem_cons] at hkeys
    rw [visited, List.mem_append] at hk
    rcases hk with hk | hk
    · exact (mem_of_mem_page hk).2
    · cases hnext : next keys after limit with
      | none =>
        rw [(ends_cons_of_none hnext).mp hends] at hk
        cases hk
      | some c =>
        rw [ends_cons_of_some hnext] at hends
        rw [hnext] at hk
        intro a ha
        have hc := (next_eq_some hkeys.1 hnext).2.1
        exact lt_trans ((mem_of_mem_page hc).2 a ha) (ih hkeys.2 hends hk c rfl)

/-- A sweep visits keys in increasing order, so none of them twice. -/
theorem visited_pairwise {after : Option κ} {tables : List (List κ)}
    (hkeys : ∀ keys ∈ tables, keys.Nodup) (hends : Ends limit after tables) :
    (visited limit after tables).Pairwise (· < ·) := by
  induction tables generalizing after with
  | nil => exact .nil
  | cons keys tables ih =>
    rw [List.forall_mem_cons] at hkeys
    rw [visited, List.pairwise_append]
    cases hnext : next keys after limit with
    | none =>
      rw [(ends_cons_of_none hnext).mp hends]
      exact ⟨page_pairwise hkeys.1 after, .nil, by simp [visited]⟩
    | some c =>
      rw [ends_cons_of_some hnext] at hends
      refine ⟨page_pairwise hkeys.1 after, ih hkeys.2 hends, ?_⟩
      intro k hk k' hk'
      have hle := (next_eq_some hkeys.1 hnext).2.2.1 k hk
      exact lt_of_le_of_lt hle (gt_of_mem_visited hkeys.2 hends hk' c rfl)

/-- A key that every table holds is visited. -/
theorem mem_visited {after : Option κ} (hlimit : 1 ≤ limit) {tables : List (List κ)}
    (hkeys : ∀ keys ∈ tables, keys.Nodup) (hends : Ends limit after tables) {k : κ}
    (hk : ∀ keys ∈ tables, k ∈ keys) (hafter : ∀ a ∈ after, a < k) :
    k ∈ visited limit after tables := by
  induction tables generalizing after with
  | nil => cases hends
  | cons keys tables ih =>
    rw [List.forall_mem_cons] at hkeys hk
    have hbehind : k ∈ behind keys after := mem_behind.mpr ⟨hk.1, hafter⟩
    rw [visited, List.mem_append]
    cases hnext : next keys after limit with
    | none =>
      left
      rw [(page_of_next_eq_none hlimit hnext).1]
      exact hbehind
    | some c =>
      rw [ends_cons_of_some hnext] at hends
      rw [← List.take_append_drop limit (behind keys after), List.mem_append] at hbehind
      rcases hbehind with hpage | hrest
      · exact .inl hpage
      · right
        apply ih hkeys.2 hends hk.2
        intro a ha
        obtain rfl := Option.some_injective _ ha
        exact (next_eq_some hkeys.1 hnext).2.2.2 k hrest

/-- Over a fixed set of keys a sweep takes as many pages as the keys fill, and at least one. -/
theorem ends_iff_length {after : Option κ} (hlimit : 1 ≤ limit) {all : List κ} (hall : all.Nodup)
    {tables : List (List κ)} (hperm : ∀ keys ∈ tables, keys.Perm all) :
    Ends limit after tables ↔
      tables.length = max 1 (((behind all after).length + limit - 1) / limit) := by
  induction tables generalizing after with
  | nil =>
    rw [Ends, List.length_nil, false_iff]
    omega
  | cons keys tables ih =>
    rw [List.forall_mem_cons] at hperm
    have hbehind := behind_perm hperm.1 after
    have hnextEq : next keys after limit = next all after limit := by
      rw [next, next, page, page, hbehind]
    cases hnext : next all after limit with
    | none =>
      have hle := (page_of_next_eq_none hlimit hnext).2
      have hone : ((behind all after).length + limit - 1) / limit ≤ 1 := by
        rw [Nat.div_le_iff_le_mul_add_pred (by omega)]
        omega
      rw [ends_cons_of_none (hnextEq.trans hnext), List.length_cons, max_eq_left hone,
        ← List.length_eq_zero_iff]
      omega
    | some c =>
      have hlt := (next_eq_some hall hnext).1
      have hsplit : ((behind all after).length + limit - 1) / limit =
          ((behind all after).length - limit + limit - 1) / limit + 1 := by
        rw [← Nat.add_div_right _ (by omega)]
        congr 1
        omega
      have hpos : 1 ≤ ((behind all after).length - limit + limit - 1) / limit := by
        rw [Nat.one_le_div_iff (by omega)]
        omega
      rw [ends_cons_of_some (hnextEq.trans hnext), ih hperm.2, length_behind_next hall hnext,
        List.length_cons, hsplit]
      omega

end Lib.Keyset
