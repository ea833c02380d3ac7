import Mathlib.Data.List.Basic
import Mathlib.Logic.Relation
import Mathlib.Algebra.BigOperators.Group.List.Basic
import Mathlib.Algebra.Ring.Nat

/-!
# Worklist — depth-first search with a pending stack and a visited set

The two loops `explore` and `finds` pop a vertex, skip it when it was visited, and otherwise push its
unvisited successors.  `explore` answers the visited vertices, `finds` stops at a target.  Both are
indexed by fuel; `searchFuel` is enough of it, so on a finite graph they always answer, and their
answer is reachability along `next`.
-/

namespace Lib.Worklist

variable {α : Type*} [DecidableEq α] (next : α → List α)

/-- `b` is a direct successor of `a`. -/
def Edge (a b : α) : Prop := b ∈ next a

def explore : ℕ → List α → List α → Option (List α)
  | _, [], visited => some visited
  | 0, _ :: _, _ => none
  | fuel + 1, current :: pending, visited =>
    if current ∈ visited then explore fuel pending visited
    else
      explore fuel ((next current).filter (· ∉ current :: visited) ++ pending) (current :: visited)

def finds (target : α) : ℕ → List α → List α → Option Bool
  | _, [], _ => some false
  | 0, _ :: _, _ => none
  | fuel + 1, current :: pending, visited =>
    if current = target then some true
    else if current ∈ visited then finds target fuel pending visited
    else
      finds target fuel ((next current).filter (· ∉ current :: visited) ++ pending)
        (current :: visited)

/-- What is left to pop: the pending vertices and the successors of the unvisited ones. -/
def remaining (vertices pending visited : List α) : ℕ :=
  pending.length + ((vertices.filter (· ∉ visited)).map fun v => (next v).length).sum

def searchFuel (vertices pending : List α) : ℕ := remaining next vertices pending []

/-! ## 1. The search invariant -/

/-- Every successor of a visited vertex is visited or pending. -/
def Closed (pending visited : List α) : Prop :=
  ∀ v ∈ visited, ∀ w, Edge next v w → w ∈ visited ∨ w ∈ pending

variable {next}

omit [DecidableEq α] in
theorem closed_nil (pending : List α) : Closed next pending [] := by
  intro v hv
  cases hv

omit [DecidableEq α] in
theorem Closed.skip {current : α} {pending visited : List α}
    (h : Closed next (current :: pending) visited) (hc : current ∈ visited) :
    Closed next pending visited := by
  intro v hv w hw
  rcases h v hv w hw with hw | hw
  · exact Or.inl hw
  · rcases List.mem_cons.mp hw with rfl | hw
    · exact Or.inl hc
    · exact Or.inr hw

theorem Closed.push {current : α} {pending visited : List α}
    (h : Closed next (current :: pending) visited) :
    Closed next ((next current).filter (· ∉ current :: visited) ++ pending)
      (current :: visited) := by
  intro v hv w hw
  by_cases hseen : w ∈ current :: visited
  · exact Or.inl hseen
  · right
    rw [List.mem_append]
    rcases List.mem_cons.mp hv with rfl | hv
    · exact Or.inl (List.mem_filter.mpr ⟨hw, by simpa using hseen⟩)
    · rcases h v hv w hw with hw' | hw'
      · exact absurd (List.mem_cons_of_mem _ hw') hseen
      · rcases List.mem_cons.mp hw' with rfl | hw'
        · exact absurd List.mem_cons_self hseen
        · exact Or.inr hw'

omit [DecidableEq α] in
/-- A set closed under successors contains everything reachable from its members. -/
theorem mem_of_reach {s : List α} (hs : Closed next [] s) {a b : α} (ha : a ∈ s)
    (hab : Relation.ReflTransGen (Edge next) a b) : b ∈ s := by
  induction hab with
  | refl => exact ha
  | tail _ hedge ih => simpa using hs _ ih _ hedge

/-! ## 2. The answers -/

theorem explore_closed {fuel : ℕ} {pending visited result : List α}
    (hresult : explore next fuel pending visited = some result)
    (hclosed : Closed next pending visited) :
    Closed next [] result ∧ visited ⊆ result ∧ pending ⊆ result := by
  induction fuel generalizing pending visited with
  | zero =>
    cases pending with
    | nil =>
      obtain rfl : visited = result := by simpa [explore] using hresult
      exact ⟨hclosed, List.Subset.refl _, List.nil_subset _⟩
    | cons => simp [explore] at hresult
  | succ fuel ih =>
    cases pending with
    | nil =>
      obtain rfl : visited = result := by simpa [explore] using hresult
      exact ⟨hclosed, List.Subset.refl _, List.nil_subset _⟩
    | cons current pending =>
      rw [explore] at hresult
      split at hresult
      · rename_i hseen
        obtain ⟨hc, hv, hp⟩ := ih hresult (hclosed.skip hseen)
        exact ⟨hc, hv, List.cons_subset.mpr ⟨hv hseen, hp⟩⟩
      · obtain ⟨hc, hv, hp⟩ := ih hresult hclosed.push
        rw [List.cons_subset] at hv
        exact ⟨hc, hv.2, List.cons_subset.mpr ⟨hv.1, (List.append_subset.mp hp).2⟩⟩

theorem explore_sound {fuel : ℕ} {pending visited result : List α}
    (hresult : explore next fuel pending visited = some result) {x : α} (hx : x ∈ result) :
    x ∈ visited ∨ ∃ p ∈ pending, Relation.ReflTransGen (Edge next) p x := by
  induction fuel generalizing pending visited with
  | zero =>
    cases pending with
    | nil =>
      obtain rfl : visited = result := by simpa [explore] using hresult
      exact Or.inl hx
    | cons => simp [explore] at hresult
  | succ fuel ih =>
    cases pending with
    | nil =>
      obtain rfl : visited = result := by simpa [explore] using hresult
      exact Or.inl hx
    | cons current pending =>
      rw [explore] at hresult
      split at hresult
      · rcases ih hresult with hv | ⟨p, hp, hreach⟩
        · exact Or.inl hv
        · exact Or.inr ⟨p, List.mem_cons_of_mem _ hp, hreach⟩
      · rcases ih hresult with hv | ⟨p, hp, hreach⟩
        · rcases List.mem_cons.mp hv with rfl | hv
          · exact Or.inr ⟨x, List.mem_cons_self, Relation.ReflTransGen.refl⟩
          · exact Or.inl hv
        · rcases List.mem_append.mp hp with hp | hp
          · exact Or.inr ⟨current, List.mem_cons_self,
              Relation.ReflTransGen.head (List.mem_filter.mp hp).1 hreach⟩
          · exact Or.inr ⟨p, List.mem_cons_of_mem _ hp, hreach⟩

/-- `explore` answers exactly the vertices reachable from the pending ones. -/
theorem mem_explore_iff {fuel : ℕ} {pending result : List α}
    (hresult : explore next fuel pending [] = some result) (x : α) :
    x ∈ result ↔ ∃ p ∈ pending, Relation.ReflTransGen (Edge next) p x := by
  constructor
  · intro hx
    simpa using explore_sound hresult hx
  · rintro ⟨p, hp, hreach⟩
    obtain ⟨hclosed, -, hsub⟩ := explore_closed hresult (closed_nil pending)
    exact mem_of_reach hclosed (hsub hp) hreach

theorem finds_sound {target : α} {fuel : ℕ} {pending visited : List α}
    (hresult : finds next target fuel pending visited = some true) :
    ∃ p ∈ pending, Relation.ReflTransGen (Edge next) p target := by
  induction fuel generalizing pending visited with
  | zero => cases pending <;> simp [finds] at hresult
  | succ fuel ih =>
    cases pending with
    | nil => simp [finds] at hresult
    | cons current pending =>
      rw [finds] at hresult
      split at hresult
      · rename_i heq
        exact ⟨current, List.mem_cons_self, heq ▸ Relation.ReflTransGen.refl⟩
      split at hresult
      · obtain ⟨p, hp, hreach⟩ := ih hresult
        exact ⟨p, List.mem_cons_of_mem _ hp, hreach⟩
      · obtain ⟨p, hp, hreach⟩ := ih hresult
        rcases List.mem_append.mp hp with hp | hp
        · exact ⟨current, List.mem_cons_self,
            Relation.ReflTransGen.head (List.mem_filter.mp hp).1 hreach⟩
        · exact ⟨p, List.mem_cons_of_mem _ hp, hreach⟩

theorem finds_complete {target : α} {fuel : ℕ} {pending visited : List α}
    (hresult : finds next target fuel pending visited = some false)
    (hclosed : Closed next pending visited) (htarget : target ∉ visited) :
    ∃ s, Closed next [] s ∧ visited ⊆ s ∧ pending ⊆ s ∧ target ∉ s := by
  induction fuel generalizing pending visited with
  | zero =>
    cases pending with
    | nil => exact ⟨visited, hclosed, List.Subset.refl _, List.nil_subset _, htarget⟩
    | cons => simp [finds] at hresult
  | succ fuel ih =>
    cases pending with
    | nil => exact ⟨visited, hclosed, List.Subset.refl _, List.nil_subset _, htarget⟩
    | cons current pending =>
      rw [finds] at hresult
      split at hresult
      · cases hresult
      rename_i hne
      split at hresult
      · rename_i hseen
        obtain ⟨s, hs, hv, hp, ht⟩ := ih hresult (hclosed.skip hseen) htarget
        exact ⟨s, hs, hv, List.cons_subset.mpr ⟨hv hseen, hp⟩, ht⟩
      · have htarget' : target ∉ current :: visited := by
          simp only [List.mem_cons, not_or]
          exact ⟨Ne.symm hne, htarget⟩
        obtain ⟨s, hs, hv, hp, ht⟩ := ih hresult hclosed.push htarget'
        rw [List.cons_subset] at hv
        exact ⟨s, hs, hv.2, List.cons_subset.mpr ⟨hv.1, (List.append_subset.mp hp).2⟩, ht⟩

/-- `finds` answers whether the target is reachable from a pending vertex. -/
theorem finds_iff {target : α} {fuel : ℕ} {pending : List α} {answer : Bool}
    (hresult : finds next target fuel pending [] = some answer) :
    answer = true ↔ ∃ p ∈ pending, Relation.ReflTransGen (Edge next) p target := by
  cases answer with
  | true => simpa using finds_sound hresult
  | false =>
    simp only [Bool.false_eq_true, false_iff]
    rintro ⟨p, hp, hreach⟩
    obtain ⟨s, hs, -, hsub, ht⟩ := finds_complete hresult (closed_nil pending) (by simp)
    exact ht (mem_of_reach hs (hsub hp) hreach)

/-! ## 3. The fuel -/

theorem remaining_push {vertices : List α} {current : α} (pending : List α) {visited : List α}
    (hmem : current ∈ vertices) (hnew : current ∉ visited) :
    remaining next vertices ((next current).filter (· ∉ current :: visited) ++ pending)
      (current :: visited) + 1 ≤ remaining next vertices (current :: pending) visited := by
  have hsum : ((vertices.filter (· ∉ current :: visited)).map fun v => (next v).length).sum +
      (next current).length ≤
        ((vertices.filter (· ∉ visited)).map fun v => (next v).length).sum := by
    induction vertices with
    | nil => cases hmem
    | cons v vs ih =>
      have hmono : ((vs.filter (· ∉ current :: visited)).map fun v => (next v).length).sum ≤
          ((vs.filter (· ∉ visited)).map fun v => (next v).length).sum := by
        clear ih hmem
        induction vs with
        | nil => simp
        | cons u us ihu =>
          by_cases hu : u ∈ visited
          · simpa [hu] using ihu
          · by_cases huc : u = current
            · simp only [huc, hnew, List.mem_cons, not_true_eq_false, true_or, decide_false,
                List.filter_cons, Bool.false_eq_true, if_false, not_false_eq_true, decide_true,
                if_true, List.map_cons, List.sum_cons] at ihu ⊢
              omega
            · simp only [hu, huc, List.mem_cons, or_self, List.filter_cons, not_false_eq_true,
                decide_true, if_true, List.map_cons, List.sum_cons] at ihu ⊢
              omega
      by_cases hv : v = current
      · subst hv
        simp only [List.filter_cons, List.mem_cons, true_or, not_true_eq_false, decide_false,
          Bool.false_eq_true, if_false, hnew, not_false_eq_true, decide_true, if_true,
          List.map_cons, List.sum_cons] at hmono ⊢
        omega
      · have hvs : current ∈ vs := by
          rcases List.mem_cons.mp hmem with h | h
          · exact absurd h.symm hv
          · exact h
        have := ih hvs
        by_cases hseen : v ∈ visited
        · simpa [hseen] using this
        · simp only [List.filter_cons, List.mem_cons, hv, hseen, or_self, not_false_eq_true,
            decide_true, if_true, List.map_cons, List.sum_cons] at this ⊢
          omega
  have hfilter := List.length_filter_le (fun w => decide (w ∉ current :: visited)) (next current)
  simp only [remaining, List.length_append, List.length_cons] at hfilter ⊢
  omega

theorem remaining_skip (next : α → List α) (vertices : List α) (current : α)
    (pending visited : List α) :
    remaining next vertices pending visited + 1 ≤
      remaining next vertices (current :: pending) visited := by
  simp only [remaining, List.length_cons]
  omega

section Fuel

variable {vertices : List α} (hnext : ∀ v ∈ vertices, next v ⊆ vertices)
include hnext

private theorem push_subset {current : α} {pending visited : List α}
    (hpending : current :: pending ⊆ vertices) :
    (next current).filter (· ∉ current :: visited) ++ pending ⊆ vertices := by
  rw [List.cons_subset] at hpending
  refine List.append_subset.mpr ⟨fun w hw => ?_, hpending.2⟩
  exact hnext current hpending.1 (List.mem_filter.mp hw).1

theorem explore_isSome {fuel : ℕ} {pending visited : List α} (hpending : pending ⊆ vertices)
    (hfuel : remaining next vertices pending visited ≤ fuel) :
    ∃ result, explore next fuel pending visited = some result := by
  induction fuel generalizing pending visited with
  | zero =>
    cases pending with
    | nil => exact ⟨visited, rfl⟩
    | cons => simp [remaining] at hfuel
  | succ fuel ih =>
    cases pending with
    | nil => exact ⟨visited, rfl⟩
    | cons current pending =>
      rw [explore]
      split
      · have hstep := remaining_skip next vertices current pending visited
        exact ih (List.cons_subset.mp hpending).2 (by omega)
      · rename_i hnew
        have hmem := (List.cons_subset.mp hpending).1
        have hstep : remaining next vertices _ (current :: visited) + 1 ≤ _ :=
          remaining_push pending hmem hnew
        exact ih (push_subset hnext hpending) (by omega)

theorem finds_isSome (target : α) {fuel : ℕ} {pending visited : List α}
    (hpending : pending ⊆ vertices)
    (hfuel : remaining next vertices pending visited ≤ fuel) :
    ∃ answer, finds next target fuel pending visited = some answer := by
  induction fuel generalizing pending visited with
  | zero =>
    cases pending with
    | nil => exact ⟨false, rfl⟩
    | cons => simp [remaining] at hfuel
  | succ fuel ih =>
    cases pending with
    | nil => exact ⟨false, rfl⟩
    | cons current pending =>
      rw [finds]
      split
      · exact ⟨true, rfl⟩
      split
      · have hstep := remaining_skip next vertices current pending visited
        exact ih (List.cons_subset.mp hpending).2 (by omega)
      · rename_i hnew
        have hmem := (List.cons_subset.mp hpending).1
        have hstep : remaining next vertices _ (current :: visited) + 1 ≤ _ :=
          remaining_push pending hmem hnew
        exact ih (push_subset hnext hpending) (by omega)

end Fuel

end Lib.Worklist
