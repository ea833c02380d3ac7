import Mathlib.Data.List.Infix
import Mathlib.Logic.Relation

/-!
# Commit graph — commits that are only ever added

Commits are numbered in the order in which they are made, so the parents of a commit come before it.  What
a commit reaches stays what it reaches while the graph grows.
-/

namespace Lib

structure CommitGraph where
  parents : List (List ℕ)
  before : ∀ (commit : ℕ) (ps : List ℕ), parents[commit]? = some ps → ∀ p ∈ ps, p < commit

namespace CommitGraph

variable (graph : CommitGraph)

def parentsOf (commit : ℕ) : List ℕ := graph.parents[commit]?.getD []

/-- `ancestor` is in the history of `commit`. -/
def Reaches (commit ancestor : ℕ) : Prop :=
  Relation.ReflTransGen (fun c p => p ∈ graph.parentsOf c) commit ancestor

/-- The search for `ancestor`, through parents that come before `fuel`. -/
def search (ancestor : ℕ) : ℕ → ℕ → Bool
  | 0, commit => commit == ancestor
  | fuel + 1, commit =>
    commit == ancestor || (graph.parentsOf commit).any fun p => search ancestor fuel p

def reaches (commit ancestor : ℕ) : Bool := graph.search ancestor commit commit

/-- The graph with one commit more. -/
def add (ps : List ℕ) (h : ∀ p ∈ ps, p < graph.parents.length) : CommitGraph where
  parents := graph.parents ++ [ps]
  before commit ps' hcommit := by
    rcases Nat.lt_or_ge commit graph.parents.length with hlt | hge
    · rw [List.getElem?_append_left hlt] at hcommit
      exact graph.before commit ps' hcommit
    · rw [List.getElem?_append_right hge] at hcommit
      obtain ⟨hindex, hps⟩ := List.getElem?_eq_some_iff.mp hcommit
      have hzero : commit - graph.parents.length = 0 := by
        rw [List.length_singleton] at hindex
        omega
      simp only [hzero, List.getElem_cons_zero] at hps
      subst hps
      exact fun p hp => Nat.lt_of_lt_of_le (h p hp) hge

variable {graph} {commit ancestor p : ℕ}

theorem lt_of_mem_parentsOf (h : p ∈ graph.parentsOf commit) : p < commit := by
  unfold parentsOf at h
  cases hps : graph.parents[commit]? with
  | none =>
    rw [hps] at h
    exact absurd h List.not_mem_nil
  | some ps =>
    rw [hps] at h
    exact graph.before commit ps hps p h

theorem search_iff {fuel : ℕ} (hfuel : commit ≤ fuel) :
    graph.search ancestor fuel commit = true ↔ graph.Reaches commit ancestor := by
  induction fuel generalizing commit with
  | zero =>
    obtain rfl := Nat.le_zero.mp hfuel
    unfold search
    rw [beq_iff_eq]
    constructor
    · rintro rfl
      exact .refl
    · intro h
      rcases h.cases_head with h | ⟨p, hp, -⟩
      · exact h
      · exact absurd (lt_of_mem_parentsOf hp) (Nat.not_lt_zero p)
  | succ fuel ih =>
    have hparent : ∀ p ∈ graph.parentsOf commit, p ≤ fuel := by
      intro p hp
      have hlt := lt_of_mem_parentsOf hp
      omega
    unfold search
    rw [Bool.or_eq_true, beq_iff_eq, List.any_eq_true]
    constructor
    · rintro (rfl | ⟨p, hp, hsearch⟩)
      · exact .refl
      · exact .head hp ((ih (hparent p hp)).mp hsearch)
    · intro h
      rcases h.cases_head with h | ⟨p, hp, hrest⟩
      · exact .inl h
      · exact .inr ⟨p, hp, (ih (hparent p hp)).mpr hrest⟩

theorem reaches_iff : graph.reaches commit ancestor = true ↔ graph.Reaches commit ancestor :=
  search_iff (Nat.le_refl commit)

/-- The commits of a graph are those of another one, with the same parents. -/
def Grows (graph later : CommitGraph) : Prop := graph.parents <+: later.parents

variable {later latest : CommitGraph}

theorem Grows.refl (graph : CommitGraph) : graph.Grows graph := List.prefix_rfl

theorem Grows.trans (h : graph.Grows later) (h' : later.Grows latest) : graph.Grows latest :=
  List.IsPrefix.trans h h'

theorem grows_add {ps : List ℕ} (h : ∀ p ∈ ps, p < graph.parents.length) :
    graph.Grows (graph.add ps h) := List.prefix_append _ _

theorem Grows.mem_parentsOf (h : graph.Grows later) (hp : p ∈ graph.parentsOf commit) :
    p ∈ later.parentsOf commit := by
  unfold parentsOf at hp ⊢
  cases hps : graph.parents[commit]? with
  | none =>
    rw [hps] at hp
    exact absurd hp List.not_mem_nil
  | some ps =>
    rw [hps] at hp
    obtain ⟨rest, hrest⟩ := h
    have hlt : commit < graph.parents.length := (List.getElem?_eq_some_iff.mp hps).1
    rw [← hrest, List.getElem?_append_left hlt, hps]
    exact hp

theorem Grows.reaches (h : graph.Grows later) (hreaches : graph.Reaches commit ancestor) :
    later.Reaches commit ancestor :=
  Relation.ReflTransGen.mono (fun _ _ hp => h.mem_parentsOf hp) _ _ hreaches

/-- The new commit reaches its parents. -/
theorem reaches_add {ps : List ℕ} (h : ∀ p ∈ ps, p < graph.parents.length) (hp : p ∈ ps) :
    (graph.add ps h).Reaches graph.parents.length p := by
  apply Relation.ReflTransGen.single
  simpa [parentsOf, add] using hp

end CommitGraph

end Lib
