import Mathlib.Data.List.Basic

/-!
# Machine — deterministic transition systems and their runs

A machine answers every input with an output and its next state.  A run is what a list of inputs
does to a start state; its trace keeps, for every input, the state before it, the answer and the
state after it.  The rules below carry a one-step fact to all runs: an invariant, a property that
only guarded steps keep, and a potential that bounds how often a run can make progress.
-/

namespace Lib

/-- One input of a run with the state it met, the answer it got and the state it left. -/
structure Transition (σ ι ο : Type*) where
  before : σ
  input : ι
  output : ο
  after : σ

structure Machine (σ ι ο : Type*) where
  step : σ → ι → ο × σ

namespace Machine

variable {σ ι ο : Type*} (M : Machine σ ι ο)

def fire (s : σ) (i : ι) : Transition σ ι ο := ⟨s, i, (M.step s i).1, (M.step s i).2⟩

def run (s : σ) : List ι → σ
  | [] => s
  | i :: is => run (M.step s i).2 is

def trace (s : σ) : List ι → List (Transition σ ι ο)
  | [] => []
  | i :: is => M.fire s i :: trace (M.step s i).2 is

@[simp] theorem fire_before (s : σ) (i : ι) : (M.fire s i).before = s := rfl

@[simp] theorem fire_input (s : σ) (i : ι) : (M.fire s i).input = i := rfl

@[simp] theorem fire_after (s : σ) (i : ι) : (M.fire s i).after = (M.step s i).2 := rfl

@[simp] theorem run_nil (s : σ) : M.run s [] = s := rfl

@[simp] theorem run_cons (s : σ) (i : ι) (is : List ι) :
    M.run s (i :: is) = M.run (M.step s i).2 is := rfl

@[simp] theorem trace_nil (s : σ) : M.trace s [] = [] := rfl

@[simp] theorem trace_cons (s : σ) (i : ι) (is : List ι) :
    M.trace s (i :: is) = M.fire s i :: M.trace (M.step s i).2 is := rfl

theorem run_append (s : σ) (is js : List ι) : M.run s (is ++ js) = M.run (M.run s is) js := by
  induction is generalizing s with
  | nil => rfl
  | cons i is ih => exact ih _

theorem trace_append (s : σ) (is js : List ι) :
    M.trace s (is ++ js) = M.trace s is ++ M.trace (M.run s is) js := by
  induction is generalizing s with
  | nil => rfl
  | cons i is ih => simp [ih]

/-- Every transition of a trace is the machine's answer after some prefix of the inputs. -/
theorem mem_trace {s : σ} {inputs : List ι} {t : Transition σ ι ο} (ht : t ∈ M.trace s inputs) :
    ∃ is i js, inputs = is ++ i :: js ∧ t = M.fire (M.run s is) i := by
  induction inputs generalizing s with
  | nil => simp at ht
  | cons i inputs ih =>
    rcases List.mem_cons.mp ht with rfl | ht
    · exact ⟨[], i, inputs, rfl, rfl⟩
    · obtain ⟨is, j, js, rfl, rfl⟩ := ih ht
      exact ⟨i :: is, j, js, rfl, rfl⟩

/-- An invariant of every step is an invariant of every run. -/
theorem run_invariant {I : σ → Prop} (hstep : ∀ s i, I s → I (M.step s i).2)
    {s : σ} (hs : I s) (is : List ι) : I (M.run s is) := by
  induction is generalizing s with
  | nil => exact hs
  | cons i is ih => exact ih (hstep s i hs)

/-- A property that the given inputs keep holds after a run over them. -/
theorem run_among {Q : σ → Prop} {s : σ} (hs : Q s) {is : List ι}
    (hstep : ∀ s, ∀ i ∈ is, Q s → Q (M.step s i).2) : Q (M.run s is) := by
  induction is generalizing s with
  | nil => exact hs
  | cons i is ih =>
    exact ih (hstep s i List.mem_cons_self hs) fun s j hj => hstep s j (List.mem_cons_of_mem _ hj)

/-- Every transition of a trace starts in a state that satisfies the invariant. -/
theorem trace_invariant {I : σ → Prop} (hstep : ∀ s i, I s → I (M.step s i).2)
    {s : σ} (hs : I s) {is : List ι} {t : Transition σ ι ο} (ht : t ∈ M.trace s is) :
    I t.before ∧ t = M.fire t.before t.input := by
  obtain ⟨is', i, js, -, rfl⟩ := M.mem_trace ht
  exact ⟨M.run_invariant hstep hs is', rfl⟩

/-- A property that every transition of a trace keeps holds all along the trace. -/
theorem trace_keeps {Q : σ → Prop} {s : σ} (hs : Q s) {is : List ι}
    (hkeeps : ∀ t ∈ M.trace s is, Q t.before → Q t.after) :
    Q (M.run s is) ∧ ∀ t ∈ M.trace s is, Q t.before ∧ Q t.after := by
  induction is generalizing s with
  | nil => exact ⟨hs, by simp⟩
  | cons i is ih =>
    rw [trace_cons, List.forall_mem_cons] at hkeeps
    have hnext := hkeeps.1 hs
    obtain ⟨hrun, htrace⟩ := ih hnext hkeeps.2
    rw [trace_cons, List.forall_mem_cons]
    exact ⟨hrun, ⟨hs, hnext⟩, htrace⟩

/-- A property that every transition of a trace keeps still holds at the end of the run. -/
theorem trace_kept {Q : σ → Prop} {s : σ} {is : List ι} {t : Transition σ ι ο}
    (ht : t ∈ M.trace s is) (hq : Q t.after) (hkeeps : ∀ t ∈ M.trace s is, Q t.before → Q t.after) :
    Q (M.run s is) := by
  induction is generalizing s with
  | nil => cases ht
  | cons i is ih =>
    rw [trace_cons, List.forall_mem_cons] at hkeeps
    rcases List.mem_cons.mp ht with rfl | ht
    · exact (M.trace_keeps hq hkeeps.2).1
    · exact ih ht hkeeps.2

/-- What every transition adds to a list is added by its input. -/
theorem trace_sublist {α : Type*} {f : σ → List α} {g : ι → List α} {s : σ} {is : List ι}
    (hstep : ∀ t ∈ M.trace s is, (f t.after).Sublist (f t.before ++ g t.input)) :
    (f (M.run s is)).Sublist (f s ++ is.flatMap g) := by
  induction is generalizing s with
  | nil => simp
  | cons i is ih =>
    rw [trace_cons, List.forall_mem_cons] at hstep
    have hrest := (ih hstep.2).trans (hstep.1.append_right (is.flatMap g))
    rw [List.flatMap_cons, ← List.append_assoc]
    exact hrest

/-- Where a step keeps `Q` exactly when it meets `G`, a run stays in `Q` exactly when all its steps meet
`G`. -/
theorem forall_trace_iff {I Q : σ → Prop} {G : Transition σ ι ο → Prop}
    (hstep : ∀ s i, I s → I (M.step s i).2)
    (hiff : ∀ s i, I s → Q s → (Q (M.step s i).2 ↔ G (M.fire s i)))
    {s : σ} (hs : I s) (hq : Q s) (is : List ι) :
    (∀ t ∈ M.trace s is, Q t.after) ↔ ∀ t ∈ M.trace s is, G t := by
  induction is generalizing s with
  | nil => simp
  | cons i is ih =>
    rw [trace_cons, List.forall_mem_cons, List.forall_mem_cons, fire_after]
    constructor
    · rintro ⟨hhead, htail⟩
      exact ⟨(hiff s i hs hq).mp hhead, (ih (hstep s i hs) hhead).mp htail⟩
    · rintro ⟨hhead, htail⟩
      have hnext := (hiff s i hs hq).mpr hhead
      exact ⟨hnext, (ih (hstep s i hs) hnext).mpr htail⟩

/-- A potential that no step raises and every productive step lowers bounds the productive steps of
a run by its value at the start. -/
theorem countP_trace_le {I : σ → Prop} (productive : Transition σ ι ο → Bool) (φ : σ → ℕ)
    (hstep : ∀ s i, I s → I (M.step s i).2)
    (hle : ∀ s i, I s → φ (M.step s i).2 + (if productive (M.fire s i) then 1 else 0) ≤ φ s)
    {s : σ} (hs : I s) (is : List ι) :
    (M.trace s is).countP productive + φ (M.run s is) ≤ φ s := by
  induction is generalizing s with
  | nil => simp
  | cons i is ih =>
    have hhead := hle s i hs
    have htail := ih (hstep s i hs)
    rw [trace_cons, run_cons, List.countP_cons]
    omega

end Machine

end Lib
