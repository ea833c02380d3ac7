import JbOrchestrator.Lib.Related

/-!
# Results — computations that may raise

What is known of a sequence of two computations from the result of the whole.
-/

namespace Lib

variable {ε α β : Type} {x : Except ε α} {f : α → Except ε β}

theorem bind_ok {b : β} (h : x >>= f = .ok b) : ∃ a, x = .ok a ∧ f a = .ok b := by
  cases x with
  | error => cases h
  | ok a => exact ⟨a, rfl, h⟩

theorem bind_error {e : ε} (h : x >>= f = .error e) :
    x = .error e ∨ ∃ a, x = .ok a ∧ f a = .error e := by
  cases x with
  | error e' =>
    left
    exact congrArg _ (Except.error.inj h)
  | ok a =>
    right
    exact ⟨a, rfl, h⟩

/-! ## Lists of computations -/

theorem mapM_eq_ok {xs : List α} {ys : List β} :
    xs.mapM f = .ok ys ↔ List.Forall₂ (fun x y => f x = .ok y) xs ys := by
  induction xs generalizing ys with
  | nil =>
    rw [List.forall₂_nil_left_iff]
    exact ⟨fun h => (Except.ok.inj h).symm, fun h => by rw [h]; rfl⟩
  | cons x xs ih =>
    rw [List.mapM_cons, List.forall₂_cons_left_iff]
    constructor
    · intro h
      obtain ⟨y, hy, h⟩ := bind_ok h
      obtain ⟨ys', hys, h⟩ := bind_ok h
      exact ⟨y, ys', hy, ih.mp hys, (Except.ok.inj h).symm⟩
    · rintro ⟨y, ys', hy, hys, rfl⟩
      rw [hy, ih.mpr hys]
      rfl

/-- Results are found for a list when one is found for each member. -/
theorem exists_mapM_iff {xs : List α} : (∃ ys, xs.mapM f = .ok ys) ↔ ∀ x ∈ xs, ∃ y, f x = .ok y := by
  simp only [mapM_eq_ok]
  induction xs with
  | nil => simp
  | cons x xs ih =>
    rw [List.forall_mem_cons, ← ih]
    constructor
    · rintro ⟨ys, h⟩
      obtain ⟨y, ys', hy, hys, rfl⟩ := List.forall₂_cons_left_iff.mp h
      exact ⟨⟨y, hy⟩, ys', hys⟩
    · rintro ⟨⟨y, hy⟩, ys, hys⟩
      exact ⟨y :: ys, .cons hy hys⟩

/-- A computation that answers something. -/
theorem exists_answer {α β ε : Type*} {x : Except ε (Option α × β)}
    (h : (x.toOption.bind Prod.fst).isSome = true) : ∃ a b, x = .ok (some a, b) := by
  cases x with
  | error error => cases h
  | ok answer =>
    obtain ⟨a, b⟩ := answer
    cases a with
    | none => cases h
    | some a => exact ⟨a, b, rfl⟩

end Lib
