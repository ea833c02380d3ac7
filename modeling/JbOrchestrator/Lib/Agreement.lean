import Mathlib.Logic.Basic

/-!
# Agreement — computations that answer alike from related states

A computation agrees with itself along a relation on states when it answers the same from related
states and leaves related states again.  The rules below follow the constructs of the monad, so that an
agreement is proved along the text of a computation.
-/

namespace Lib

variable {ε σ α β : Type}

/-- The same value or the same error, in related states. -/
inductive Answers (R : σ → σ → Prop) : EStateM.Result ε σ α → EStateM.Result ε σ α → Prop where
  | ok (value : α) {s s' : σ} (h : R s s') : Answers R (.ok value s) (.ok value s')
  | error (error : ε) {s s' : σ} (h : R s s') : Answers R (.error error s) (.error error s')

def Agrees (R : σ → σ → Prop) (x : EStateM ε σ α) : Prop := ∀ s s', R s s' → Answers R (x s) (x s')

namespace Agrees

variable {R : σ → σ → Prop}

theorem pure (a : α) : Agrees R (Pure.pure a : EStateM ε σ α) := fun _ _ h => .ok a h

theorem throw (e : ε) : Agrees R (MonadExcept.throw e : EStateM ε σ α) := fun _ _ h => .error e h

theorem bind {x : EStateM ε σ α} {f : α → EStateM ε σ β} (hx : Agrees R x) (hf : ∀ a, Agrees R (f a)) :
    Agrees R (x >>= f) := by
  intro s s' h
  have hanswers := hx s s' h
  change Answers R (EStateM.bind x f s) (EStateM.bind x f s')
  unfold EStateM.bind
  generalize x s = result, x s' = result' at hanswers
  cases hanswers with
  | ok value hnext => exact hf value _ _ hnext
  | error error hnext => exact .error error hnext

theorem map {x : EStateM ε σ α} (hx : Agrees R x) (f : α → β) : Agrees R (f <$> x) := by
  intro s s' h
  have hanswers := hx s s' h
  change Answers R (EStateM.map f x s) (EStateM.map f x s')
  unfold EStateM.map
  generalize x s = result, x s' = result' at hanswers
  cases hanswers with
  | ok value hnext => exact .ok (f value) hnext
  | error error hnext => exact .error error hnext

theorem update {f : σ → σ} (hf : ∀ s s', R s s' → R (f s) (f s')) :
    Agrees R (modify f : EStateM ε σ PUnit) :=
  fun s s' h => .ok PUnit.unit (hf s s' h)

/-- What is done with the state that was read depends on what related states share. -/
theorem get_bind {f : σ → EStateM ε σ α} (hread : ∀ s s', R s s' → f s' = f s)
    (hf : ∀ s, Agrees R (f s)) : Agrees R (get >>= f) := by
  intro s s' h
  change Answers R (f s s) (f s' s')
  rw [hread s s' h]
  exact hf s s s' h

theorem ite {p : Prop} [Decidable p] {x y : EStateM ε σ α} (hx : Agrees R x) (hy : Agrees R y) :
    Agrees R (if p then x else y) := by
  split
  · exact hx
  · exact hy

end Agrees

end Lib
