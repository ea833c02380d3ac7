import Mathlib.Data.Option.Basic

/-!
# Sql — conditions with NULL

The three truth values of SQL and the operators that the queries use.  A row is selected where its
condition is true; a comparison with NULL is NULL, and NULL selects nothing.
-/

namespace Lib.Sql

/-- The value of a condition; `none` is NULL. -/
abbrev Truth := Option Bool

def selects (condition : Truth) : Bool := condition = some true

def conj : Truth → Truth → Truth
  | some false, _ | _, some false => some false
  | some true, some true => some true
  | _, _ => none

def disj : Truth → Truth → Truth
  | some true, _ | _, some true => some true
  | some false, some false => some false
  | _, _ => none

/-- `a = b` of two columns. -/
def eq {α : Type*} [DecidableEq α] (a b : Option α) : Truth :=
  a.bind fun x => b.map fun y => decide (x = y)

/-- `a <= b` of two columns. -/
def le {α : Type*} [LE α] [DecidableLE α] (a b : Option α) : Truth :=
  a.bind fun x => b.map fun y => decide (x ≤ y)

/-- `condition IS TRUE`, which is never NULL. -/
def isTrue (condition : Truth) : Truth := some (selects condition)

/-- `a IS NOT NULL`. -/
def isNotNull {α : Type*} (a : Option α) : Truth := some a.isSome

section

variable {α : Type*}

@[simp] theorem selects_some (b : Bool) : selects (some b) = b := by
  cases b <;> rfl

@[simp] theorem selects_conj (a b : Truth) : selects (conj a b) = (selects a && selects b) := by
  rcases a with _ | _ | _ <;> rcases b with _ | _ | _ <;> rfl

@[simp] theorem selects_disj (a b : Truth) : selects (disj a b) = (selects a || selects b) := by
  rcases a with _ | _ | _ <;> rcases b with _ | _ | _ <;> rfl

@[simp] theorem selects_eq [DecidableEq α] (a b : α) :
    selects (eq (some a) (some b)) = decide (a = b) := by
  show selects (some (decide (a = b))) = _
  rw [selects_some]

@[simp] theorem selects_le [LE α] [DecidableLE α] (a : Option α) (b : α) :
    selects (le a (some b)) = a.any fun x => decide (x ≤ b) := by
  cases a with
  | none => rfl
  | some x =>
    show selects (some (decide (x ≤ b))) = decide (x ≤ b)
    rw [selects_some]

@[simp] theorem selects_isTrue (a : Truth) : selects (isTrue a) = decide (a = some true) := by
  show selects (some (selects a)) = _
  rw [selects_some]
  rfl

@[simp] theorem selects_isNotNull (a : Option α) : selects (isNotNull a) = a.isSome := by
  show selects (some a.isSome) = _
  rw [selects_some]

end

end Lib.Sql
