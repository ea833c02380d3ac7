import Mathlib.Data.Rat.Defs
import Mathlib.Data.List.Basic

/-!
# Json — the values `json.loads` answers

Numbers keep the distinction Python makes between `int`, `bool` and `float`.  A finite float is the
rational it denotes, which is all that `==` sees of it.
-/

namespace Lib

inductive Scalar where
  | null
  | bool (value : Bool)
  | int (value : ℤ)
  | float (value : ℚ)
  | str (value : String)
  deriving DecidableEq, Repr

inductive Json where
  | scalar (value : Scalar)
  | list (items : List Json)
  | dict (entries : List (String × Json))
  deriving Inhabited

/-- A JSON object, the type `dict[str, Any]`. -/
abbrev JsonObject := List (String × Json)

namespace Scalar

/-- The number Python compares a scalar as: `True == 1 == 1.0`. -/
def numeric : Scalar → Option ℚ
  | .bool value => some (if value then 1 else 0)
  | .int value => some value
  | .float value => some value
  | .null => none
  | .str _ => none

/-- Python's `==`, which identifies booleans, integers and floats of one value. -/
def pyEq (a b : Scalar) : Bool :=
  match a.numeric, b.numeric with
  | some x, some y => decide (x = y)
  | _, _ => decide (a = b)

theorem pyEq_refl (a : Scalar) : a.pyEq a = true := by
  cases a <;> simp [pyEq, numeric]

end Scalar

namespace Json

def lookup (entries : JsonObject) (key : String) : Option Json :=
  (entries.find? fun entry => entry.1 = key).map Prod.snd

/-- `type(value) is type(expected) and value == expected` for a scalar `expected`. -/
def is (value : Json) (expected : Scalar) : Bool :=
  match value with
  | .scalar actual => decide (actual = expected)
  | _ => false

mutual

/-- Whether two values are built the same way, which is finer than `==`. -/
def same : Json → Json → Bool
  | .scalar a, .scalar b => decide (a = b)
  | .list as, .list bs => sameItems as bs
  | .dict as, .dict bs => sameEntries as bs
  | _, _ => false

def sameItems : List Json → List Json → Bool
  | [], [] => true
  | a :: as, b :: bs => same a b && sameItems as bs
  | _, _ => false

def sameEntries : JsonObject → JsonObject → Bool
  | [], [] => true
  | (k, a) :: as, (l, b) :: bs => decide (k = l) && same a b && sameEntries as bs
  | _, _ => false

end

mutual

theorem same_iff : (a b : Json) → (same a b = true ↔ a = b)
  | .scalar a, .scalar b => by simp [same]
  | .list as, .list bs => by simp [same, sameItems_iff as bs]
  | .dict as, .dict bs => by simp [same, sameEntries_iff as bs]
  | .scalar _, .list _ => by simp [same]
  | .scalar _, .dict _ => by simp [same]
  | .list _, .scalar _ => by simp [same]
  | .list _, .dict _ => by simp [same]
  | .dict _, .scalar _ => by simp [same]
  | .dict _, .list _ => by simp [same]

theorem sameItems_iff : (as bs : List Json) → (sameItems as bs = true ↔ as = bs)
  | [], [] => by simp [sameItems]
  | a :: as, b :: bs => by simp [sameItems, same_iff a b, sameItems_iff as bs]
  | [], _ :: _ => by simp [sameItems]
  | _ :: _, [] => by simp [sameItems]

theorem sameEntries_iff : (as bs : JsonObject) → (sameEntries as bs = true ↔ as = bs)
  | [], [] => by simp [sameEntries]
  | (k, a) :: as, (l, b) :: bs => by
    simp [sameEntries, same_iff a b, sameEntries_iff as bs]
  | [], _ :: _ => by simp [sameEntries]
  | _ :: _, [] => by simp [sameEntries]

end

instance : DecidableEq Json := fun a b => decidable_of_iff _ (same_iff a b)

mutual

/-- Python's `==`: a list item by item, an object entry by entry in any order. -/
def pyEq : Json → Json → Bool
  | .scalar a, .scalar b => a.pyEq b
  | .list as, .list bs => eqItems as bs
  | .dict as, .dict bs => as.length == bs.length && eqEntries as bs
  | _, _ => false

def eqItems : List Json → List Json → Bool
  | [], [] => true
  | a :: as, b :: bs => pyEq a b && eqItems as bs
  | _, _ => false

def eqEntries : JsonObject → JsonObject → Bool
  | [], _ => true
  | (k, a) :: as, bs => bs.any (fun entry => decide (k = entry.1) && pyEq a entry.2) && eqEntries as bs

end

mutual

theorem pyEq_refl : (a : Json) → pyEq a a = true
  | .scalar a => Scalar.pyEq_refl a
  | .list as => eqItems_refl as
  | .dict as => by
    rw [pyEq, eqEntries_of_subset as as (List.Subset.refl as), beq_self_eq_true, Bool.and_true]

theorem eqItems_refl : (as : List Json) → eqItems as as = true
  | [] => rfl
  | a :: as => by rw [eqItems, pyEq_refl a, eqItems_refl as, Bool.and_true]

theorem eqEntries_of_subset : (as bs : JsonObject) → as ⊆ bs → eqEntries as bs = true
  | [], _, _ => by rw [eqEntries]
  | (k, a) :: as, bs, h => by
    have hmem : (k, a) ∈ bs := h List.mem_cons_self
    have hany : bs.any (fun entry => decide (k = entry.1) && pyEq a entry.2) = true := by
      apply List.any_eq_true.mpr
      exact ⟨(k, a), hmem, by rw [pyEq_refl a, decide_eq_true rfl, Bool.and_true]⟩
    rw [eqEntries, hany, Bool.true_and]
    exact eqEntries_of_subset as bs fun _ hx => h (List.mem_cons_of_mem _ hx)

end

end Json

end Lib
