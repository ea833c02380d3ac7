import Mathlib.Algebra.BigOperators.Group.List.Basic
import Mathlib.Algebra.Order.Floor.Ring
import Mathlib.Data.Rat.Floor
import Mathlib.Tactic.FieldSimp
import Mathlib.Tactic.Linarith
import Mathlib.Tactic.Positivity
import Mathlib.Tactic.Ring

/-!
# Rounding — decimals with a fixed number of places

`quantize` rounds a number to a number of decimal places, ties to even.  Numbers that have no more
places already are left as they are, and sums and differences of such numbers are such numbers.
-/

namespace Lib

/-- `ROUND_HALF_EVEN` to an integer. -/
def roundHalfEven (q : ℚ) : ℤ :=
  if q - ⌊q⌋ < 1 / 2 then ⌊q⌋
  else if 1 / 2 < q - ⌊q⌋ then ⌊q⌋ + 1
  else if ⌊q⌋ % 2 = 0 then ⌊q⌋ else ⌊q⌋ + 1

/-- `Decimal.quantize` to `places` decimal places. -/
def quantize (places : ℕ) (q : ℚ) : ℚ := roundHalfEven (q * 10 ^ places) / 10 ^ places

/-- The number has at most `places` decimal places. -/
def Exact (places : ℕ) (q : ℚ) : Prop := ∃ n : ℤ, q = n / 10 ^ places

variable {places : ℕ} {p q : ℚ}

theorem roundHalfEven_intCast (n : ℤ) : roundHalfEven n = n := by
  unfold roundHalfEven
  rw [Int.floor_intCast, sub_self, if_pos (by norm_num)]

/-- A number and its rounding are at most one half apart. -/
theorem roundHalfEven_near (q : ℚ) :
    q - 1 / 2 ≤ roundHalfEven q ∧ (roundHalfEven q : ℚ) ≤ q + 1 / 2 := by
  have hfloor := Int.floor_le q
  have hceil := Int.lt_floor_add_one q
  unfold roundHalfEven
  split
  · constructor <;> linarith
  · rename_i hhalf
    have hup : q - 1 / 2 ≤ ((⌊q⌋ + 1 : ℤ) : ℚ) ∧ ((⌊q⌋ + 1 : ℤ) : ℚ) ≤ q + 1 / 2 := by
      push_cast
      constructor <;> linarith
    split
    · exact hup
    · -- a tie: both neighbours are one half away
      split
      · constructor <;> linarith
      · exact hup

theorem roundHalfEven_mono (h : p ≤ q) : roundHalfEven p ≤ roundHalfEven q := by
  by_contra hlt
  rw [not_le, ← Int.add_one_le_iff] at hlt
  have hstep : (roundHalfEven q : ℚ) + 1 ≤ roundHalfEven p := by exact_mod_cast hlt
  have hp := (roundHalfEven_near p).2
  have hq := (roundHalfEven_near q).1
  -- there is no room between the two numbers, so they are one tie
  have hsame : p = q := by linarith
  rw [hsame] at hlt
  omega

theorem quantize_mono (h : p ≤ q) : quantize places p ≤ quantize places q := by
  have hscaled : p * 10 ^ places ≤ q * 10 ^ places :=
    mul_le_mul_of_nonneg_right h (by positivity)
  have hrounded : (roundHalfEven (p * 10 ^ places) : ℚ) ≤ roundHalfEven (q * 10 ^ places) := by
    exact_mod_cast roundHalfEven_mono hscaled
  exact div_le_div_of_nonneg_right hrounded (by positivity)

theorem exact_quantize (places : ℕ) (q : ℚ) : Exact places (quantize places q) := ⟨_, rfl⟩

theorem Exact.quantize_eq (h : Exact places q) : quantize places q = q := by
  obtain ⟨n, rfl⟩ := h
  have hpos : (10 : ℚ) ^ places ≠ 0 := by positivity
  unfold quantize
  rw [div_mul_cancel₀ _ hpos, roundHalfEven_intCast]

theorem Exact.zero : Exact places 0 := ⟨0, by simp⟩

theorem Exact.add (hp : Exact places p) (hq : Exact places q) : Exact places (p + q) := by
  obtain ⟨m, rfl⟩ := hp
  obtain ⟨n, rfl⟩ := hq
  use m + n
  push_cast
  ring

theorem Exact.sub (hp : Exact places p) (hq : Exact places q) : Exact places (p - q) := by
  obtain ⟨m, rfl⟩ := hp
  obtain ⟨n, rfl⟩ := hq
  use m - n
  push_cast
  ring

theorem Exact.sum {l : List ℚ} (h : ∀ q ∈ l, Exact places q) : Exact places l.sum := by
  induction l with
  | nil => exact Exact.zero
  | cons q l ih =>
    rw [List.forall_mem_cons] at h
    rw [List.sum_cons]
    exact h.1.add (ih h.2)

end Lib
