import JbOrchestrator.Lib.Text
import Mathlib.Algebra.Group.Nat.Defs
import Mathlib.Data.Nat.Notation
import Mathlib.Data.List.Basic

/-!
# Uuid — the text of a UUID

A UUID is the number of its 128 bits; its text is the 32 hexadecimal digits in five groups.
-/

namespace Lib.Uuid

/-- The digits, with leading zeros. -/
def hex (id : ℕ) : List Char :=
  List.replicate (32 - (Nat.toDigits 16 id).length) '0' ++ Nat.toDigits 16 id

/-- `str(id)`. -/
def text (id : ℕ) : List Char :=
  (hex id).take 8 ++ '-' :: ((hex id).drop 8).take 4 ++ '-' :: ((hex id).drop 12).take 4 ++
    '-' :: ((hex id).drop 16).take 4 ++ '-' :: (hex id).drop 20

/-- `UUID(text)` for a text of hexadecimal digits and hyphens. -/
def ofText (text : List Char) : Option ℕ :=
  let digits := text.filter fun c => c ≠ '-'
  if digits.length = 32 ∧ digits.all Text.isHexDigit = true then some (Text.hexToNat digits) else none

theorem digitChar_spec {d : ℕ} (h : d < 16) :
    Text.isHexDigit (Nat.digitChar d) = true ∧ Text.hexDigitToNat (Nat.digitChar d) = d ∧
      Nat.digitChar d ≠ '-' := by
  have hall : ∀ d < 16, Text.isHexDigit (Nat.digitChar d) = true ∧
      Text.hexDigitToNat (Nat.digitChar d) = d ∧ Nat.digitChar d ≠ '-' := by decide
  exact hall d h

theorem hexToNat_append (cs : List Char) (c : Char) :
    Text.hexToNat (cs ++ [c]) = 16 * Text.hexToNat cs + Text.hexDigitToNat c := by
  unfold Text.hexToNat
  rw [List.foldl_append]
  rfl

/-- Every digit is one, and together they spell the number. -/
theorem toDigits_spec (n : ℕ) : (∀ c ∈ Nat.toDigits 16 n, Text.isHexDigit c = true ∧ c ≠ '-') ∧
    Text.hexToNat (Nat.toDigits 16 n) = n := by
  induction n using Nat.strong_induction_on with
  | h n ih =>
    rw [Nat.toDigits_eq_if (by decide)]
    split
    · rename_i hlt
      obtain ⟨hhex, hvalue, hne⟩ := digitChar_spec hlt
      constructor
      · intro c hc
        rw [List.mem_singleton.mp hc]
        exact ⟨hhex, hne⟩
      · show 16 * 0 + Text.hexDigitToNat n.digitChar = n
        rw [hvalue]
        omega
    · rename_i hge
      obtain ⟨hchars, hvalue⟩ := ih (n / 16) (by omega)
      obtain ⟨hhex, hlast, hne⟩ := digitChar_spec (Nat.mod_lt n (by decide : 0 < 16))
      constructor
      · intro c hc
        rcases List.mem_append.mp hc with hc | hc
        · exact hchars c hc
        · rw [List.mem_singleton.mp hc]
          exact ⟨hhex, hne⟩
      · rw [hexToNat_append, hvalue, hlast]
        omega

theorem hexToNat_zeros (k : ℕ) (cs : List Char) :
    Text.hexToNat (List.replicate k '0' ++ cs) = Text.hexToNat cs := by
  unfold Text.hexToNat
  induction k with
  | zero => rfl
  | succ k ih => exact ih

theorem hexToNat_hex (id : ℕ) : Text.hexToNat (hex id) = id := by
  unfold hex
  rw [hexToNat_zeros, (toDigits_spec id).2]

theorem hex_chars {id : ℕ} {c : Char} (hc : c ∈ hex id) : Text.isHexDigit c = true ∧ c ≠ '-' := by
  unfold hex at hc
  rcases List.mem_append.mp hc with hc | hc
  · rw [List.eq_of_mem_replicate hc]
    decide
  · exact (toDigits_spec id).1 c hc

/-- The text without its hyphens. -/
theorem filter_text (id : ℕ) : ((text id).filter fun c => c ≠ '-') = hex id := by
  have hkeep : ∀ cs : List Char, (∀ c ∈ cs, c ∈ hex id) → (cs.filter fun c => decide (c ≠ '-')) = cs := by
    intro cs hcs
    apply List.filter_eq_self.mpr
    intro c hc
    exact decide_eq_true (hex_chars (hcs c hc)).2
  have htake : ∀ i j : ℕ, ∀ c ∈ ((hex id).drop i).take j, c ∈ hex id := fun i j c hc =>
    List.mem_of_mem_drop (List.mem_of_mem_take hc)
  have hhyphen : ∀ cs : List Char, (('-' :: cs).filter fun c => decide (c ≠ '-')) =
      cs.filter fun c => decide (c ≠ '-') := fun cs => rfl
  unfold text
  simp only [List.filter_append, List.cons_append, List.append_assoc, hhyphen]
  rw [hkeep _ (htake 8 4), hkeep _ (htake 12 4), hkeep _ (htake 16 4),
    hkeep _ (fun c hc => List.mem_of_mem_take hc), hkeep _ (fun c hc => List.mem_of_mem_drop hc)]
  have hsplit : ∀ i j : ℕ, ((hex id).drop i).take j ++ (hex id).drop (i + j) = (hex id).drop i := by
    intro i j
    rw [← List.drop_drop]
    exact List.take_append_drop j _
  rw [hsplit 16 4, hsplit 12 4, hsplit 8 4]
  exact List.take_append_drop 8 _

theorem text_injective {id id' : ℕ} (h : text id = text id') : id = id' := by
  rw [← hexToNat_hex id, ← hexToNat_hex id', ← filter_text, ← filter_text, h]

/-- A number of at most 128 bits is read back from its text. -/
theorem ofText_text {id : ℕ} (h : id < 2 ^ 128) : ofText (text id) = some id := by
  have hlength : (hex id).length = 32 := by
    have hle : (Nat.toDigits 16 id).length ≤ 32 :=
      (Nat.length_toDigits_le_iff (by decide) (by decide)).mpr (by
        have hpow : (16 : ℕ) ^ 32 = 2 ^ 128 := by decide
        omega)
    unfold hex
    rw [List.length_append, List.length_replicate]
    omega
  unfold ofText
  dsimp only
  rw [filter_text, if_pos, hexToNat_hex]
  exact ⟨hlength, List.all_eq_true.mpr fun c hc => (hex_chars hc).1⟩

end Lib.Uuid
