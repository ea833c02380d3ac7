import Mathlib.Data.List.Nodup
import Mathlib.Data.List.Perm.Subperm
import Mathlib.Data.List.Range

/-!
# Numbered — lists numbered from one

The members of a ledger carry the numbers `1, 2, …, n` in this order.  A record is appended under the
next number or updated in place; so the numbers have neither gaps nor duplicates.
-/

namespace Lib

variable {α : Type*} {number : α → ℕ}

/-- The members of the list are numbered `1, …, n`. -/
def Numbered (number : α → ℕ) (l : List α) (n : ℕ) : Prop := l.map number = List.range' 1 n

namespace Numbered

variable {l : List α} {n : ℕ}

theorem nil : Numbered number [] 0 := rfl

theorem append (h : Numbered number l n) {a : α} (ha : number a = n + 1) :
    Numbered number (l ++ [a]) (n + 1) := by
  unfold Numbered at *
  rw [List.map_append, h, List.map_singleton, ha, List.range'_concat]
  simp [Nat.add_comm]

/-- Updates in place keep the numbers. -/
theorem map (h : Numbered number l n) {f : α → α} (hf : ∀ a ∈ l, number (f a) = number a) :
    Numbered number (l.map f) n := by
  unfold Numbered at *
  rw [List.map_map, ← h]
  exact List.map_congr_left hf

theorem bounds (h : Numbered number l n) {a : α} (ha : a ∈ l) : 1 ≤ number a ∧ number a ≤ n := by
  have hmem : number a ∈ List.range' 1 n := h ▸ List.mem_map_of_mem ha
  rw [List.mem_range'_1] at hmem
  omega

theorem exists_mem (h : Numbered number l n) {k : ℕ} (hk : 1 ≤ k) (hkn : k ≤ n) :
    ∃ a ∈ l, number a = k := by
  have hmem : k ∈ l.map number := by
    rw [h, List.mem_range'_1]
    omega
  exact List.mem_map.mp hmem

theorem nodup (h : Numbered number l n) : (l.map number).Nodup := by
  rw [h]
  exact List.nodup_range'

theorem inj (h : Numbered number l n) {a b : α} (ha : a ∈ l) (hb : b ∈ l)
    (heq : number a = number b) : a = b :=
  List.inj_on_of_nodup_map h.nodup ha hb heq

/-- Members with numbers in an interval are at most as many as the interval is long. -/
theorem length_filter_le (h : Numbered number l n) (p : α → Bool) {low high : ℕ}
    (hp : ∀ a ∈ l, p a = true → low ≤ number a ∧ number a ≤ high) :
    (l.filter p).length ≤ high + 1 - low := by
  have hnodup : ((l.filter p).map number).Nodup :=
    h.nodup.sublist (List.filter_sublist.map number)
  have hsubset : (l.filter p).map number ⊆ List.range' low (high + 1 - low) := by
    intro k hk
    obtain ⟨a, ha, rfl⟩ := List.mem_map.mp hk
    obtain ⟨hmem, hpa⟩ := List.mem_filter.mp ha
    obtain ⟨hlow, hhigh⟩ := hp a hmem hpa
    rw [List.mem_range'_1]
    omega
  have hlength := (List.subperm_of_subset hnodup hsubset).length_le
  rwa [List.length_map, List.length_range'] at hlength

end Numbered

end Lib
