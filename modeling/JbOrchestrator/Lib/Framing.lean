import Mathlib.Algebra.Group.Nat.Defs
import Mathlib.Data.Set.Prod

/-!
# Framing — encodings that can be read back one after the other

An encoding is framed on a set when the code of a member can be split off the front of any text.  A
fixed width frames an encoding, and so does a length in front of it; framed codes in a row are read back
in one way.
-/

namespace Lib

variable {α β γ : Type*}

/-- The code of a member of `s` is read off the front of a text in one way. -/
def Framed (s : Set α) (code : α → List β) : Prop :=
  ∀ a ∈ s, ∀ b ∈ s, ∀ x y, code a ++ x = code b ++ y → a = b ∧ x = y

namespace Framed

variable {s : Set α} {t : Set γ} {code : α → List β} {code' : γ → List β}

theorem of_length {width : ℕ} (hwidth : ∀ a, (code a).length = width)
    (hinj : ∀ a ∈ s, ∀ b ∈ s, code a = code b → a = b) : Framed s code := by
  intro a ha b hb x y h
  have hlength : (code a).length = (code b).length := (hwidth a).trans (hwidth b).symm
  obtain ⟨hcode, hrest⟩ := List.append_inj h hlength
  exact ⟨hinj a ha b hb hcode, hrest⟩

/-- A text behind its length. -/
theorem behind_length {lengths : Set ℕ} {header : ℕ → List β} (h : Framed lengths header) :
    Framed {text : List β | text.length ∈ lengths} fun text => header text.length ++ text := by
  intro text htext other hother x y heq
  simp only [List.append_assoc] at heq
  obtain ⟨hlength, hrest⟩ := h _ htext _ hother _ _ heq
  exact List.append_inj hrest hlength

/-- One framed code behind another. -/
theorem pair (h : Framed s code) (h' : Framed t code') :
    Framed (s ×ˢ t) fun p => code p.1 ++ code' p.2 := by
  intro p hp q hq x y heq
  simp only [List.append_assoc] at heq
  obtain ⟨hfst, hrest⟩ := h _ hp.1 _ hq.1 _ _ heq
  obtain ⟨hsnd, hxy⟩ := h' _ hp.2 _ hq.2 _ _ hrest
  exact ⟨Prod.ext hfst hsnd, hxy⟩

/-- Framed codes in a row are read back in one way. -/
theorem flatMap_inj (h : Framed s code) (hne : ∀ a, code a ≠ []) {as bs : List α}
    (has : ∀ a ∈ as, a ∈ s) (hbs : ∀ b ∈ bs, b ∈ s) (heq : as.flatMap code = bs.flatMap code) :
    as = bs := by
  induction as generalizing bs with
  | nil =>
    cases bs with
    | nil => rfl
    | cons b bs => exact absurd (List.append_eq_nil_iff.mp heq.symm).1 (hne b)
  | cons a as ih =>
    cases bs with
    | nil => exact absurd (List.append_eq_nil_iff.mp heq).1 (hne a)
    | cons b bs =>
      rw [List.forall_mem_cons] at has hbs
      rw [List.flatMap_cons, List.flatMap_cons] at heq
      obtain ⟨hab, hrest⟩ := h a has.1 b hbs.1 _ _ heq
      rw [hab, ih has.2 hbs.2 hrest]

end Framed

/-! ## Numbers of a fixed width -/

/-- The last `width` bytes of a number, the high one first. -/
def bigEndian : ℕ → ℕ → List UInt8
  | 0, _ => []
  | width + 1, n => bigEndian width (n / 256) ++ [UInt8.ofNat n]

@[simp] theorem length_bigEndian (width n : ℕ) : (bigEndian width n).length = width := by
  induction width generalizing n with
  | zero => rfl
  | succ width ih => rw [bigEndian, List.length_append, ih, List.length_singleton]

theorem bigEndian_inj {width m n : ℕ} (hm : m < 256 ^ width) (hn : n < 256 ^ width)
    (h : bigEndian width m = bigEndian width n) : m = n := by
  induction width generalizing m n with
  | zero =>
    rw [Nat.pow_zero] at hm hn
    omega
  | succ width ih =>
    rw [Nat.pow_succ] at hm hn
    obtain ⟨hhigh, hlow⟩ := List.append_inj' h rfl
    have hquotient : m / 256 = n / 256 :=
      ih (Nat.div_lt_of_lt_mul (by omega)) (Nat.div_lt_of_lt_mul (by omega)) hhigh
    have hbyte : (UInt8.ofNat m).toNat = (UInt8.ofNat n).toNat := by rw [(List.cons.inj hlow).1]
    rw [UInt8.toNat_ofNat', UInt8.toNat_ofNat'] at hbyte
    omega

theorem framed_bigEndian (width : ℕ) : Framed {n | n < 256 ^ width} (bigEndian width) :=
  Framed.of_length (length_bigEndian width) fun _ hm _ hn h => bigEndian_inj hm hn h

end Lib
