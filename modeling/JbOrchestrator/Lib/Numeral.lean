import JbOrchestrator.Lib.Rounding
import Mathlib.Data.Rat.Cast.Defs

/-!
# Numeral — finite decimal numbers and the texts they are written as

A numeral keeps its sign, its digits and its exponent: `1.5` and `1.50` are two numerals of one
value.  `str` writes a numeral in scientific notation where its plain form would need padding, and
the text can be read back, so two numerals with one text are equal.  `normalize` rounds to a number
of digits and drops the trailing zeros; a column of a database keeps a fixed number of places.
-/

namespace Lib

/-- The number `± coefficient * 10 ^ exponent`. -/
structure Numeral where
  negative : Bool := false
  coefficient : ℕ
  exponent : ℤ := 0
  deriving DecidableEq, Repr

namespace Numeral

/-! ## 1. The text of a numeral -/

def digits (n : Numeral) : List Char := Nat.toDigits 10 n.coefficient

/-- What stands before and behind the dot, and the exponent that is written. -/
structure Layout where
  whole : List Char
  fraction : List Char
  exponent : ℤ

/-- Where the dot stands among the digits. -/
def dotPlace (n : Numeral) : ℤ :=
  let left := n.exponent + n.digits.length
  -- No exponent is written where the plain form pads neither behind nor much before the digits.
  if n.exponent ≤ 0 ∧ -6 < left then left else 1

def layout (n : Numeral) : Layout :=
  let dot := n.dotPlace
  let exponent := n.exponent + n.digits.length - dot
  if dot ≤ 0 then ⟨['0'], List.replicate (-dot).toNat '0' ++ n.digits, exponent⟩
  else if n.digits.length ≤ dot then
    ⟨n.digits ++ List.replicate (dot.toNat - n.digits.length) '0', [], exponent⟩
  else ⟨n.digits.take dot.toNat, n.digits.drop dot.toNat, exponent⟩

/-- The format `%+d`. -/
def signedDigits (e : ℤ) : List Char :=
  (if e < 0 then '-' else '+') :: Nat.toDigits 10 e.natAbs

def Layout.write (l : Layout) : List Char :=
  l.whole ++ (if l.fraction = [] then [] else '.' :: l.fraction) ++
    if l.exponent = 0 then [] else 'E' :: signedDigits l.exponent

def toChars (n : Numeral) : List Char :=
  if n.negative then '-' :: n.layout.write else n.layout.write

def str (n : Numeral) : String := String.ofList n.toChars

/-! ## 2. Reading the text back -/

def readSigned : List Char → ℤ
  | [] => 0
  | sign :: cs => if sign = '-' then -Nat.ofDigitChars 10 cs 0 else Nat.ofDigitChars 10 cs 0

/-- The layout a text was written from. -/
def Layout.read (cs : List Char) : Layout :=
  let mantissa := cs.takeWhile (· ≠ 'E')
  { whole := mantissa.takeWhile (· ≠ '.')
    fraction := (mantissa.dropWhile (· ≠ '.')).tail
    exponent := readSigned (cs.dropWhile (· ≠ 'E')).tail }

def Layout.numeral (l : Layout) (negative : Bool) : Numeral where
  negative := negative
  coefficient := Nat.ofDigitChars 10 (l.whole ++ l.fraction) 0
  exponent := l.exponent - l.fraction.length

def ofChars : List Char → Numeral
  | '-' :: cs => (Layout.read cs).numeral true
  | cs => (Layout.read cs).numeral false

/-- All characters are digits. -/
def AllDigits (cs : List Char) : Prop := ∀ c ∈ cs, c.isDigit = true

theorem AllDigits.append {cs ds : List Char} (hcs : AllDigits cs) (hds : AllDigits ds) :
    AllDigits (cs ++ ds) := by
  intro c hc
  rcases List.mem_append.mp hc with h | h
  · exact hcs c h
  · exact hds c h

theorem allDigits_replicate (k : ℕ) : AllDigits (List.replicate k '0') := by
  intro c hc
  rw [List.eq_of_mem_replicate hc]
  decide

theorem allDigits_digits (n : Numeral) : AllDigits n.digits :=
  fun _ hc => Nat.isDigit_of_mem_toDigits (by decide) (by decide) hc

theorem AllDigits.ne {cs : List Char} (h : AllDigits cs) {c d : Char} (hc : c ∈ cs)
    (hd : d.isDigit = false) : c ≠ d := by
  rintro rfl
  rw [h c hc] at hd
  cases hd

/-- Both parts of a layout are digits, and there is one before the dot. -/
theorem layout_digits (n : Numeral) :
    AllDigits n.layout.whole ∧ AllDigits n.layout.fraction ∧ n.layout.whole ≠ [] := by
  have hdigits := n.allDigits_digits
  have hne : n.digits ≠ [] := Nat.toDigits_ne_nil
  unfold layout
  dsimp only
  split
  · refine ⟨?_, (allDigits_replicate _).append hdigits, by simp⟩
    intro c hc
    rw [List.mem_singleton.mp hc]
    decide
  · rename_i hpos
    split
    · exact ⟨hdigits.append (allDigits_replicate _), by simp [AllDigits], by simp [hne]⟩
    · rename_i hlt
      refine ⟨fun c hc => hdigits c (List.mem_of_mem_take hc),
        fun c hc => hdigits c (List.mem_of_mem_drop hc), ?_⟩
      rw [ne_eq, List.take_eq_nil_iff]
      simp only [hne, or_false]
      omega

theorem layout_numeral (n : Numeral) : n.layout.numeral n.negative = n := by
  have hcoefficient : Nat.ofDigitChars 10 n.digits 0 = n.coefficient := Nat.ofDigitChars_ten_toDigits
  have hpos : 0 < n.digits.length := Nat.length_toDigits_pos
  have hdot : n.dotPlace = n.exponent + n.digits.length ∧ n.exponent ≤ 0 ∨ n.dotPlace = 1 := by
    unfold dotPlace
    dsimp only
    split
    · rename_i h
      exact Or.inl ⟨rfl, h.1⟩
    · exact Or.inr rfl
  have hext : ∀ coefficient exponent, coefficient = n.coefficient → exponent = n.exponent →
      (⟨n.negative, coefficient, exponent⟩ : Numeral) = n := by
    rintro _ _ rfl rfl
    rfl
  unfold layout Layout.numeral
  dsimp only
  split
  · apply hext
    · show Nat.ofDigitChars 10 (List.replicate ((-n.dotPlace).toNat + 1) '0' ++ n.digits) 0 = _
      rw [Nat.ofDigitChars_append, Nat.ofDigitChars_replicate_zero, Nat.mul_zero]
      exact hcoefficient
    · show n.exponent + n.digits.length - n.dotPlace - (_ : ℕ) = n.exponent
      rw [List.length_append, List.length_replicate]
      omega
  · split
    · -- The padding is empty: the dot stands behind the last digit.
      have hpad : n.dotPlace.toNat - n.digits.length = 0 := by omega
      apply hext
      · rw [hpad, List.replicate_zero, List.append_nil, List.append_nil]
        exact hcoefficient
      · show n.exponent + n.digits.length - n.dotPlace - (_ : ℕ) = n.exponent
        rw [List.length_nil]
        omega
    · apply hext
      · rw [List.take_append_drop]
        exact hcoefficient
      · show n.exponent + n.digits.length - n.dotPlace - (_ : ℕ) = n.exponent
        rw [List.length_drop]
        omega

theorem readSigned_signedDigits (e : ℤ) : readSigned (signedDigits e) = e := by
  have hvalue : Nat.ofDigitChars 10 (Nat.toDigits 10 e.natAbs) 0 = e.natAbs :=
    Nat.ofDigitChars_ten_toDigits
  unfold signedDigits
  by_cases he : e < 0
  · rw [if_pos he]
    show -((Nat.ofDigitChars 10 (Nat.toDigits 10 e.natAbs) 0 : ℕ) : ℤ) = e
    rw [hvalue]
    omega
  · rw [if_neg he]
    show ((Nat.ofDigitChars 10 (Nat.toDigits 10 e.natAbs) 0 : ℕ) : ℤ) = e
    rw [hvalue]
    omega

/-- A run of characters that satisfy a test ends at the first one that does not. -/
theorem takeWhile_append_of_all {p : Char → Bool} {cs : List Char} (h : ∀ c ∈ cs, p c = true)
    (rest : List Char) :
    (cs ++ rest).takeWhile p = cs ++ rest.takeWhile p ∧
      (cs ++ rest).dropWhile p = rest.dropWhile p := by
  constructor
  · exact List.takeWhile_append_of_pos h
  · exact List.dropWhile_append_of_pos h

theorem read_write {l : Layout} (hwhole : AllDigits l.whole) (hfraction : AllDigits l.fraction) :
    Layout.read l.write = l := by
  let mantissa := l.whole ++ if l.fraction = [] then [] else '.' :: l.fraction
  let tail := if l.exponent = 0 then [] else 'E' :: signedDigits l.exponent
  have hmantissa : ∀ c ∈ mantissa, decide (c ≠ 'E') = true := by
    intro c hc
    apply decide_eq_true
    rcases List.mem_append.mp hc with hc | hc
    · exact hwhole.ne hc (by decide)
    · by_cases hnil : l.fraction = []
      · rw [if_pos hnil] at hc
        cases hc
      · rw [if_neg hnil, List.mem_cons] at hc
        rcases hc with rfl | hc
        · decide
        · exact hfraction.ne hc (by decide)
  have htail : tail.takeWhile (fun c => decide (c ≠ 'E')) = [] ∧
      readSigned (tail.dropWhile fun c => decide (c ≠ 'E')).tail = l.exponent := by
    by_cases hzero : l.exponent = 0
    · simp [tail, hzero, readSigned]
    · simp [tail, hzero, readSigned_signedDigits]
  have hdot : ∀ c ∈ l.whole, decide (c ≠ '.') = true := fun c hc =>
    decide_eq_true (hwhole.ne hc (by decide))
  have hsplit : mantissa.takeWhile (fun c => decide (c ≠ '.')) = l.whole ∧
      (mantissa.dropWhile fun c => decide (c ≠ '.')).tail = l.fraction := by
    rw [(takeWhile_append_of_all hdot _).1, (takeWhile_append_of_all hdot _).2]
    by_cases hnil : l.fraction = []
    · simp [hnil]
    · simp [hnil]
  have hwrite : l.write = mantissa ++ tail := rfl
  unfold Layout.read
  dsimp only
  rw [hwrite, (takeWhile_append_of_all hmantissa _).1, (takeWhile_append_of_all hmantissa _).2,
    htail.1, List.append_nil, hsplit.1, hsplit.2, htail.2]

/-- The text of a numeral reads back as the numeral. -/
theorem ofChars_toChars (n : Numeral) : ofChars n.toChars = n := by
  obtain ⟨hwhole, hfraction, hne⟩ := n.layout_digits
  have hread := read_write hwhole hfraction
  have hnumeral := n.layout_numeral
  unfold toChars
  cases hnegative : n.negative with
  | true =>
    rw [hnegative] at hnumeral
    rw [if_pos rfl, ofChars, hread]
    exact hnumeral
  | false =>
    rw [hnegative] at hnumeral
    rw [if_neg (by decide)]
    -- The text starts with a digit, so the case of the sign does not apply.
    have hhead : ∀ cs, n.layout.write ≠ '-' :: cs := by
      intro cs hcs
      cases hw : n.layout.whole with
      | nil => exact hne hw
      | cons c rest =>
        have hc : c = '-' := by
          simp only [Layout.write, hw, List.cons_append, List.cons.injEq] at hcs
          exact hcs.1
        have hdigit := hwhole c (by simp [hw])
        rw [hc] at hdigit
        cases hdigit
    rw [ofChars]
    · rw [hread]
      exact hnumeral
    · exact hhead

theorem str_injective {m n : Numeral} (h : m.str = n.str) : m = n := by
  have hchars : m.toChars = n.toChars := by
    simpa [str] using congrArg String.toList h
  rw [← ofChars_toChars m, ← ofChars_toChars n, hchars]

example : (⟨false, 1, 1⟩ : Numeral).str = "1E+1" ∧ (⟨true, 150, -2⟩ : Numeral).str = "-1.50" := by
  decide +kernel

/-! ## 3. Normal numerals -/

/-- Moves trailing zeros into the exponent, at most `fuel` of them. -/
def trim : ℕ → ℕ → ℤ → ℕ × ℤ
  | 0, c, e => (c, e)
  | fuel + 1, c, e => if c % 10 = 0 then trim fuel (c / 10) (e + 1) else (c, e)

/-- Rounds to `precision` digits, ties to even. -/
def rounded (precision : ℕ) (n : Numeral) : Numeral :=
  if n.digits.length ≤ precision then n
  else
    let dropped := n.digits.length - precision
    { n with
      coefficient := (roundHalfEven (n.coefficient / 10 ^ dropped)).toNat
      exponent := n.exponent + dropped }

/-- `Decimal.normalize` in a context of `precision` digits. -/
def normalize (precision : ℕ) (n : Numeral) : Numeral :=
  let r := n.rounded precision
  if r.coefficient = 0 then { n with coefficient := 0, exponent := 0 }
  else
    let t := trim r.digits.length r.coefficient r.exponent
    { n with coefficient := t.1, exponent := t.2 }

/-- The numerals `normalize` leaves as they are. -/
def Normal (precision : ℕ) (n : Numeral) : Prop :=
  (n.coefficient = 0 ∧ n.exponent = 0) ∨
    (n.coefficient % 10 ≠ 0 ∧ n.coefficient < 10 ^ precision)

instance (precision : ℕ) (n : Numeral) : Decidable (n.Normal precision) :=
  inferInstanceAs (Decidable (_ ∨ _))

variable {precision : ℕ} {n : Numeral}

theorem length_digits_le_iff (h : 0 < precision) :
    n.digits.length ≤ precision ↔ n.coefficient < 10 ^ precision :=
  Nat.length_toDigits_le_iff (by decide) h

theorem coefficient_lt (n : Numeral) : n.coefficient < 10 ^ n.digits.length :=
  (length_digits_le_iff Nat.length_toDigits_pos).mp le_rfl

theorem trim_of_mod_ne {c : ℕ} (h : c % 10 ≠ 0) (fuel : ℕ) (e : ℤ) : trim fuel c e = (c, e) := by
  cases fuel with
  | zero => rfl
  | succ fuel => rw [trim, if_neg h]

theorem trim_spec {fuel c : ℕ} (e : ℤ) (hpos : 0 < c) (hlt : c < 10 ^ fuel) :
    (trim fuel c e).1 % 10 ≠ 0 ∧ (trim fuel c e).1 ≤ c ∧ e ≤ (trim fuel c e).2 := by
  induction fuel generalizing c e with
  | zero =>
    rw [pow_zero] at hlt
    omega
  | succ fuel ih =>
    rw [pow_succ] at hlt
    by_cases hmod : c % 10 = 0
    · rw [trim, if_pos hmod]
      have hdiv := ih (e + 1) (show 0 < c / 10 by omega) (by omega)
      omega
    · rw [trim_of_mod_ne hmod]
      exact ⟨hmod, le_rfl, le_rfl⟩

theorem trim_mul_pow {c : ℕ} (h : c % 10 ≠ 0) {k fuel : ℕ} (hk : k ≤ fuel) (e : ℤ) :
    trim fuel (c * 10 ^ k) e = (c, e + k) := by
  induction k generalizing fuel e with
  | zero => rw [pow_zero, Nat.mul_one, trim_of_mod_ne h, Nat.cast_zero, add_zero]
  | succ k ih =>
    cases fuel with
    | zero => omega
    | succ fuel =>
      have hsplit : c * 10 ^ (k + 1) = c * 10 ^ k * 10 := by rw [pow_succ, Nat.mul_assoc]
      rw [trim, hsplit, if_pos (Nat.mul_mod_left _ _), Nat.mul_div_cancel _ (by decide),
        ih (by omega), Nat.cast_succ, add_assoc, add_comm (1 : ℤ)]

theorem roundHalfEven_le (q : ℚ) : roundHalfEven q ≤ ⌊q⌋ + 1 := by
  unfold roundHalfEven
  split
  · omega
  · split
    · omega
    · split <;> omega

/-- Rounding may only reach the next power of ten. -/
theorem rounded_le (precision : ℕ) (h : 0 < precision) (n : Numeral) :
    (n.rounded precision).coefficient ≤ 10 ^ precision := by
  unfold rounded
  by_cases hle : n.digits.length ≤ precision
  · rw [if_pos hle]
    exact ((length_digits_le_iff h).mp hle).le
  · rw [if_neg hle]
    let dropped := n.digits.length - precision
    have hlt : n.coefficient / 10 ^ dropped < 10 ^ precision := by
      rw [Nat.div_lt_iff_lt_mul (by positivity), ← pow_add]
      have hsum : precision + dropped = n.digits.length := by omega
      rw [hsum]
      exact n.coefficient_lt
    have hfloor : ⌊(n.coefficient : ℚ) / 10 ^ dropped⌋ = (n.coefficient / 10 ^ dropped : ℕ) := by
      have hcast := Rat.floor_intCast_div_natCast n.coefficient (10 ^ dropped)
      push_cast at hcast ⊢
      exact hcast
    have hround := roundHalfEven_le ((n.coefficient : ℚ) / 10 ^ dropped)
    rw [hfloor] at hround
    show (roundHalfEven ((n.coefficient : ℚ) / 10 ^ dropped)).toNat ≤ 10 ^ precision
    generalize n.coefficient / 10 ^ dropped = q at hlt hround
    generalize 10 ^ precision = bound at hlt ⊢
    omega

theorem normal_normalize (h : 0 < precision) (n : Numeral) :
    (n.normalize precision).Normal precision := by
  unfold normalize
  dsimp only
  by_cases hzero : (n.rounded precision).coefficient = 0
  · rw [if_pos hzero]
    exact Or.inl ⟨rfl, rfl⟩
  · rw [if_neg hzero]
    obtain ⟨hmod, hle, -⟩ := trim_spec (n.rounded precision).exponent (Nat.pos_of_ne_zero hzero)
      (n.rounded precision).coefficient_lt
    have hbound := hle.trans (rounded_le precision h n)
    refine Or.inr ⟨hmod, lt_of_le_of_ne hbound ?_⟩
    intro heq
    -- A power of ten has trailing zeros left to drop.
    have hpow : 10 ^ precision % 10 = 0 := by
      rw [show precision = precision - 1 + 1 by omega, pow_succ, Nat.mul_mod_left]
    exact hmod ((congrArg (· % 10) heq).trans hpow)

theorem normalize_of_normal (h : n.Normal precision) (hpos : 0 < precision) :
    n.normalize precision = n := by
  have hlt : n.coefficient < 10 ^ precision := by
    rcases h with h | h
    · rw [h.1]
      positivity
    · exact h.2
  have hrounded : n.rounded precision = n := if_pos ((length_digits_le_iff hpos).mpr hlt)
  unfold normalize
  dsimp only
  rw [hrounded]
  rcases h with ⟨hc, he⟩ | ⟨hmod, -⟩
  · rw [if_pos hc, ← hc, ← he]
  · have hne : n.coefficient ≠ 0 := by
      intro hzero
      rw [hzero] at hmod
      exact hmod rfl
    rw [if_neg hne, trim_of_mod_ne hmod]

theorem normalize_eq_iff (hpos : 0 < precision) :
    n.normalize precision = n ↔ n.Normal precision := by
  constructor
  · intro h
    rw [← h]
    exact normal_normalize hpos n
  · intro h
    exact normalize_of_normal h hpos

theorem normalize_normalize (hpos : 0 < precision) (n : Numeral) :
    (n.normalize precision).normalize precision = n.normalize precision :=
  normalize_of_normal (normal_normalize hpos n) hpos

theorem normalize_negative (precision : ℕ) (n : Numeral) :
    (n.normalize precision).negative = n.negative := by
  unfold normalize
  dsimp only
  split <;> rfl

/-! ## 4. Columns with a fixed number of places -/

def value (n : Numeral) : ℚ :=
  (if n.negative then -1 else 1) * (n.coefficient * (10 : ℚ) ^ n.exponent)

/-- What a column of `total` digits, `places` of them behind the dot, stores of a number that is not
negative, in units of the last place; ties go up, and a number that does not fit is refused. -/
def toColumn (total places : ℕ) (n : Numeral) : Option ℕ :=
  let units := ⌊n.value * 10 ^ places + 1 / 2⌋.toNat
  if units < 10 ^ total then some units else none

/-- The numeral a column answers. -/
def ofColumn (places units : ℕ) : Numeral := ⟨false, units, -places⟩

theorem neg_le_normalize_ofColumn (precision places units : ℕ) :
    -places ≤ ((ofColumn places units).normalize precision).exponent := by
  have hrounded : -places ≤ ((ofColumn places units).rounded precision).exponent := by
    unfold rounded
    split
    · exact le_rfl
    · show -(places : ℤ) ≤ -places + (_ : ℕ)
      omega
  unfold normalize
  dsimp only
  split
  · show -(places : ℤ) ≤ 0
    omega
  · rename_i hzero
    exact hrounded.trans (trim_spec _ (Nat.pos_of_ne_zero hzero) (coefficient_lt _)).2.2

/-- A number of no more places than the column has is stored as it is. -/
theorem toColumn_eq {total places units : ℕ} (hnegative : n.negative = false)
    (hplaces : -places ≤ n.exponent) (h : n.toColumn total places = some units) :
    units = n.coefficient * 10 ^ (n.exponent + places).toNat ∧ units < 10 ^ total := by
  obtain ⟨k, hk⟩ := Int.eq_ofNat_of_zero_le (show 0 ≤ n.exponent + places by omega)
  have hvalue : n.value * 10 ^ places = (n.coefficient * 10 ^ k : ℕ) := by
    unfold value
    have hexponent : n.exponent = k - places := by omega
    rw [hnegative, hexponent, zpow_sub₀ (by norm_num), zpow_natCast, zpow_natCast]
    push_cast
    field_simp
  have hfloor : ⌊n.value * 10 ^ places + 1 / 2⌋.toNat = n.coefficient * 10 ^ k := by
    rw [hvalue, Int.floor_natCast_add, show ⌊(1 / 2 : ℚ)⌋ = 0 by norm_num, add_zero,
      Int.toNat_natCast]
  unfold toColumn at h
  dsimp only at h
  rw [hfloor] at h
  by_cases hlt : n.coefficient * 10 ^ k < 10 ^ total
  · rw [if_pos hlt] at h
    obtain rfl := Option.some.inj h
    rw [hk]
    exact ⟨rfl, hlt⟩
  · rw [if_neg hlt] at h
    cases h

theorem normalize_ofColumn_zero (precision places : ℕ) :
    (ofColumn places 0).normalize precision = ⟨false, 0, 0⟩ := by
  have hrounded : ((ofColumn places 0).rounded precision).coefficient = 0 := by
    unfold rounded
    split
    · rfl
    · show (roundHalfEven ((0 : ℕ) / 10 ^ _)).toNat = 0
      rw [Nat.cast_zero, zero_div, show (0 : ℚ) = ((0 : ℤ) : ℚ) by rfl, roundHalfEven_intCast]
      rfl
  unfold normalize
  dsimp only
  rw [if_pos hrounded]
  rfl

theorem normalize_ofColumn_mul_pow {c k : ℕ} (places : ℕ) (hpos : 0 < precision)
    (hmod : c % 10 ≠ 0) (hlt : c * 10 ^ k < 10 ^ precision) :
    (ofColumn places (c * 10 ^ k)).normalize precision = ⟨false, c, k - places⟩ := by
  let stored := ofColumn places (c * 10 ^ k)
  have hrounded : stored.rounded precision = stored := if_pos ((length_digits_le_iff hpos).mpr hlt)
  have hne : stored.coefficient ≠ 0 := by
    have hc : 0 < c := by omega
    show c * 10 ^ k ≠ 0
    positivity
  have hk : k ≤ stored.digits.length := by
    have hpow : c * 10 ^ k < 10 ^ stored.digits.length := stored.coefficient_lt
    have hle : 10 ^ k ≤ c * 10 ^ k := Nat.le_mul_of_pos_left _ (by omega)
    exact ((Nat.pow_lt_pow_iff_right (by decide)).mp (hle.trans_lt hpow)).le
  have htrim : trim stored.digits.length stored.coefficient stored.exponent = (c, -(places : ℤ) + k) :=
    trim_mul_pow hmod hk _
  show stored.normalize precision = _
  unfold normalize
  dsimp only
  rw [hrounded, if_neg hne, htrim, add_comm, ← sub_eq_add_neg]
  rfl

/-- What comes back from a column is the numeral that was stored exactly for the normal numerals of
few enough places. -/
theorem ofColumn_eq_iff {total places units : ℕ} (hpos : 0 < precision) (htotal : total ≤ precision)
    (h : (n.normalize precision).toColumn total places = some units) :
    (ofColumn places units).normalize precision = n ↔
      n.Normal precision ∧ n.negative = false ∧ -places ≤ n.exponent := by
  constructor
  · intro heq
    rw [← heq]
    exact ⟨normal_normalize hpos _, normalize_negative _ _, neg_le_normalize_ofColumn _ _ _⟩
  · rintro ⟨hnormal, hnegative, hplaces⟩
    rw [normalize_of_normal hnormal hpos] at h
    obtain ⟨rfl, hlt⟩ := toColumn_eq hnegative hplaces h
    have hn : n = ⟨false, n.coefficient, n.exponent⟩ := by
      rw [← hnegative]
    rcases hnormal with ⟨hc, he⟩ | ⟨hmod, -⟩
    · rw [hc, Nat.zero_mul, normalize_ofColumn_zero, hn, hc, he]
    · have hexponent : ((n.exponent + places).toNat : ℤ) - places = n.exponent := by omega
      have hbound := hlt.trans_le (Nat.pow_le_pow_right (by decide) htotal)
      rw [normalize_ofColumn_mul_pow places hpos hmod hbound, hexponent, ← hn]

end Numeral

end Lib
