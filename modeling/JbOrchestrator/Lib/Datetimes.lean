import JbOrchestrator.Lib.Numeral
import Mathlib.Tactic.SplitIfs

/-!
# Datetimes — a `datetime` and its ISO text

`isoformat` writes the microseconds only when there are some, and of an offset the seconds only when
they matter; a naive datetime has no offset.  `fromisoformat` reads these texts back.
-/

namespace Lib

/-! ## 1. Numbers of a fixed width -/

/-- The format `%0wd`. -/
def padded (width n : ℕ) : List Char :=
  List.replicate (width - (Nat.toDigits 10 n).length) '0' ++ Nat.toDigits 10 n

/-- The number of the first `width` characters. -/
def readPadded (width : ℕ) (cs : List Char) : Option (ℕ × List Char) :=
  let digits := cs.take width
  if digits.length = width ∧ digits.all Char.isDigit = true then
    some (Nat.ofDigitChars 10 digits 0, cs.drop width)
  else none

/-- The text behind a character. -/
def readChar (c : Char) : List Char → Option (List Char)
  | [] => none
  | d :: rest => if d = c then some rest else none

theorem length_padded {width n : ℕ} (hwidth : 0 < width) (h : n < 10 ^ width) :
    (padded width n).length = width := by
  have hle : (Nat.toDigits 10 n).length ≤ width :=
    (Nat.length_toDigits_le_iff (by decide) hwidth).mpr h
  unfold padded
  rw [List.length_append, List.length_replicate]
  omega

theorem isDigit_padded {width n : ℕ} {c : Char} (hc : c ∈ padded width n) : c.isDigit = true := by
  unfold padded at hc
  rcases List.mem_append.mp hc with hc | hc
  · rw [List.eq_of_mem_replicate hc]
    decide
  · exact Nat.isDigit_of_mem_toDigits (by decide) (by decide) hc

theorem readPadded_padded {width n : ℕ} (hwidth : 0 < width) (h : n < 10 ^ width)
    (rest : List Char) : readPadded width (padded width n ++ rest) = some (n, rest) := by
  have hlength := length_padded hwidth h
  have htake : (padded width n ++ rest).take width = padded width n := List.take_left' hlength
  have hvalue : Nat.ofDigitChars 10 (padded width n) 0 = n := by
    unfold padded
    rw [Nat.ofDigitChars_append, Nat.ofDigitChars_replicate_zero, Nat.mul_zero]
    exact Nat.ofDigitChars_ten_toDigits
  unfold readPadded
  dsimp only
  rw [htake, List.drop_left' hlength, hvalue, if_pos]
  exact ⟨hlength, List.all_eq_true.mpr fun c hc => isDigit_padded hc⟩

@[simp] theorem readChar_cons (c : Char) (rest : List Char) : readChar c (c :: rest) = some rest := by
  simp [readChar]

/-! ## 2. Clocks -/

/-- A time of day, or the size of an offset. -/
structure Clock where
  hour : ℕ
  minute : ℕ
  second : ℕ
  microsecond : ℕ
  deriving DecidableEq, Repr

namespace Clock

variable (c : Clock)

def Valid : Prop := c.hour < 24 ∧ c.minute < 60 ∧ c.second < 60 ∧ c.microsecond < 1000000

instance : Decidable c.Valid := inferInstanceAs (Decidable (_ ∧ _))

def fraction : List Char := if c.microsecond = 0 then [] else '.' :: padded 6 c.microsecond

def hoursMinutes : List Char := padded 2 c.hour ++ ':' :: padded 2 c.minute

/-- The time of a datetime, with its seconds. -/
def write : List Char := c.hoursMinutes ++ ':' :: (padded 2 c.second ++ c.fraction)

/-- An offset, whose seconds are written when there are some. -/
def writeShort : List Char :=
  if c.second = 0 ∧ c.microsecond = 0 then c.hoursMinutes else c.write

/-- The digits behind a dot, when there is one. -/
def readFraction (cs : List Char) : Option (ℕ × List Char) :=
  match cs with
  | '.' :: rest => readPadded 6 rest
  | _ => some (0, cs)

/-- The seconds behind a colon, when there is one. -/
def readSeconds (cs : List Char) : Option ((ℕ × ℕ) × List Char) :=
  match cs with
  | ':' :: rest => do
    let (second, rest) ← readPadded 2 rest
    let (microsecond, rest) ← readFraction rest
    some ((second, microsecond), rest)
  | _ => some ((0, 0), cs)

def read (cs : List Char) : Option (Clock × List Char) := do
  let (hour, cs) ← readPadded 2 cs
  let cs ← readChar ':' cs
  let (minute, cs) ← readPadded 2 cs
  let ((second, microsecond), cs) ← readSeconds cs
  some (⟨hour, minute, second, microsecond⟩, cs)

/-- The text goes on with nothing that belongs to a clock. -/
def Ends (rest : List Char) : Prop := rest.head? ≠ some ':' ∧ rest.head? ≠ some '.'

variable {c} {rest : List Char}

theorem readFraction_fraction (h : c.Valid) (hrest : Ends rest) :
    readFraction (c.fraction ++ rest) = some (c.microsecond, rest) := by
  unfold fraction
  by_cases hzero : c.microsecond = 0
  · rw [if_pos hzero, hzero, List.nil_append]
    cases rest with
    | nil => rfl
    | cons d rest =>
      have hdot : d ≠ '.' := fun hd => hrest.2 (by rw [hd]; rfl)
      unfold readFraction
      split
      · rename_i heq
        exact absurd (List.cons.inj heq).1 hdot
      · rfl
  · rw [if_neg hzero]
    have hlt : c.microsecond < 10 ^ 6 := h.2.2.2
    exact readPadded_padded (by decide) hlt rest

theorem readSeconds_ends (hrest : Ends rest) : readSeconds rest = some ((0, 0), rest) := by
  cases rest with
  | nil => rfl
  | cons d rest =>
    have hcolon : d ≠ ':' := fun hd => hrest.1 (by rw [hd]; rfl)
    unfold readSeconds
    split
    · rename_i heq
      exact absurd (List.cons.inj heq).1 hcolon
    · rfl

theorem readSeconds_write (h : c.Valid) (hrest : Ends rest) :
    readSeconds (':' :: (padded 2 c.second ++ (c.fraction ++ rest))) =
      some ((c.second, c.microsecond), rest) := by
  have hsecond : c.second < 10 ^ 2 := by
    have hlt := h.2.2.1
    omega
  show ((readPadded 2 (padded 2 c.second ++ (c.fraction ++ rest))).bind fun answer =>
    (readFraction answer.2).bind fun answer' => some ((answer.1, answer'.1), answer'.2)) = _
  rw [readPadded_padded (by decide) hsecond, Option.bind_some, readFraction_fraction h hrest]
  rfl

/-- Hours and minutes are read first, whatever follows them. -/
theorem read_hoursMinutes (h : c.Valid) (cs : List Char) :
    read (c.hoursMinutes ++ cs) = (readSeconds cs).bind fun answer =>
      some (⟨c.hour, c.minute, answer.1.1, answer.1.2⟩, answer.2) := by
  obtain ⟨hhour, hminute, -, -⟩ := h
  have hhour' : c.hour < 10 ^ 2 := by omega
  have hminute' : c.minute < 10 ^ 2 := by omega
  unfold read hoursMinutes
  rw [List.append_assoc, readPadded_padded (by decide) hhour']
  simp only [Option.bind_eq_bind, Option.bind_some, List.cons_append, readChar_cons]
  rw [readPadded_padded (by decide) hminute']
  rfl

theorem read_write (h : c.Valid) (hrest : Ends rest) : read (c.write ++ rest) = some (c, rest) := by
  unfold write
  rw [List.append_assoc, read_hoursMinutes h, List.cons_append, List.append_assoc,
    readSeconds_write h hrest]
  rfl

theorem read_writeShort (h : c.Valid) (hrest : Ends rest) :
    read (c.writeShort ++ rest) = some (c, rest) := by
  unfold writeShort
  split
  · rename_i hzero
    obtain ⟨hsecond, hmicrosecond⟩ := hzero
    rw [read_hoursMinutes h, readSeconds_ends hrest]
    show some ((⟨c.hour, c.minute, 0, 0⟩ : Clock), rest) = some (c, rest)
    rw [← hsecond]
    nth_rewrite 2 [hsecond]
    rw [← hmicrosecond]
  · exact read_write h hrest

/-! ### The microseconds of a clock -/

def total (c : Clock) : ℕ := ((c.hour * 60 + c.minute) * 60 + c.second) * 1000000 + c.microsecond

def ofTotal (n : ℕ) : Clock where
  hour := n / 1000000 / 60 / 60
  minute := n / 1000000 / 60 % 60
  second := n / 1000000 % 60
  microsecond := n % 1000000

/-- The microseconds of a day. -/
def day : ℕ := 24 * 60 * 60 * 1000000

theorem total_ofTotal (n : ℕ) : (ofTotal n).total = n := by
  unfold total ofTotal
  dsimp only
  omega

theorem valid_ofTotal {n : ℕ} (h : n < day) : (ofTotal n).Valid := by
  have hday : n < 24 * 60 * 60 * 1000000 := h
  unfold Valid ofTotal
  dsimp only
  omega

end Clock

/-! ## 3. Datetimes -/

structure Datetime where
  year : ℕ
  month : ℕ
  day : ℕ
  time : Clock
  /-- what `utcoffset` answers, in microseconds; a naive datetime has none -/
  offset : Option ℤ
  deriving DecidableEq, Repr

namespace Datetime

def isLeap (year : ℕ) : Bool := year % 4 = 0 && (year % 100 ≠ 0 || year % 400 = 0)

def daysInMonth (year month : ℕ) : ℕ :=
  if month = 2 then (if isLeap year then 29 else 28)
  else if month = 4 ∨ month = 6 ∨ month = 9 ∨ month = 11 then 30 else 31

/-- What the constructors of `datetime` and `timezone` admit. -/
def Valid (d : Datetime) : Prop :=
  (1 ≤ d.year ∧ d.year ≤ 9999) ∧ (1 ≤ d.month ∧ d.month ≤ 12) ∧
    (1 ≤ d.day ∧ d.day ≤ daysInMonth d.year d.month) ∧ d.time.Valid ∧
    ∀ offset ∈ d.offset, offset.natAbs < Clock.day

instance (d : Datetime) : Decidable d.Valid := inferInstanceAs (Decidable (_ ∧ _))

def writeOffset : Option ℤ → List Char
  | none => []
  | some offset =>
    (if offset < 0 then '-' else '+') :: (Clock.ofTotal offset.natAbs).writeShort

def isoformat (d : Datetime) : List Char :=
  padded 4 d.year ++ '-' :: (padded 2 d.month ++ '-' :: (padded 2 d.day ++
    'T' :: (d.time.write ++ writeOffset d.offset)))

def readOffset : List Char → Option (Option ℤ)
  | [] => some none
  | sign :: cs => do
    let (clock, rest) ← Clock.read cs
    if rest = [] then
      if sign = '+' then some (some clock.total)
      else if sign = '-' then some (some (-clock.total))
      else none
    else none

/-- `datetime.fromisoformat`, on the texts that `isoformat` writes and those without seconds. -/
def fromisoformat (cs : List Char) : Option Datetime := do
  let (year, cs) ← readPadded 4 cs
  let cs ← readChar '-' cs
  let (month, cs) ← readPadded 2 cs
  let cs ← readChar '-' cs
  let (day, cs) ← readPadded 2 cs
  let cs ← readChar 'T' cs
  let (time, cs) ← Clock.read cs
  let offset ← readOffset cs
  let d : Datetime := ⟨year, month, day, time, offset⟩
  if d.Valid then some d else none

theorem ends_writeOffset (offset : Option ℤ) : Clock.Ends (writeOffset offset) := by
  cases offset with
  | none => exact ⟨nofun, nofun⟩
  | some offset =>
    unfold writeOffset Clock.Ends
    by_cases hneg : offset < 0 <;> simp [hneg]

theorem readOffset_writeOffset {offset : Option ℤ} (h : ∀ value ∈ offset, value.natAbs < Clock.day) :
    readOffset (writeOffset offset) = some offset := by
  cases offset with
  | none => rfl
  | some value =>
    have hvalid := Clock.valid_ofTotal (h value rfl)
    have hread := @Clock.read_writeShort _ [] hvalid ⟨nofun, nofun⟩
    rw [List.append_nil] at hread
    unfold writeOffset readOffset
    dsimp only
    rw [hread]
    simp only [Option.bind_eq_bind, Option.bind_some, Clock.total_ofTotal]
    by_cases hneg : value < 0
    · have hvalue : -(value.natAbs : ℤ) = value := by omega
      simp only [hneg, if_true, hvalue]
      rw [if_neg (by decide)]
    · have hvalue : (value.natAbs : ℤ) = value := by omega
      simp only [hneg, if_true, if_false, hvalue]

/-- A datetime is read back from its text. -/
theorem fromisoformat_isoformat {d : Datetime} (h : d.Valid) :
    fromisoformat d.isoformat = some d := by
  obtain ⟨hyear, hmonth, hday, htime, hoffset⟩ := id h
  have hdays : daysInMonth d.year d.month ≤ 31 := by
    unfold daysInMonth
    split_ifs <;> decide
  have hyear' : d.year < 10 ^ 4 := by omega
  have hmonth' : d.month < 10 ^ 2 := by omega
  have hday' : d.day < 10 ^ 2 := by omega
  unfold fromisoformat isoformat
  rw [readPadded_padded (by decide) hyear']
  simp only [Option.bind_eq_bind, Option.bind_some, readChar_cons]
  rw [readPadded_padded (by decide) hmonth']
  simp only [Option.bind_some, readChar_cons]
  rw [readPadded_padded (by decide) hday']
  simp only [Option.bind_some, readChar_cons]
  rw [Clock.read_write htime (ends_writeOffset _)]
  simp only [Option.bind_some]
  rw [readOffset_writeOffset hoffset]
  exact if_pos h

end Datetime

end Lib
