import JbOrchestrator.Lib.Json
import JbOrchestrator.Lib.Numeral
import Mathlib.Tactic.SplitIfs

/-!
# JsonLexemes — the strings and the numbers of a JSON text

What Python writes a string and a number as, and the readers of both.  What a float is written as is a
matter of the style.
-/

namespace Lib.JsonText

/-- The arguments of `json.dumps` with the text of a float, and what `float` makes of a lexeme. -/
structure Style where
  ensureAscii : Bool := true
  /-- the blanks behind a comma and behind a colon -/
  blanks : ℕ := 1
  float : ℚ → List Char
  readFloat : List Char → Option ℚ

/-! ## 1. Strings -/

/-- `\uXXXX`, behind the backslash. -/
def unicodeEscape (n : ℕ) : List Char :=
  ['u', Nat.digitChar (n / 4096 % 16), Nat.digitChar (n / 256 % 16), Nat.digitChar (n / 16 % 16),
    Nat.digitChar (n % 16)]

/-- A character of a string; beyond 16 bits `ensure_ascii` writes a surrogate pair. -/
def escapeChar (ensureAscii : Bool) (c : Char) : List Char :=
  if c = '"' then ['\\', '"']
  else if c = '\\' then ['\\', '\\']
  else if c = '\n' then ['\\', 'n']
  else if c = '\r' then ['\\', 'r']
  else if c = '\t' then ['\\', 't']
  else if c = '\x0c' then ['\\', 'f']
  else if c = '\x08' then ['\\', 'b']
  else if 32 ≤ c.toNat ∧ (ensureAscii = true → c.toNat ≤ 126) then [c]
  else if c.toNat < 0x10000 then '\\' :: unicodeEscape c.toNat
  else
    '\\' :: unicodeEscape (0xd800 + (c.toNat - 0x10000) / 1024) ++
      '\\' :: unicodeEscape (0xdc00 + (c.toNat - 0x10000) % 1024)

def dumpsString (ensureAscii : Bool) (s : String) : List Char :=
  '"' :: (s.toList.flatMap (escapeChar ensureAscii) ++ ['"'])

def hexValue (c : Char) : Option ℕ :=
  let n := c.toNat
  if 48 ≤ n ∧ n ≤ 57 then some (n - 48)
  else if 97 ≤ n ∧ n ≤ 102 then some (n - 87)
  else if 65 ≤ n ∧ n ≤ 70 then some (n - 55)
  else none

/-- The unit behind `\u`. -/
def readUnit : List Char → Option (ℕ × List Char)
  | a :: b :: c :: d :: rest => do
    let a ← hexValue a
    let b ← hexValue b
    let c ← hexValue c
    let d ← hexValue d
    some (4096 * a + 256 * b + 16 * c + d, rest)
  | _ => none

/-- The low surrogate behind a high one. -/
def readLow (high : ℕ) : List Char → Option (Char × List Char)
  | '\\' :: 'u' :: rest => do
    let (low, rest) ← readUnit rest
    if 0xdc00 ≤ low ∧ low ≤ 0xdfff then
      some (Char.ofNat (0x10000 + 1024 * (high - 0xd800) + (low - 0xdc00)), rest)
    else none
  | _ => none

/-- A character from the units behind `\u`; a surrogate that stands alone is no character. -/
def readUnicode (cs : List Char) : Option (Char × List Char) := do
  let (unit, rest) ← readUnit cs
  if 0xd800 ≤ unit ∧ unit ≤ 0xdbff then readLow unit rest
  else if 0xdc00 ≤ unit ∧ unit ≤ 0xdfff then none
  else some (Char.ofNat unit, rest)

/-- The character that a backslash and a letter stand for. -/
def unescape (c : Char) : Option Char :=
  if c = '"' then some '"'
  else if c = '\\' then some '\\'
  else if c = '/' then some '/'
  else if c = 'b' then some '\x08'
  else if c = 'f' then some '\x0c'
  else if c = 'n' then some '\n'
  else if c = 'r' then some '\r'
  else if c = 't' then some '\t'
  else none

def readChar (c : Char) (rest : List Char) : Option (Char × List Char) :=
  if c = '\\' then
    match rest with
    | [] => none
    | letter :: rest => if letter = 'u' then readUnicode rest else (unescape letter).map (·, rest)
  else if c.toNat < 32 then none
  else some (c, rest)

/-- The characters up to the closing quote. -/
def readChars : ℕ → List Char → Option (List Char × List Char)
  | 0, _ => none
  | _ + 1, [] => none
  | fuel + 1, c :: rest =>
    if c = '"' then some ([], rest)
    else do
      let (first, rest) ← readChar c rest
      let (chars, rest) ← readChars fuel rest
      some (first :: chars, rest)

/-- `scanstring`, behind the opening quote. -/
def readString (cs : List Char) : Option (String × List Char) :=
  (readChars (cs.length + 1) cs).map fun (chars, rest) => (String.ofList chars, rest)

section

variable (ensureAscii : Bool)

theorem hexValue_digitChar {n : ℕ} (h : n < 16) : hexValue (Nat.digitChar n) = some n := by
  have hall : ∀ n < 16, hexValue (Nat.digitChar n) = some n := by decide
  exact hall n h

theorem readUnit_unicodeEscape {n : ℕ} (h : n < 0x10000) (rest : List Char) :
    readUnit ((unicodeEscape n).tail ++ rest) = some (n, rest) := by
  have hmod : ∀ m : ℕ, hexValue (Nat.digitChar (m % 16)) = some (m % 16) := fun m =>
    hexValue_digitChar (Nat.mod_lt m (by decide))
  unfold unicodeEscape
  simp only [List.tail_cons, List.cons_append, List.nil_append]
  unfold readUnit
  simp only [hmod, Option.bind_eq_bind, Option.bind_some, Option.some.injEq, Prod.mk.injEq, and_true]
  omega

/-- No character is a surrogate. -/
theorem toNat_range (c : Char) : c.toNat < 0xd800 ∨ 0xdfff < c.toNat ∧ c.toNat < 0x110000 := by
  have hvalid := c.valid
  unfold UInt32.isValidChar Nat.isValidChar at hvalid
  rw [Char.toNat_val] at hvalid
  exact hvalid

theorem readUnicode_one {c : Char} (h : c.toNat < 0x10000) (rest : List Char) :
    readUnicode ((unicodeEscape c.toNat).tail ++ rest) = some (c, rest) := by
  have hrange := toNat_range c
  unfold readUnicode
  rw [readUnit_unicodeEscape h]
  simp only [Option.bind_eq_bind, Option.bind_some]
  rw [if_neg (by omega), if_neg (by omega), Char.ofNat_toNat]

theorem readLow_unicodeEscape (high : ℕ) {low : ℕ} (h : 0xdc00 ≤ low ∧ low ≤ 0xdfff)
    (rest : List Char) : readLow high ('\\' :: unicodeEscape low ++ rest) =
      some (Char.ofNat (0x10000 + 1024 * (high - 0xd800) + (low - 0xdc00)), rest) := by
  have hlow := readUnit_unicodeEscape (n := low) (by omega) rest
  show (readUnit ((unicodeEscape low).tail ++ rest)).bind _ = _
  rw [hlow]
  simp only [Option.bind_some]
  rw [if_pos h]

theorem readUnicode_pair {high low : ℕ} (hhigh : 0xd800 ≤ high ∧ high ≤ 0xdbff)
    (hlow : 0xdc00 ≤ low ∧ low ≤ 0xdfff) (rest : List Char) :
    readUnicode ((unicodeEscape high).tail ++ ('\\' :: unicodeEscape low ++ rest)) =
      some (Char.ofNat (0x10000 + 1024 * (high - 0xd800) + (low - 0xdc00)), rest) := by
  unfold readUnicode
  rw [readUnit_unicodeEscape (by omega)]
  simp only [Option.bind_eq_bind, Option.bind_some]
  rw [if_pos hhigh, readLow_unicodeEscape high hlow]

theorem readUnicode_two {c : Char} (h : ¬c.toNat < 0x10000) (rest : List Char) :
    readUnicode ((unicodeEscape (0xd800 + (c.toNat - 0x10000) / 1024)).tail ++
      ('\\' :: unicodeEscape (0xdc00 + (c.toNat - 0x10000) % 1024) ++ rest)) = some (c, rest) := by
  have hrange := toNat_range c
  have hvalue : 0x10000 + 1024 * (0xd800 + (c.toNat - 0x10000) / 1024 - 0xd800) +
      (0xdc00 + (c.toNat - 0x10000) % 1024 - 0xdc00) = c.toNat := by omega
  rw [readUnicode_pair (by omega) (by omega), hvalue, Char.ofNat_toNat]

/-- A written character does not look like the closing quote, and it is read back. -/
theorem escapeChar_spec (c : Char) : ∃ first tail, escapeChar ensureAscii c = first :: tail ∧
    first ≠ '"' ∧ ∀ rest, readChar first (tail ++ rest) = some (c, rest) := by
  unfold escapeChar
  split_ifs with hquote hbackslash hnewline hreturn htab hfeed hback hplain hshort
  · exact ⟨_, _, rfl, by decide, fun rest => by rw [hquote]; rfl⟩
  · exact ⟨_, _, rfl, by decide, fun rest => by rw [hbackslash]; rfl⟩
  · exact ⟨_, _, rfl, by decide, fun rest => by rw [hnewline]; rfl⟩
  · exact ⟨_, _, rfl, by decide, fun rest => by rw [hreturn]; rfl⟩
  · exact ⟨_, _, rfl, by decide, fun rest => by rw [htab]; rfl⟩
  · exact ⟨_, _, rfl, by decide, fun rest => by rw [hfeed]; rfl⟩
  · exact ⟨_, _, rfl, by decide, fun rest => by rw [hback]; rfl⟩
  · refine ⟨_, _, rfl, hquote, fun rest => ?_⟩
    unfold readChar
    rw [if_neg hbackslash, if_neg (by omega), List.nil_append]
  · exact ⟨_, _, rfl, by decide, fun rest => readUnicode_one hshort rest⟩
  · refine ⟨_, _, List.cons_append, by decide, fun rest => ?_⟩
    rw [List.append_assoc]
    exact readUnicode_two hshort rest

theorem readChars_escape {chars : List Char} {fuel : ℕ} (h : chars.length < fuel) (rest : List Char) :
    readChars fuel (chars.flatMap (escapeChar ensureAscii) ++ '"' :: rest) = some (chars, rest) := by
  induction chars generalizing fuel with
  | nil =>
    cases fuel with
    | zero => cases h
    | succ fuel => rfl
  | cons c chars ih =>
    cases fuel with
    | zero => cases h
    | succ fuel =>
      rw [List.length_cons, Nat.succ_lt_succ_iff] at h
      obtain ⟨first, tail, hescape, hfirst, hread⟩ := escapeChar_spec ensureAscii c
      rw [List.flatMap_cons, List.append_assoc, hescape, List.cons_append, readChars, if_neg hfirst,
        hread]
      show (readChars fuel (chars.flatMap (escapeChar ensureAscii) ++ '"' :: rest)).bind _ = _
      rw [ih h]
      rfl

theorem readString_dumpsString (s : String) (rest : List Char) :
    readString ((dumpsString ensureAscii s).tail ++ rest) = some (s, rest) := by
  have hlength : s.toList.length ≤ (s.toList.flatMap (escapeChar ensureAscii)).length := by
    rw [List.length_flatMap]
    induction s.toList with
    | nil => exact Nat.le_refl 0
    | cons c chars ih =>
      obtain ⟨first, tail, hescape, -⟩ := escapeChar_spec ensureAscii c
      rw [List.map_cons, List.sum_cons, hescape, List.length_cons, List.length_cons]
      omega
  unfold readString dumpsString
  rw [List.tail_cons, List.append_assoc, List.singleton_append, readChars_escape]
  · show some (String.ofList s.toList, rest) = _
    rw [String.ofList_toList]
  · rw [List.length_append]
    omega

end

/-! ## 2. Numbers -/

open Numeral (AllDigits)

/-- The parts of a number; `exponent` is its text with the `e`. -/
structure Lexeme where
  negative : Bool := false
  whole : List Char
  fraction : List Char := []
  exponent : List Char := []

namespace Lexeme

variable (l : Lexeme)

def write : List Char :=
  (if l.negative then ['-'] else []) ++ l.whole ++
    (if l.fraction = [] then [] else '.' :: l.fraction) ++ l.exponent

/-- The number has neither a fraction nor an exponent. -/
def isInt : Bool := l.fraction.isEmpty && l.exponent.isEmpty

def toInt : ℤ :=
  if l.negative then -Nat.ofDigitChars 10 l.whole 0 else Nat.ofDigitChars 10 l.whole 0

/-- The grammar of JSON. -/
structure Valid : Prop where
  whole : AllDigits l.whole ∧ l.whole ≠ [] ∧ (l.whole.head? = some '0' → l.whole = ['0'])
  fraction : AllDigits l.fraction
  exponent : l.exponent = [] ∨ ∃ sign digits, l.exponent = 'e' :: sign :: digits ∧
    (sign = '+' ∨ sign = '-') ∧ AllDigits digits ∧ digits ≠ []

end Lexeme

def ofInt (z : ℤ) : Lexeme where
  negative := decide (z < 0)
  whole := Nat.toDigits 10 z.natAbs

/-- `0|[1-9]\d*`. -/
def readWhole (cs : List Char) : Option (List Char × List Char) :=
  if cs.head? = some '0' then some (['0'], cs.tail)
  else if cs.takeWhile Char.isDigit = [] then none
  else some (cs.takeWhile Char.isDigit, cs.dropWhile Char.isDigit)

/-- `(\.\d+)?`. -/
def readFraction (cs : List Char) : List Char × List Char :=
  if cs.head? = some '.' ∧ cs.tail.takeWhile Char.isDigit ≠ [] then
    (cs.tail.takeWhile Char.isDigit, cs.tail.dropWhile Char.isDigit)
  else ([], cs)

/-- `[-+]?`. -/
def readSign (cs : List Char) : List Char × List Char :=
  if cs.head? = some '+' ∨ cs.head? = some '-' then (cs.take 1, cs.tail) else ([], cs)

/-- `([eE][-+]?\d+)?`. -/
def readExponent (cs : List Char) : List Char × List Char :=
  let (sign, rest) := readSign cs.tail
  if (cs.head? = some 'e' ∨ cs.head? = some 'E') ∧ rest.takeWhile Char.isDigit ≠ [] then
    (cs.take 1 ++ sign ++ rest.takeWhile Char.isDigit, rest.dropWhile Char.isDigit)
  else ([], cs)

/-- `NUMBER_RE`. -/
def readLexeme (cs : List Char) : Option (Lexeme × List Char) := do
  let negative := decide (cs.head? = some '-')
  let (whole, rest) ← readWhole (if negative then cs.tail else cs)
  let (fraction, rest) := readFraction rest
  let (exponent, rest) := readExponent rest
  some ({ negative, whole, fraction, exponent }, rest)

def readNumber (style : Style) (cs : List Char) : Option (Scalar × List Char) := do
  let (lexeme, rest) ← readLexeme cs
  if lexeme.isInt then some (.int lexeme.toInt, rest)
  else do
    let value ← style.readFloat lexeme.write
    some (.float value, rest)

/-- What may stand behind a value. -/
def isStop (c : Char) : Bool := c = ',' || c = ']' || c = '}'

/-- A rest at which every number ends. -/
def Stops (rest : List Char) : Prop := ∀ c ∈ rest.head?, isStop c = true

section

variable {ds rest : List Char}

theorem Stops.head_ne (h : Stops rest) {c : Char} (hc : isStop c = false) : rest.head? ≠ some c := by
  intro hhead
  have hstop := h c (Option.mem_def.mpr hhead)
  rw [hc] at hstop
  cases hstop

theorem isDigit_of_isStop {c : Char} (h : isStop c = true) : c.isDigit = false := by
  unfold isStop at h
  simp only [Bool.or_eq_true, decide_eq_true_eq, or_assoc] at h
  rcases h with rfl | rfl | rfl <;> decide

/-- A run of digits ends at the first character that is none. -/
theorem span_digits (h : AllDigits ds) (hrest : ∀ c ∈ rest.head?, c.isDigit = false) :
    (ds ++ rest).takeWhile Char.isDigit = ds ∧ (ds ++ rest).dropWhile Char.isDigit = rest := by
  rw [List.takeWhile_append_of_pos h, List.dropWhile_append_of_pos h]
  cases rest with
  | nil => exact ⟨List.append_nil ds, rfl⟩
  | cons c rest =>
    have hc : c.isDigit = false := hrest c rfl
    rw [List.takeWhile_cons_of_neg (by simp [hc]), List.dropWhile_cons_of_neg (by simp [hc])]
    exact ⟨List.append_nil ds, rfl⟩

theorem head?_toDigits {n : ℕ} (h : 0 < n) : (Nat.toDigits 10 n).head? ≠ some '0' := by
  induction n using Nat.strong_induction_on with
  | h n ih =>
    rw [Nat.toDigits_eq_if (by decide)]
    split
    · rename_i hlt
      have hall : ∀ d < 10, 0 < d → [Nat.digitChar d].head? ≠ some '0' := by decide
      exact hall n hlt h
    · rename_i hge
      rw [List.head?_append_of_ne_nil _ Nat.toDigits_ne_nil]
      exact ih (n / 10) (by omega) (by omega)

theorem valid_ofInt (z : ℤ) : (ofInt z).Valid where
  whole := by
    refine ⟨fun c hc => Nat.isDigit_of_mem_toDigits (by decide) (by decide) hc,
      Nat.toDigits_ne_nil, fun hzero => ?_⟩
    by_cases hz : z.natAbs = 0
    · show Nat.toDigits 10 z.natAbs = _
      rw [hz]
      rfl
    · exact absurd hzero (head?_toDigits (Nat.pos_of_ne_zero hz))
  fraction := by
    intro c hc
    cases hc
  exponent := .inl rfl

theorem toInt_ofInt (z : ℤ) : (ofInt z).toInt = z := by
  have hvalue : Nat.ofDigitChars 10 (Nat.toDigits 10 z.natAbs) 0 = z.natAbs :=
    Nat.ofDigitChars_ten_toDigits
  unfold Lexeme.toInt ofInt
  rw [hvalue]
  by_cases hz : z < 0
  · rw [if_pos (decide_eq_true hz)]
    omega
  · rw [if_neg (by simpa using hz)]
    omega

theorem readExponent_append {l : Lexeme} (h : l.Valid) (hrest : Stops rest) :
    readExponent (l.exponent ++ rest) = (l.exponent, rest) ∧
      ∀ c ∈ (l.exponent ++ rest).head?, c.isDigit = false ∧ c ≠ '.' := by
  rcases h.exponent with hnone | ⟨sign, digits, hexponent, hsign, hdigits, hne⟩
  · rw [hnone, List.nil_append]
    constructor
    · unfold readExponent
      dsimp only
      rw [if_neg]
      rintro ⟨he | he, -⟩
      · exact hrest.head_ne (by decide) he
      · exact hrest.head_ne (by decide) he
    · intro c hc
      refine ⟨isDigit_of_isStop (hrest c hc), ?_⟩
      rintro rfl
      exact absurd (hrest '.' hc) (by decide)
  · have hread : readSign (sign :: digits ++ rest) = ([sign], digits ++ rest) := by
      unfold readSign
      rw [if_pos]
      · rfl
      · rcases hsign with rfl | rfl
        · exact .inl rfl
        · exact .inr rfl
    obtain ⟨htake, hdrop⟩ := span_digits hdigits fun c hc => isDigit_of_isStop (hrest c hc)
    rw [hexponent]
    constructor
    · unfold readExponent
      rw [show ('e' :: sign :: digits ++ rest).tail = sign :: digits ++ rest from rfl, hread]
      dsimp only
      rw [htake, hdrop, if_pos ⟨.inl rfl, hne⟩]
      rfl
    · intro c hc
      obtain rfl : 'e' = c := Option.some.inj hc
      decide

/-- The fraction of a number with its dot. -/
def Lexeme.dotted (l : Lexeme) : List Char := if l.fraction = [] then [] else '.' :: l.fraction

theorem readFraction_append {l : Lexeme} (h : l.Valid) (hrest : Stops rest) :
    readFraction (l.dotted ++ (l.exponent ++ rest)) = (l.fraction, l.exponent ++ rest) ∧
      ∀ c ∈ (l.dotted ++ (l.exponent ++ rest)).head?, c.isDigit = false := by
  obtain ⟨-, hhead⟩ := readExponent_append h hrest
  unfold Lexeme.dotted
  by_cases hnone : l.fraction = []
  · rw [if_pos hnone, List.nil_append, hnone]
    constructor
    · unfold readFraction
      rw [if_neg]
      rintro ⟨hdot, -⟩
      exact (hhead '.' (Option.mem_def.mpr hdot)).2 rfl
    · exact fun c hc => (hhead c hc).1
  · obtain ⟨htake, hdrop⟩ := span_digits h.fraction fun c hc => (hhead c hc).1
    rw [if_neg hnone]
    constructor
    · unfold readFraction
      rw [show ('.' :: l.fraction ++ (l.exponent ++ rest)).tail = l.fraction ++ (l.exponent ++ rest)
        from rfl, htake, hdrop, if_pos ⟨rfl, hnone⟩]
    · intro c hc
      obtain rfl : '.' = c := Option.some.inj hc
      decide

theorem readWhole_append (hdigits : AllDigits ds) (hne : ds ≠ [])
    (hzero : ds.head? = some '0' → ds = ['0']) (hrest : ∀ c ∈ rest.head?, c.isDigit = false) :
    readWhole (ds ++ rest) = some (ds, rest) := by
  obtain ⟨htake, hdrop⟩ := span_digits hdigits hrest
  unfold readWhole
  by_cases hhead : ds.head? = some '0'
  · rw [hzero hhead]
    rfl
  · rw [List.head?_append_of_ne_nil _ hne, if_neg hhead, htake, hdrop, if_neg hne]

/-- A number is read back from its text. -/
theorem readLexeme_write {l : Lexeme} (h : l.Valid) (hrest : Stops rest) :
    readLexeme (l.write ++ rest) = some (l, rest) := by
  obtain ⟨hdigits, hne, hzero⟩ := h.whole
  obtain ⟨hfraction, hbehind⟩ := readFraction_append h hrest
  have hwhole := readWhole_append hdigits hne hzero hbehind
  have htext : l.write ++ rest = (if l.negative then ['-'] else []) ++
      (l.whole ++ (l.dotted ++ (l.exponent ++ rest))) := by
    unfold Lexeme.write Lexeme.dotted
    simp only [List.append_assoc]
  have hplain : (l.whole ++ (l.dotted ++ (l.exponent ++ rest))).head? ≠ some '-' := by
    rw [List.head?_append_of_ne_nil _ hne]
    intro hhead
    exact hdigits.ne (List.mem_of_head? hhead) (by decide) rfl
  have hsign : decide ((l.write ++ rest).head? = some '-') = l.negative ∧
      (if l.negative then (l.write ++ rest).tail else l.write ++ rest) =
        l.whole ++ (l.dotted ++ (l.exponent ++ rest)) := by
    rw [htext]
    cases l.negative with
    | true => exact ⟨rfl, rfl⟩
    | false => exact ⟨decide_eq_false hplain, rfl⟩
  unfold readLexeme
  rw [hsign.1]
  dsimp only
  rw [hsign.2, hwhole]
  dsimp only [Option.bind_eq_bind, Option.bind_some]
  rw [hfraction]
  dsimp only
  rw [(readExponent_append h hrest).1]

end

/-- The float is written as a number that is read as the float. -/
def Style.Exact (style : Style) (value : ℚ) : Prop :=
  ∃ lexeme : Lexeme, lexeme.Valid ∧ lexeme.isInt = false ∧ style.float value = lexeme.write ∧
    style.readFloat lexeme.write = some value

theorem readNumber_int (style : Style) (z : ℤ) {rest : List Char} (hrest : Stops rest) :
    readNumber style ((ofInt z).write ++ rest) = some (.int z, rest) := by
  unfold readNumber
  rw [readLexeme_write (valid_ofInt z) hrest]
  show some (Scalar.int (ofInt z).toInt, rest) = _
  rw [toInt_ofInt]

theorem readNumber_float {style : Style} {value : ℚ} (hexact : style.Exact value) {rest : List Char}
    (hrest : Stops rest) : readNumber style (style.float value ++ rest) = some (.float value, rest) := by
  obtain ⟨lexeme, hvalid, hfloat, htext, hread⟩ := hexact
  unfold readNumber
  rw [htext, readLexeme_write hvalid hrest]
  simp only [Option.bind_eq_bind, Option.bind_some, hfloat, hread]
  rfl

/-- A number starts with a minus or with a digit. -/
theorem Lexeme.head_write {l : Lexeme} (h : l.Valid) :
    ∃ c rest, l.write = c :: rest ∧ (c = '-' ∨ c.isDigit = true) := by
  obtain ⟨hdigits, hne, -⟩ := h.whole
  unfold write
  cases l.negative with
  | true => exact ⟨'-', _, rfl, .inl rfl⟩
  | false =>
    cases hwhole : l.whole with
    | nil => exact absurd hwhole hne
    | cons c rest => exact ⟨c, _, rfl, .inr (hdigits c (by rw [hwhole]; exact List.mem_cons_self))⟩

end Lib.JsonText
