import Mathlib.Data.List.DropRight

/-! # Text — the string operations of the Python standard library, on code points -/

namespace Lib.Text

/-- The code points `str.strip` removes. -/
def isSpace (c : Char) : Bool :=
  let n := c.toNat
  (9 ≤ n && n ≤ 13) || (28 ≤ n && n ≤ 32) || n = 0x85 || n = 0xa0 || n = 0x1680 ||
    (0x2000 ≤ n && n ≤ 0x200a) || n = 0x2028 || n = 0x2029 || n = 0x202f || n = 0x205f ||
    n = 0x3000

def strip (s : String) : String :=
  String.ofList ((s.toList.dropWhile isSpace).rdropWhile isSpace)

/-- `not s.strip()`. -/
def isBlank (s : String) : Bool := s.toList.all isSpace

/-- `s.replace(x + y, z)` for a pattern of the two characters `x` and `y`: leftmost occurrences
first, none overlapping. -/
def replacePair (x y z : Char) : List Char → List Char
  | [] => []
  | [a] => [a]
  | a :: b :: rest =>
    if a = x ∧ b = y then z :: replacePair x y z rest else a :: replacePair x y z (b :: rest)

def isDigit (c : Char) : Bool := 48 ≤ c.toNat && c.toNat ≤ 57

/-- `int(s)` of a string of ASCII digits. -/
def digitsToNat (digits : List Char) : ℕ :=
  digits.foldl (fun n c => 10 * n + (c.toNat - 48)) 0

/-- `[0-9a-fA-F]`. -/
def isHexDigit (c : Char) : Bool :=
  isDigit c || (97 ≤ c.toNat && c.toNat ≤ 102) || (65 ≤ c.toNat && c.toNat ≤ 70)

def hexDigitToNat (c : Char) : ℕ :=
  if isDigit c then c.toNat - 48 else if 97 ≤ c.toNat then c.toNat - 87 else c.toNat - 55

/-- `int(s, 16)` of a string of hexadecimal digits. -/
def hexToNat (digits : List Char) : ℕ := digits.foldl (fun n c => 16 * n + hexDigitToNat c) 0

private theorem strip_toList_eq_nil_iff (cs : List Char) :
    (cs.dropWhile isSpace).rdropWhile isSpace = [] ↔ cs.all isSpace = true := by
  rw [List.rdropWhile_eq_nil_iff, List.all_eq_true]
  constructor
  · intro h c hc
    rw [← List.takeWhile_append_dropWhile (p := isSpace) (l := cs), List.mem_append] at hc
    rcases hc with hc | hc
    · exact List.mem_takeWhile_imp hc
    · exact h c hc
  · intro h c hc
    exact h c ((List.dropWhile_suffix isSpace).subset hc)

/-- Without blanks there is nothing to strip. -/
theorem strip_eq_self {s : String} (h : ∀ c ∈ s.toList, isSpace c = false) : strip s = s := by
  have hfront : s.toList.dropWhile isSpace = s.toList := by
    cases hs : s.toList with
    | nil => rfl
    | cons c cs =>
      have hc : isSpace c = false := h c (by simp [hs])
      rw [List.dropWhile_cons_of_neg (by simp [hc])]
  have hback : s.toList.rdropWhile isSpace = s.toList := by
    rw [List.rdropWhile_eq_self_iff]
    intro hne hlast
    rw [h _ (List.getLast_mem hne)] at hlast
    cases hlast
  rw [strip, hfront, hback, String.ofList_toList]

theorem isBlank_append (s t : String) : isBlank (s ++ t) = (isBlank s && isBlank t) := by
  unfold isBlank
  rw [String.toList_append, List.all_append]

theorem isBlank_iff (s : String) : isBlank s = true ↔ strip s = "" := by
  unfold isBlank strip
  rw [← strip_toList_eq_nil_iff]
  constructor
  · intro h
    rw [h]
  · intro h
    simpa using congrArg String.toList h

theorem strip_ne_empty_of_not_isBlank {s : String} (h : isBlank s = false) : strip s ≠ "" := by
  intro hs
  rw [(isBlank_iff s).mpr hs] at h
  cases h

theorem isBlank_strip (s : String) : isBlank (strip s) = isBlank s := by
  rw [Bool.eq_iff_iff, isBlank_iff s]
  constructor
  · intro h
    by_contra hne
    have htoList : (strip s).toList = (s.toList.dropWhile isSpace).rdropWhile isSpace :=
      String.toList_ofList
    have hnil : (s.toList.dropWhile isSpace).rdropWhile isSpace ≠ [] := by
      rw [← htoList]
      simpa using hne
    have hlast := List.rdropWhile_last_not isSpace (s.toList.dropWhile isSpace) hnil
    unfold isBlank at h
    rw [htoList, List.all_eq_true] at h
    exact hlast (h _ (List.getLast_mem hnil))
  · intro h
    rw [h]
    rfl

/-- A string that is stripped has nothing to strip. -/
theorem strip_strip (s : String) : strip (strip s) = strip s := by
  have hfront : ∀ cs : List Char, ((cs.dropWhile isSpace).rdropWhile isSpace).dropWhile isSpace =
      (cs.dropWhile isSpace).rdropWhile isSpace := by
    intro cs
    cases hrest : (cs.dropWhile isSpace).rdropWhile isSpace with
    | nil => rfl
    | cons c rest =>
      -- the first character that is left is the first one of what the front leaves
      obtain ⟨back, hback⟩ := List.rdropWhile_prefix isSpace (l := cs.dropWhile isSpace)
      rw [hrest, List.cons_append] at hback
      have hidem : (c :: (rest ++ back)).dropWhile isSpace = c :: (rest ++ back) := by
        rw [hback]
        exact List.dropWhile_idempotent isSpace _
      have hc : ¬isSpace c = true := List.dropWhile_eq_self_iff.mp hidem (Nat.succ_pos _)
      exact List.dropWhile_cons_of_neg hc
  have htoList : (strip s).toList = (s.toList.dropWhile isSpace).rdropWhile isSpace :=
    String.toList_ofList
  rw [strip, htoList, hfront, List.rdropWhile_idempotent]
  rfl

end Lib.Text
