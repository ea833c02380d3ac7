import JbOrchestrator.Lib.Json
import JbOrchestrator.Lib.Text

/-!
# Rfc6901 — JSON Pointers as text and the values they refer to

A pointer is a list of keys.  `text` writes it down and `Refers` evaluates it.  A reference token is
read back by the two replacements of the RFC, first of `~1`, then of `~0`.
-/

namespace Lib.Rfc6901

/-! ## 1. The text of a pointer -/

def escapeChar (c : Char) : List Char :=
  if c = '~' then ['~', '0'] else if c = '/' then ['~', '1'] else [c]

/-- A reference token: no `/`, and `~` only in front of `0` or `1`. -/
def escape (key : List Char) : List Char := key.flatMap escapeChar

/-- `json-pointer = *( "/" reference-token )`. -/
def text (keys : List (List Char)) : List Char := keys.flatMap fun key => '/' :: escape key

@[simp] theorem escape_cons (c : Char) (cs : List Char) :
    escape (c :: cs) = escapeChar c ++ escape cs := rfl

@[simp] theorem text_cons (key : List Char) (keys : List (List Char)) :
    text (key :: keys) = '/' :: (escape key ++ text keys) := rfl

theorem slash_not_mem_escape (key : List Char) : '/' ∉ escape key := by
  intro h
  obtain ⟨c, -, hc⟩ := List.mem_flatMap.mp h
  unfold escapeChar at hc
  split at hc
  · simp at hc
  · split at hc
    · simp at hc
    · rename_i hne
      exact hne (List.mem_singleton.mp hc).symm

theorem splitOn_escape_text (key : List Char) (keys : List (List Char)) :
    (escape key ++ text keys).splitOn '/' = escape key :: keys.map escape := by
  induction keys generalizing key with
  | nil =>
    rw [show text [] = [] from rfl, List.append_nil]
    exact List.splitOn_eq_singleton (slash_not_mem_escape key)
  | cons next keys ih =>
    rw [text_cons, List.splitOn_append_cons_self_of_not_mem (slash_not_mem_escape key), ih]
    rfl

/-- The tokens of a pointer are what `split("/")` answers behind its first element. -/
theorem splitOn_text (keys : List (List Char)) :
    ((text keys).splitOn '/').tail = keys.map escape := by
  cases keys with
  | nil => rfl
  | cons key keys =>
    rw [text_cons, List.splitOn_cons_eq_if_modifyHead, if_pos (by decide), splitOn_escape_text]
    rfl

theorem replacePair_cons_of_ne {x y z a : Char} (h : a ≠ x) (cs : List Char) :
    Text.replacePair x y z (a :: cs) = a :: Text.replacePair x y z cs := by
  cases cs with
  | nil => rfl
  | cons b cs =>
    rw [Text.replacePair, if_neg (fun hab => h hab.1)]

/-- A token whose `~1` is read already. -/
private def tildesEscaped (key : List Char) : List Char :=
  key.flatMap fun c => if c = '~' then ['~', '0'] else [c]

private theorem replace_slashes (key : List Char) :
    Text.replacePair '~' '1' '/' (escape key) = tildesEscaped key := by
  induction key with
  | nil => rfl
  | cons c cs ih =>
    by_cases htilde : c = '~'
    · subst htilde
      show Text.replacePair '~' '1' '/' ('~' :: '0' :: escape cs) = '~' :: '0' :: tildesEscaped cs
      rw [Text.replacePair, if_neg (by decide), replacePair_cons_of_ne (by decide), ih]
    · by_cases hslash : c = '/'
      · subst hslash
        show Text.replacePair '~' '1' '/' ('~' :: '1' :: escape cs) = '/' :: tildesEscaped cs
        rw [Text.replacePair, if_pos ⟨rfl, rfl⟩, ih]
      · have hescape : escape (c :: cs) = c :: escape cs := by
          simp [escapeChar, htilde, hslash]
        have hright : tildesEscaped (c :: cs) = c :: tildesEscaped cs := by
          simp [tildesEscaped, htilde]
        rw [hescape, hright, replacePair_cons_of_ne htilde, ih]

private theorem replace_tildes (key : List Char) :
    Text.replacePair '~' '0' '~' (tildesEscaped key) = key := by
  induction key with
  | nil => rfl
  | cons c cs ih =>
    by_cases htilde : c = '~'
    · subst htilde
      show Text.replacePair '~' '0' '~' ('~' :: '0' :: tildesEscaped cs) = '~' :: cs
      rw [Text.replacePair, if_pos ⟨rfl, rfl⟩, ih]
    · have hleft : tildesEscaped (c :: cs) = c :: tildesEscaped cs := by
        simp [tildesEscaped, htilde]
      rw [hleft, replacePair_cons_of_ne htilde, ih]

/-- Reading `~1` as `/` and then `~0` as `~` undoes the escaping. -/
@[simp] theorem replace_escape (key : List Char) :
    Text.replacePair '~' '0' '~' (Text.replacePair '~' '1' '/' (escape key)) = key := by
  rw [replace_slashes, replace_tildes]

theorem text_injective : Function.Injective text := by
  intro keys keys' h
  have hmap : keys.map escape = keys'.map escape := by
    rw [← splitOn_text, ← splitOn_text, h]
  have hread := congrArg
    (List.map fun token => Text.replacePair '~' '0' '~' (Text.replacePair '~' '1' '/' token)) hmap
  simpa [Function.comp_def] using hread

/-! ## 2. Array indices -/

theorem digitsToNat_append (digits : List Char) (c : Char) :
    Text.digitsToNat (digits ++ [c]) = 10 * Text.digitsToNat digits + (c.toNat - 48) := by
  simp [Text.digitsToNat, List.foldl_append]

theorem digitChar_sub (c : Char) (h : Text.isDigit c = true) :
    Nat.digitChar (c.toNat - 48) = c := by
  simp only [Text.isDigit, Bool.and_eq_true, decide_eq_true_eq] at h
  apply Char.toNat_inj.mp
  rw [Nat.toNat_digitChar_of_lt_ten (by omega)]
  omega

theorem digitsToNat_toDigits (n : ℕ) : Text.digitsToNat (Nat.toDigits 10 n) = n := by
  induction n using Nat.strong_induction_on with
  | _ n ih =>
    rw [Nat.toDigits_eq_if (by decide)]
    split
    · rename_i hlt
      show 10 * 0 + (n.digitChar.toNat - 48) = n
      rw [Nat.toNat_digitChar_sub_48_of_lt_ten hlt]
      omega
    · rw [digitsToNat_append, ih (n / 10) (by omega),
        Nat.toNat_digitChar_sub_48_of_lt_ten (Nat.mod_lt _ (by decide))]
      omega

theorem head?_toDigits_ne_zero (n : ℕ) (h : 0 < n) : (Nat.toDigits 10 n).head? ≠ some '0' := by
  induction n using Nat.strong_induction_on with
  | _ n ih =>
    rw [Nat.toDigits_eq_if (by decide)]
    split
    · simp
      omega
    · rw [List.head?_append_of_ne_nil _ Nat.toDigits_ne_nil]
      exact ih (n / 10) (by omega) (by omega)

/-- Digits without a leading zero are the decimal numeral of their value. -/
theorem toDigits_digitsToNat (key : List Char) (hne : key ≠ []) (hhead : key.head? ≠ some '0')
    (hdigits : ∀ c ∈ key, Text.isDigit c = true) :
    Nat.toDigits 10 (Text.digitsToNat key) = key := by
  induction key using List.reverseRecOn with
  | nil => exact absurd rfl hne
  | append_singleton digits c ih =>
    have hc : Text.isDigit c = true := hdigits c (by simp)
    have hlt : c.toNat - 48 < 10 := by
      simp only [Text.isDigit, Bool.and_eq_true, decide_eq_true_eq] at hc
      omega
    have hlast : Nat.toDigits 10 (c.toNat - 48) = [c] := by
      rw [Nat.toDigits_of_lt_base hlt, digitChar_sub c hc]
    rw [digitsToNat_append]
    by_cases hnil : digits = []
    · subst hnil
      simpa [Text.digitsToNat] using hlast
    · rw [List.head?_append_of_ne_nil _ hnil] at hhead
      have hprefix := ih hnil hhead fun c hc => hdigits c (List.mem_append_left _ hc)
      have hpos : 0 < Text.digitsToNat digits := by
        by_contra hzero
        rw [Nat.eq_zero_of_not_pos hzero, Nat.toDigits_zero] at hprefix
        rw [← hprefix] at hhead
        exact hhead rfl
      rw [← Nat.toDigits_append_toDigits (by decide) hpos hlt, hprefix, hlast]

/-- `array-index = %x30 / ( %x31-39 *(%x30-39) )` describes the decimal numerals. -/
theorem arrayIndex_iff (key : List Char) :
    (key = ['0'] ∨ (key ≠ [] ∧ key.head? ≠ some '0' ∧ key.all Text.isDigit)) ↔
      key = Nat.toDigits 10 (Text.digitsToNat key) := by
  simp only [List.all_eq_true]
  constructor
  · rintro (rfl | ⟨hne, hhead, hdigits⟩)
    · rfl
    · exact (toDigits_digitsToNat key hne hhead hdigits).symm
  · intro h
    by_cases hzero : Text.digitsToNat key = 0
    · left
      rw [h, hzero, Nat.toDigits_zero]
    · right
      refine ⟨?_, ?_, ?_⟩
      · rw [h]
        exact Nat.toDigits_ne_nil
      · rw [h]
        exact head?_toDigits_ne_zero _ (Nat.pos_of_ne_zero hzero)
      · intro c hc
        rw [h] at hc
        have hdigit := Nat.isDigit_of_mem_toDigits (by decide) (by decide) hc
        simpa [Char.isDigit, Text.isDigit, UInt32.le_iff_toNat_le] using hdigit

/-! ## 3. Evaluation -/

/-- What the keys refer to in a document: an object is entered by a member name, an array by the
decimal numeral of a position. -/
inductive Refers : List (List Char) → Json → Json → Prop
  | whole (document : Json) : Refers [] document document
  | member {key : List Char} {keys : List (List Char)} {entries : JsonObject} {child value : Json}
      (hkey : Json.lookup entries (String.ofList key) = some child)
      (hrest : Refers keys child value) : Refers (key :: keys) (.dict entries) value
  | element {n : ℕ} {keys : List (List Char)} {items : List Json} {child value : Json}
      (hindex : items[n]? = some child) (hrest : Refers keys child value) :
      Refers (Nat.toDigits 10 n :: keys) (.list items) value

/-- The document of nested objects in which the keys refer to the value. -/
def nest (keys : List (List Char)) (value : Json) : Json :=
  keys.foldr (fun key child => .dict [(String.ofList key, child)]) value

theorem refers_nest (keys : List (List Char)) (value : Json) :
    Refers keys (nest keys value) value := by
  induction keys with
  | nil => exact .whole value
  | cons key keys ih =>
    have hkey : Json.lookup [(String.ofList key, nest keys value)] (String.ofList key) =
        some (nest keys value) := by
      simp [Json.lookup]
    exact .member hkey ih

end Lib.Rfc6901
