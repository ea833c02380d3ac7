import Mathlib.Data.List.Infix

/-!
# Like — `text LIKE pattern`

In a pattern `_` is any one character, `%` any text, and a backslash takes the next character literally.
Where a text is the start of a pattern that ends in `%`, it is matched as a prefix unless it has one of
the three characters.
-/

namespace Lib

def like : List Char → List Char → Bool
  | [], text => text.isEmpty
  | '%' :: pattern, text => text.tails.any fun suffix => like pattern suffix
  | '_' :: _, [] => false
  | '_' :: pattern, _ :: text => like pattern text
  | ['\\'], _ => false
  | '\\' :: _ :: _, [] => false
  | '\\' :: c :: pattern, d :: text => c = d && like pattern text
  | _ :: _, [] => false
  | c :: pattern, d :: text => c = d && like pattern text

/-- The characters that a pattern does not take literally. -/
def isWildcard (c : Char) : Bool := c = '%' || c = '_' || c = '\\'

namespace Like

theorem percent_cons (pattern text : List Char) :
    like ('%' :: pattern) text = text.tails.any fun suffix => like pattern suffix := by
  conv_lhs => unfold like
  rfl

@[simp] theorem any_text (text : List Char) : like ['%'] text = true := by
  rw [percent_cons, List.any_eq_true]
  exact ⟨[], (List.mem_tails _ _).mpr List.nil_suffix, rfl⟩

theorem cons_cons {c : Char} (h : isWildcard c = false) (pattern : List Char) (d : Char)
    (text : List Char) : like (c :: pattern) (d :: text) = (decide (c = d) && like pattern text) := by
  unfold isWildcard at h
  simp only [Bool.or_eq_false_iff, decide_eq_false_iff_not] at h
  conv_lhs => unfold like
  split <;> simp_all

theorem cons_nil {c : Char} (h : isWildcard c = false) (pattern : List Char) :
    like (c :: pattern) [] = false := by
  unfold isWildcard at h
  simp only [Bool.or_eq_false_iff, decide_eq_false_iff_not] at h
  conv_lhs => unfold like
  split <;> simp_all

/-- Without wildcards a start is matched literally. -/
theorem prefix_eq {start : List Char} (h : ∀ c ∈ start, isWildcard c = false) (text : List Char) :
    like (start ++ ['%']) text = start.isPrefixOf text := by
  induction start generalizing text with
  | nil =>
    rw [List.nil_append, any_text]
    cases text <;> rfl
  | cons c start ih =>
    rw [List.forall_mem_cons] at h
    cases text with
    | nil => exact cons_nil h.1 _
    | cons d text =>
      rw [List.cons_append, cons_cons h.1, ih h.2]
      rfl

/-- Without the escape a start matches what starts with it. -/
theorem of_isPrefixOf {start : List Char} (h : '\\' ∉ start) {text : List Char}
    (hstart : start.isPrefixOf text = true) : like (start ++ ['%']) text = true := by
  induction start generalizing text with
  | nil => exact any_text text
  | cons c start ih =>
    rw [List.mem_cons, not_or] at h
    cases text with
    | nil => cases hstart
    | cons d text =>
      rw [List.isPrefixOf_cons_cons, Bool.and_eq_true, beq_iff_eq] at hstart
      obtain ⟨rfl, hrest⟩ := hstart
      have hlike := ih h.2 hrest
      by_cases hpercent : c = '%'
      · -- `%` leaves the rest of the pattern the text behind the literal `%`
        rw [hpercent, List.cons_append, percent_cons, List.any_eq_true]
        exact ⟨text, (List.mem_tails _ _).mpr (List.suffix_cons _ _), hlike⟩
      · by_cases hunderscore : c = '_'
        · rw [hunderscore]
          exact hlike
        · have hliteral : isWildcard c = false := by
            simp [isWildcard, hpercent, hunderscore, Ne.symm h.1]
          rw [List.cons_append, cons_cons hliteral, hlike]
          simp

end Like

end Lib
