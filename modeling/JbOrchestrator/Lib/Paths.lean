import Mathlib.Data.List.Infix

/-!
# Paths — what a prefix, a suffix or a substring of a path says about its segments

A path is its segments, each behind a separator.  Where no segment holds the separator, a text that
starts at a separator starts at a segment, so tests on the raw path are tests on the segments.
-/

namespace Lib.Paths

variable {α : Type*} {sep : α}

/-- The path of `segments`, each behind the separator. -/
def join (sep : α) (segments : List (List α)) : List α := segments.flatMap (sep :: ·)

/-- The segments a path can be read back from. -/
def Plain (sep : α) (segments : List (List α)) : Prop := ∀ segment ∈ segments, sep ∉ segment

@[simp] theorem join_nil : join sep [] = [] := rfl

@[simp] theorem join_cons (segment : List α) (segments : List (List α)) :
    join sep (segment :: segments) = sep :: (segment ++ join sep segments) := rfl

theorem join_append (front back : List (List α)) :
    join sep (front ++ back) = join sep front ++ join sep back := List.flatMap_append

theorem Plain.tail {segment : List α} {segments : List (List α)}
    (h : Plain sep (segment :: segments)) : Plain sep segments :=
  fun s hs => h s (List.mem_cons_of_mem _ hs)

theorem Plain.left {front back : List (List α)} (h : Plain sep (front ++ back)) :
    Plain sep front :=
  fun s hs => h s (List.mem_append_left _ hs)

theorem Plain.right {front back : List (List α)} (h : Plain sep (front ++ back)) :
    Plain sep back :=
  fun s hs => h s (List.mem_append_right _ hs)

/-! ## 1. Segment boundaries -/

/-- A path that has a separator at some place has a segment starting there. -/
theorem boundary {segments : List (List α)} {a b : List α} (hplain : Plain sep segments)
    (h : join sep segments = a ++ sep :: b) :
    ∃ front back, segments = front ++ back ∧ join sep front = a ∧ join sep back = sep :: b := by
  induction segments generalizing a with
  | nil =>
    rw [join_nil] at h
    exact absurd h.symm (by simp)
  | cons segment segments ih =>
    cases a with
    | nil => exact ⟨[], segment :: segments, rfl, rfl, h⟩
    | cons c a =>
      rw [join_cons, List.cons_append, List.cons.injEq] at h
      have hc : c = sep := h.1.symm
      subst hc
      obtain ⟨rest, ha, hrest⟩ : ∃ rest, a = segment ++ rest ∧
          join c segments = rest ++ c :: b := by
        rcases List.append_eq_append_iff.mp h.2 with ⟨rest, ha, hjoin⟩ | ⟨rest, hsegment, hjoin⟩
        · exact ⟨rest, ha, hjoin⟩
        · cases rest with
          | nil => exact ⟨[], by simpa using hsegment.symm, hjoin.symm⟩
          | cons d rest =>
            -- the separator behind `a` would lie inside the segment
            have hd : d = c := by
              rw [List.cons_append, List.cons.injEq] at hjoin
              exact hjoin.1.symm
            have hmem : c ∈ segment := by
              rw [hsegment, hd]
              exact List.mem_append_right _ List.mem_cons_self
            exact absurd hmem (hplain segment List.mem_cons_self)
      obtain ⟨front, back, hsegments, hfront, hback⟩ := ih hplain.tail hrest
      refine ⟨segment :: front, back, ?_, ?_, hback⟩
      · rw [hsegments, List.cons_append]
      · rw [join_cons, hfront, ha]

/-- The first separator ends what stands before it. -/
theorem append_cons_inj {s t a b : List α} (hs : sep ∉ s) (ht : sep ∉ t)
    (h : s ++ sep :: a = t ++ sep :: b) : s = t ∧ a = b := by
  induction s generalizing t with
  | nil =>
    cases t with
    | nil => exact ⟨rfl, (List.cons.inj h).2⟩
    | cons c t =>
      have hc : sep = c := (List.cons.inj h).1
      exact absurd (hc ▸ List.mem_cons_self) ht
  | cons c s ih =>
    cases t with
    | nil =>
      have hc : c = sep := (List.cons.inj h).1
      exact absurd (hc ▸ List.mem_cons_self) hs
    | cons d t =>
      obtain ⟨hcd, hrest⟩ := List.cons.inj h
      obtain ⟨hst, hab⟩ := ih (fun hmem => hs (List.mem_cons_of_mem _ hmem))
        (fun hmem => ht (List.mem_cons_of_mem _ hmem)) hrest
      exact ⟨by rw [hcd, hst], hab⟩

theorem append_join_inj {s t : List α} {segments others : List (List α)} (hs : sep ∉ s)
    (ht : sep ∉ t) (h : s ++ join sep segments = t ++ join sep others) :
    s = t ∧ join sep segments = join sep others := by
  induction s generalizing t with
  | nil =>
    cases t with
    | nil => exact ⟨rfl, h⟩
    | cons c t =>
      cases segments with
      | nil => exact absurd h (by simp)
      | cons segment segments =>
        have hc : sep = c := (List.cons.inj h).1
        exact absurd (hc ▸ List.mem_cons_self) ht
  | cons c s ih =>
    cases t with
    | nil =>
      cases others with
      | nil => exact absurd h (by simp)
      | cons other others =>
        have hc : c = sep := (List.cons.inj h).1
        exact absurd (hc ▸ List.mem_cons_self) hs
    | cons d t =>
      obtain ⟨hcd, hrest⟩ := List.cons.inj h
      obtain ⟨hst, hjoin⟩ := ih (fun hmem => hs (List.mem_cons_of_mem _ hmem))
        (fun hmem => ht (List.mem_cons_of_mem _ hmem)) hrest
      exact ⟨by rw [hcd, hst], hjoin⟩

theorem join_inj {segments others : List (List α)} (hplain : Plain sep segments)
    (hothers : Plain sep others) (h : join sep segments = join sep others) :
    segments = others := by
  induction segments generalizing others with
  | nil =>
    cases others with
    | nil => rfl
    | cons other others => cases h
  | cons segment segments ih =>
    cases others with
    | nil => cases h
    | cons other others =>
      obtain ⟨hsegment, hjoin⟩ := append_join_inj (hplain segment List.mem_cons_self)
        (hothers other List.mem_cons_self) (List.cons.inj h).2
      rw [hsegment, ih hplain.tail hothers.tail hjoin]

/-! ## 2. Tests on the raw path -/

/-- The path starts with `front` and a separator when a segment follows `front`. -/
theorem prefix_join {front segments : List (List α)} (hplain : Plain sep segments)
    (hfront : Plain sep front) :
    join sep front ++ [sep] <+: join sep segments ↔
      ∃ next back, segments = front ++ next :: back := by
  constructor
  · rintro ⟨b, hb⟩
    rw [List.append_assoc, List.singleton_append] at hb
    obtain ⟨front', back, hsegments, hjoin, hback⟩ := boundary hplain hb.symm
    have heq : front' = front := join_inj (hsegments ▸ hplain).left hfront hjoin
    cases back with
    | nil => cases hback
    | cons next back => exact ⟨next, back, by rw [hsegments, heq]⟩
  · rintro ⟨next, back, rfl⟩
    refine ⟨next ++ join sep back, ?_⟩
    rw [join_append, join_cons, List.append_assoc, List.singleton_append]

theorem suffix_join {words segments : List (List α)} (hplain : Plain sep segments)
    (hwords : Plain sep words) : join sep words <:+ join sep segments ↔ words <:+ segments := by
  constructor
  · rintro ⟨a, ha⟩
    cases words with
    | nil => exact List.nil_suffix
    | cons word words =>
      rw [join_cons] at ha
      obtain ⟨front, back, hsegments, -, hback⟩ := boundary hplain ha.symm
      have heq : back = word :: words := join_inj (hsegments ▸ hplain).right hwords hback
      exact ⟨front, by rw [hsegments, heq]⟩
  · rintro ⟨front, rfl⟩
    exact ⟨join sep front, by rw [join_append]⟩

/-- `/word/` stands in the path when `word` is a segment and not the last one. -/
theorem infix_join_segment {word : List α} {segments : List (List α)}
    (hplain : Plain sep segments) (hword : sep ∉ word) :
    sep :: (word ++ [sep]) <:+: join sep segments ↔
      ∃ front next back, segments = front ++ word :: next :: back := by
  constructor
  · rintro ⟨a, b, hab⟩
    rw [List.append_assoc, List.cons_append] at hab
    obtain ⟨front, back, hsegments, -, hback⟩ := boundary hplain hab.symm
    have hwords : Plain sep [word] := by
      intro s hs
      rw [List.mem_singleton.mp hs]
      exact hword
    have hfollowed : join sep [word] ++ [sep] <+: join sep back := by
      rw [hback]
      exact ⟨b, by simp⟩
    obtain ⟨next, back', hnext⟩ :=
      (prefix_join (hsegments ▸ hplain).right hwords).mp hfollowed
    exact ⟨front, next, back', by rw [hsegments, hnext]; rfl⟩
  · rintro ⟨front, next, back, rfl⟩
    refine ⟨join sep front, next ++ join sep back, ?_⟩
    simp [join_append]

/-- `/word` stands in the path when a segment starts with `word`. -/
theorem infix_join_start {word : List α} {segments : List (List α)} (hplain : Plain sep segments)
    (hword : sep ∉ word) :
    sep :: word <:+: join sep segments ↔ ∃ segment ∈ segments, word <+: segment := by
  constructor
  · rintro ⟨a, b, hab⟩
    rw [List.append_assoc, List.cons_append] at hab
    obtain ⟨front, back, hsegments, -, hback⟩ := boundary hplain hab.symm
    cases back with
    | nil => cases hback
    | cons segment back =>
      refine ⟨segment, by simp [hsegments], ?_⟩
      have hrest : segment ++ join sep back = word ++ b := (List.cons.inj hback).2
      rcases List.append_eq_append_iff.mp hrest with ⟨rest, hlong, hjoin⟩ | ⟨rest, hstart, -⟩
      · cases rest with
        | nil => exact ⟨[], by simpa using hlong⟩
        | cons d rest =>
          -- the word would reach over the end of the segment
          cases back with
          | nil => cases hjoin
          | cons next back =>
            have hd : sep = d := (List.cons.inj hjoin).1
            refine absurd ?_ hword
            rw [hlong, hd]
            exact List.mem_append_right _ List.mem_cons_self
      · exact ⟨rest, hstart.symm⟩
  · rintro ⟨segment, hmem, rest, rfl⟩
    obtain ⟨front, back, rfl⟩ := List.append_of_mem hmem
    refine ⟨join sep front, rest ++ join sep back, ?_⟩
    simp [join_append]

end Lib.Paths
