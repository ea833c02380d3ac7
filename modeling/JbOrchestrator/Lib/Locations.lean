import Mathlib.Data.List.Infix

/-!
# Locations — paths that are resolved one name after the other

A location is an absolute path without empty names, `.` and `..`.  A path is resolved from the left, and a
link on the way is followed; where there is none, a location leads to itself.
-/

namespace Lib

/-- The name of an entry of a directory. -/
def EntryName := {name : String // name ≠ "" ∧ name ≠ "." ∧ name ≠ ".."}
  deriving DecidableEq

/-- The names of an absolute path from the root of the file system. -/
abbrev Location := List EntryName

namespace Location

def entryName? (segment : String) : Option EntryName :=
  if h : segment ≠ "" ∧ segment ≠ "." ∧ segment ≠ ".." then some ⟨segment, h⟩ else none

section

variable (links : Location → Option Location)

/-- The entry of the directory `here`, with the link that it may be followed. -/
def child (here : Location) (name : EntryName) : Location :=
  (links (here ++ [name])).getD (here ++ [name])

def advance (here : Location) (segment : String) : Location :=
  if segment = ".." then here.dropLast
  else (entryName? segment).elim here (child links here)

/-- The location of a path that starts at `here`. -/
def resolve (here : Location) (segments : List String) : Location := segments.foldl (advance links) here

/-- Where the path of a location leads to. -/
def follow (location : Location) : Location := location.foldl (child links) []

end

variable {links : Location → Option Location} {location : Location}

private theorem foldl_child (here names : Location)
    (h : ∀ part, part <+: names → part ≠ [] → links (here ++ part) = none) :
    names.foldl (child links) here = here ++ names := by
  induction names generalizing here with
  | nil => simp
  | cons name names ih =>
    have hname : links (here ++ [name]) = none := h [name] ⟨names, rfl⟩ (List.cons_ne_nil _ _)
    rw [List.foldl_cons, child, hname, Option.getD_none, ih]
    · rw [List.append_assoc, List.singleton_append]
    · intro part hpart _
      have hlink := h (name :: part) ((List.prefix_cons_inj name).mpr hpart) (List.cons_ne_nil _ _)
      rw [List.append_assoc, List.singleton_append]
      exact hlink

theorem follow_eq_self (h : ∀ part, part <+: location → links part = none) :
    follow links location = location := by
  have hfold : location.foldl (child links) [] = [] ++ location :=
    foldl_child [] location fun part hpart _ => h part hpart
  rwa [List.nil_append] at hfold

end Location

end Lib
