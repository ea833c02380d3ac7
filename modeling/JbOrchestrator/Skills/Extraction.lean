import JbOrchestrator.Skills.Archives
import Mathlib

/-!
# Extraction — where an archive is written to, and how much of it

An extraction makes directories and files below the destination and nothing else.  Its running total counts
the declared sizes of all members, so it bounds what is written unless a size is below zero.
-/

open Lib

namespace JbOrchestrator.Skills

/-! ## 1. What becomes of the file system -/

def Entry.Plain : Entry → Prop
  | .file _ | .directory => True
  | .link _ | .special => False

/-- The destination is at its real path, and holds regular files and directories. -/
structure Destination (root : Location) (disk : Disk) : Prop where
  above : ∀ location, location <+: root → disk location = some .directory
  plain : ∀ location entry, root <+: location → disk location = some entry → entry.Plain

/-- What an extraction makes of an entry. -/
inductive Kept : Option Entry → Option Entry → Prop where
  | same (entry : Option Entry) : Kept entry entry
  | rewritten (content content' : Bytes) : Kept (some (.file content)) (some (.file content'))
  | file (content : Bytes) : Kept none (some (.file content))
  | directory : Kept none (some .directory)

namespace Kept

variable {before middle after : Option Entry}

theorem trans (h : Kept before middle) (h' : Kept middle after) : Kept before after := by
  cases h with
  | same => exact h'
  | rewritten content content' =>
    cases h' with
    | same => exact .rewritten content content'
    | rewritten _ content'' => exact .rewritten content content''
  | file content =>
    cases h' with
    | same => exact .file content
    | rewritten _ content' => exact .file content'
  | directory =>
    cases h'
    exact .directory

theorem eq_directory (h : Kept (some .directory) after) : after = some .directory := by
  cases h
  rfl

theorem eq_file {content : Bytes} (h : Kept (some (.file content)) after) :
    ∃ content', after = some (.file content') := by
  cases h with
  | same => exact ⟨content, rfl⟩
  | rewritten _ content' => exact ⟨content', rfl⟩

theorem resolved?_eq (h : Kept before after) :
    after.bind Entry.resolved? = before.bind Entry.resolved? := by
  cases h <;> rfl

theorem plain {entry : Entry} (hentry : entry.Plain) (h : Kept (some entry) after) :
    ∃ entry', after = some entry' ∧ entry'.Plain := by
  cases h with
  | same => exact ⟨entry, rfl, hentry⟩
  | rewritten _ content' => exact ⟨.file content', rfl, trivial⟩

end Kept

/-- An extraction has done `new`, below the destination, and changed nothing else. -/
structure Extends (root : Location) (e e' : Extraction) (new : List Effect) : Prop where
  effects : e'.effects = e.effects ++ new
  kept : ∀ location, Kept (e.disk location) (e'.disk location)
  inside : ∀ effect ∈ new, root <+: effect.location ∧
    ∃ entry, e'.disk effect.location = some entry ∧ entry.Plain
  only : ∀ location, (∀ effect ∈ new, effect.location ≠ location) →
    e'.disk location = e.disk location

section

variable {root location : Location} {e e' e'' : Extraction} {new new' : List Effect}

theorem Extends.refl (root : Location) (e : Extraction) : Extends root e e [] where
  effects := (List.append_nil _).symm
  kept _ := .same _
  inside _ h := absurd h List.not_mem_nil
  only _ _ := rfl

theorem Extends.trans (h : Extends root e e' new) (h' : Extends root e' e'' new') :
    Extends root e e'' (new ++ new') where
  effects := by rw [h'.effects, h.effects, List.append_assoc]
  kept location := (h.kept location).trans (h'.kept location)
  inside effect heffect := by
    rcases List.mem_append.mp heffect with heffect | heffect
    · obtain ⟨hinside, entry, hentry, hplain⟩ := h.inside effect heffect
      have hkept := h'.kept effect.location
      rw [hentry] at hkept
      exact ⟨hinside, hkept.plain hplain⟩
    · exact h'.inside effect heffect
  only location hlocation := by
    rw [List.forall_mem_append] at hlocation
    exact (h'.only location hlocation.2).trans (h.only location hlocation.1)

theorem extends_put {entry : Entry} {effect : Effect} (hinside : root <+: location)
    (hlocation : effect.location = location) (hkept : Kept (e.disk location) (some entry))
    (hplain : entry.Plain) : Extends root e (e.put location entry effect) [effect] where
  effects := rfl
  kept other := by
    by_cases hother : other = location
    · subst hother
      simpa [Extraction.put] using hkept
    · simpa [Extraction.put, hother] using Kept.same (e.disk other)
  inside effect' heffect := by
    obtain rfl := List.mem_singleton.mp heffect
    rw [hlocation]
    exact ⟨hinside, entry, Function.update_self location _ _, hplain⟩
  only other hother := by
    have hne : other ≠ location := by
      rintro rfl
      exact hother effect List.mem_cons_self hlocation
    exact Function.update_of_ne hne _ _

theorem Destination.extends (h : Destination root e.disk) (hext : Extends root e e' new) :
    Destination root e'.disk where
  above location hlocation := by
    have hkept := hext.kept location
    rw [h.above location hlocation] at hkept
    exact hkept.eq_directory
  plain location entry hlocation hentry := by
    by_cases hnew : ∃ effect ∈ new, effect.location = location
    · obtain ⟨effect, heffect, rfl⟩ := hnew
      obtain ⟨-, entry', hentry', hplain⟩ := hext.inside effect heffect
      rw [hentry] at hentry'
      exact Option.some.inj hentry' ▸ hplain
    · push Not at hnew
      rw [hext.only location hnew] at hentry
      exact h.plain location entry hlocation hentry

/-- No link is made or removed. -/
theorem Extends.link?_eq (hext : Extends root e e' new) : e'.disk.link? = e.disk.link? :=
  funext fun location => (hext.kept location).resolved?_eq

theorem Extends.written_eq (hext : Extends root e e' new) :
    e'.written = e.written + (new.map Effect.size).sum := by
  unfold Extraction.written
  rw [hext.effects, List.map_append, List.sum_append]

/-- Nothing at the destination, in it or above it is a link. -/
theorem Destination.link?_eq_none (h : Destination root e.disk)
    (hlocation : location <+: root ∨ root <+: location) : e.disk.link? location = none := by
  unfold Disk.link?
  rcases hlocation with habove | hinside
  · rw [h.above location habove]
    rfl
  · cases hentry : e.disk location with
    | none => rfl
    | some entry =>
      have hplain := h.plain location entry hinside hentry
      cases entry with
      | link resolved => cases hplain
      | file content => rfl
      | directory => rfl
      | special => rfl

theorem prefix_comparable {part location : Location} (hpart : part <+: location)
    (h : root <+: location ∨ location <+: root) : part <+: root ∨ root <+: part := by
  rcases h with hinside | habove
  · exact List.prefix_or_prefix_of_prefix hpart hinside
  · exact .inl (hpart.trans habove)

/-- A location in the destination leads to itself. -/
theorem Destination.follow_eq_self (h : Destination root e.disk) (hinside : root <+: location) :
    Location.follow e.disk.link? location = location :=
  Location.follow_eq_self fun _ hpart => h.link?_eq_none (prefix_comparable hpart (.inl hinside))

end

/-! ## 2. Directories and files -/

section

variable {root here target : Location} {e : Extraction}

/-- Directories are made below the destination only, as far as they are missing. -/
theorem makeDirectories_spec (refuses : Location → Option OsError) {names : List EntryName}
    (hdestination : Destination root e.disk)
    (hhere : ∀ part, part <+: here → e.disk part = some .directory)
    (hnames : root <+: here ++ names ∨ here ++ names <+: root) :
    ∃ new, Extends root e (makeDirectories refuses here names e).2 new ∧
      (new.map Effect.size).sum = 0 ∧
      ((makeDirectories refuses here names e).1 = .ok () → ∀ part, part <+: here ++ names →
        (makeDirectories refuses here names e).2.disk part = some .directory) := by
  induction names generalizing here e with
  | nil =>
    refine ⟨[], Extends.refl root e, rfl, fun _ part hpart => ?_⟩
    rw [List.append_nil] at hpart
    exact hhere part hpart
  | cons name names ih =>
    have happend : here ++ name :: names = (here ++ [name]) ++ names := by simp
    have hthere : here ++ [name] <+: root ∨ root <+: here ++ [name] :=
      prefix_comparable ⟨names, happend.symm⟩ hnames
    rw [happend] at hnames ⊢
    unfold makeDirectories
    simp only
    cases hentry : e.disk (here ++ [name]) with
    | some entry =>
      cases entry with
      | directory =>
        apply ih hdestination _ hnames
        intro part hpart
        rcases List.prefix_concat_iff.mp hpart with rfl | hpart
        · exact hentry
        · exact hhere part hpart
      | link resolved =>
        have hlink := hdestination.link?_eq_none hthere
        rw [Disk.link?, hentry] at hlink
        cases hlink
      | file content => exact ⟨[], Extends.refl root e, rfl, nofun⟩
      | special => exact ⟨[], Extends.refl root e, rfl, nofun⟩
    | none =>
      cases refuses (here ++ [name]) with
      | some error => exact ⟨[], Extends.refl root e, rfl, nofun⟩
      | none =>
        -- a directory above the destination is there
        have hinside : root <+: here ++ [name] := by
          rcases hthere with habove | hinside
          · rw [hdestination.above _ habove] at hentry
            cases hentry
          · exact hinside
        have hput : Extends root e (e.put (here ++ [name]) .directory (.directory (here ++ [name])))
            [.directory (here ++ [name])] :=
          extends_put hinside rfl (hentry ▸ Kept.directory) trivial
        have hmade : ∀ part, part <+: here ++ [name] →
            (e.put (here ++ [name]) .directory (.directory (here ++ [name]))).disk part =
              some .directory := by
          intro part hpart
          rcases List.prefix_concat_iff.mp hpart with rfl | hpart
          · exact Function.update_self _ _ _
          · have hkept := hput.kept part
            rw [hhere part hpart] at hkept
            exact hkept.eq_directory
        obtain ⟨new, hext, hsize, hok⟩ := ih (hdestination.extends hput) hmade hnames
        refine ⟨_, hput.trans hext, ?_, hok⟩
        rw [List.map_append, List.sum_append, hsize]
        rfl

theorem copyStream_spec (outcome : Outcome) (bytes : Bytes) (hdestination : Destination root e.disk)
    (hinside : root <+: target) :
    ((∃ error, (copyStream outcome target bytes e).1 = .error error) ∧
        (copyStream outcome target bytes e).2 = e) ∨
      (Extends root e (copyStream outcome target bytes e).2 [.file target bytes] ∧
        (copyStream outcome target bytes e).2.disk target = some (.file bytes)) := by
  unfold copyStream
  rw [hdestination.follow_eq_self hinside]
  simp only
  cases outcome.refuses target with
  | some error => exact .inl ⟨⟨_, rfl⟩, rfl⟩
  | none =>
    cases hentry : e.disk target with
    | none =>
      right
      exact ⟨extends_put hinside rfl (hentry ▸ Kept.file bytes) trivial, Function.update_self _ _ _⟩
    | some entry =>
      have hplain := hdestination.plain target entry hinside hentry
      cases entry with
      | directory => exact .inl ⟨⟨_, rfl⟩, rfl⟩
      | link resolved => cases hplain
      | special => cases hplain
      | file content =>
        right
        exact ⟨extends_put hinside rfl (hentry ▸ Kept.rewritten content bytes) trivial,
          Function.update_self _ _ _⟩

end

/-! ## 3. Members -/

/-- The directory that a member needs. -/
def directoryOf (member : Member) (target : Location) : Location :=
  if member.isDir then target else target.dropLast

/-- The checks let the member through. -/
structure Admitted (links : Location → Option Location) (root : Location) (member : Member)
    (target : Location) : Prop where
  typeError : member.typeError = none
  fileError : member.isDir = false → member.fileError = none
  safeTarget : safeTarget links root member.name = .ok target

/-- The member has been extracted. -/
structure Marked (member : Member) (target : Location) (disk : Disk) : Prop where
  directories : ∀ part, part <+: directoryOf member target → disk part = some .directory
  file : member.isDir = false → ∃ content, disk target = some (.file content)

/-- The bytes that arrive for a file. -/
def arriving (input : Member × Outcome) : ℕ :=
  if input.1.isDir then 0 else (input.2.stream.getD []).length

section

variable {links : Location → Option Location} {root target : Location} {member : Member}
  {e e' : Extraction} {new : List Effect}

theorem Marked.extends (h : Marked member target e.disk) (hext : Extends root e e' new) :
    Marked member target e'.disk where
  directories part hpart := by
    have hkept := hext.kept part
    rw [h.directories part hpart] at hkept
    exact hkept.eq_directory
  file hfile := by
    obtain ⟨content, hcontent⟩ := h.file hfile
    have hkept := hext.kept target
    rw [hcontent] at hkept
    exact hkept.eq_file

theorem safeTarget_ok {name : String} (h : safeTarget links root name = .ok target) :
    target = memberPath links root name ∧ root <+: target := by
  unfold safeTarget at h
  split at h
  · cases h
  · split at h
    · cases h
    · split at h
      · rename_i hinside
        obtain rfl := Except.ok.inj h
        exact ⟨rfl, hinside⟩
      · cases h

theorem extractFile_spec (outcome : Outcome) (hdestination : Destination root e.disk)
    (hinside : root <+: target) (hfile : member.isDir = false) :
    ∃ new, Extends root e (extractFile member outcome target e).2 new ∧
      (((∃ error, (extractFile member outcome target e).1 = .error error) ∧
          (new.map Effect.size).sum = 0) ∨
        (Marked member target (extractFile member outcome target e).2.disk ∧
          (new.map Effect.size).sum = arriving (member, outcome))) := by
  have hparent : root <+: [] ++ target.dropLast ∨ [] ++ target.dropLast <+: root := by
    rw [List.nil_append]
    exact (prefix_comparable target.dropLast_prefix (.inl hinside)).symm
  have hhere : ∀ part, part <+: [] → e.disk part = some .directory := by
    intro part hpart
    rw [List.prefix_nil.mp hpart]
    exact hdestination.above [] List.nil_prefix
  obtain ⟨new, hext, hsize, hmade⟩ := makeDirectories_spec outcome.refuses hdestination hhere hparent
  unfold extractFile
  cases hdirectories : makeDirectories outcome.refuses [] target.dropLast e with
  | mk result middle =>
    rw [hdirectories] at hext hmade
    cases result with
    | error error => exact ⟨new, hext, .inl ⟨⟨_, rfl⟩, hsize⟩⟩
    | ok _ =>
      cases hstream : outcome.stream with
      | none => exact ⟨new, hext, .inl ⟨⟨_, rfl⟩, hsize⟩⟩
      | some bytes =>
        rcases copyStream_spec outcome bytes (hdestination.extends hext) hinside with
          ⟨herror, hsame⟩ | ⟨hcopy, hcontent⟩
        · refine ⟨new, ?_, .inl ⟨herror, hsize⟩⟩
          simp only
          rw [hsame]
          exact hext
        · refine ⟨new ++ [.file target bytes], hext.trans hcopy, .inr ⟨?_, ?_⟩⟩
          · refine ⟨fun part hpart => ?_, fun _ => ⟨bytes, hcontent⟩⟩
            rw [directoryOf, if_neg (by simp [hfile])] at hpart
            have hkept := hcopy.kept part
            rw [hmade rfl part (by rwa [List.nil_append])] at hkept
            exact hkept.eq_directory
          · rw [List.map_append, List.sum_append, hsize]
            simp [arriving, hfile, hstream, Effect.size]

theorem extractTarget_spec (outcome : Outcome) (hdestination : Destination root e.disk)
    (htype : member.typeError = none) :
    ∃ new, Extends root e (extractTarget root member outcome e).2 new ∧
      (((∃ error, (extractTarget root member outcome e).1 = .error error) ∧
          (new.map Effect.size).sum = 0) ∨
        ∃ target, Admitted e.disk.link? root member target ∧
          Marked member target (extractTarget root member outcome e).2.disk ∧
          (new.map Effect.size).sum = arriving (member, outcome)) := by
  unfold extractTarget
  cases htarget : safeTarget e.disk.link? root member.name with
  | error error => exact ⟨[], Extends.refl root e, .inl ⟨⟨_, rfl⟩, rfl⟩⟩
  | ok target =>
    have hinside := (safeTarget_ok htarget).2
    simp only
    cases hdir : member.isDir with
    | true =>
      have hhere : ∀ part, part <+: [] → e.disk part = some .directory := by
        intro part hpart
        rw [List.prefix_nil.mp hpart]
        exact hdestination.above [] List.nil_prefix
      have hnames : root <+: [] ++ target ∨ [] ++ target <+: root := .inl hinside
      obtain ⟨new, hext, hsize, hmade⟩ := makeDirectories_spec outcome.refuses hdestination hhere hnames
      refine ⟨new, hext, ?_⟩
      simp only [if_true]
      have hnot : member.isDir ≠ false := by simp [hdir]
      cases hresult : (makeDirectories outcome.refuses [] target e).1 with
      | error error => exact .inl ⟨⟨error, rfl⟩, hsize⟩
      | ok _ =>
        right
        refine ⟨target, ⟨htype, fun hfile => absurd hfile hnot, htarget⟩,
          ⟨?_, fun hfile => absurd hfile hnot⟩, ?_⟩
        · intro part hpart
          rw [directoryOf, if_pos hdir] at hpart
          exact hmade hresult part hpart
        · rw [hsize, arriving, if_pos hdir]
    | false =>
      cases hfile : member.fileError with
      | some error => exact ⟨[], Extends.refl root e, .inl ⟨⟨_, rfl⟩, rfl⟩⟩
      | none =>
        obtain ⟨new, hext, hcases⟩ := extractFile_spec outcome hdestination hinside hdir
        refine ⟨new, hext, hcases.imp_right fun h => ⟨target, ⟨htype, fun _ => hfile, htarget⟩, h⟩⟩

end

/-! ## 4. The loops -/

/-- The loop has let `front` through, with `total` behind it at the start. -/
structure Processed (limit : ℤ) (root : Location) (links : Location → Option Location) (total : ℤ)
    (all front : List (Member × Outcome)) (disk : Disk) : Prop where
  part : front <+: all
  members : ∀ input ∈ front, ∃ target, Admitted links root input.1 target ∧
    Marked input.1 target disk
  totals : ∀ part, part <+: front → part ≠ [] →
    total + (part.map fun input => input.1.size).sum ≤ limit

section

variable {limit total : ℤ} {root target : Location} {links : Location → Option Location}
  {member : Member} {outcome : Outcome} {inputs front : List (Member × Outcome)} {disk : Disk}
  {e : Extraction}

theorem Processed.nil (limit total : ℤ) (root : Location) (links : Location → Option Location)
    (inputs : List (Member × Outcome)) (disk : Disk) :
    Processed limit root links total inputs [] disk where
  part := List.nil_prefix
  members _ h := absurd h List.not_mem_nil
  totals _ hpart hne := absurd (List.prefix_nil.mp hpart) hne

theorem Processed.cons (h : Processed limit root links (total + member.size) inputs front disk)
    (hlimit : total + member.size ≤ limit) (hadmitted : Admitted links root member target)
    (hmarked : Marked member target disk) :
    Processed limit root links total ((member, outcome) :: inputs) ((member, outcome) :: front)
      disk where
  part := (List.prefix_cons_inj _).mpr h.part
  members := by
    rw [List.forall_mem_cons]
    exact ⟨⟨target, hadmitted, hmarked⟩, h.members⟩
  totals part hpart hne := by
    cases part with
    | nil => exact absurd rfl hne
    | cons first part =>
      obtain ⟨rfl, hrest⟩ := List.cons_prefix_cons.mp hpart
      rw [List.map_cons, List.sum_cons, ← Int.add_assoc]
      cases part with
      | nil => simpa using hlimit
      | cons second part => exact h.totals _ hrest (List.cons_ne_nil _ _)

/-- The members that were let through are a front part of the archive, and what was written arrived for
them. -/
theorem extractMembers_spec (limit total : ℤ) (inputs : List (Member × Outcome))
    (hdestination : Destination root e.disk) :
    ∃ new front, Extends root e (extractMembers limit root total inputs e).2 new ∧
      Processed limit root e.disk.link? total inputs front
        (extractMembers limit root total inputs e).2.disk ∧
      (new.map Effect.size).sum = (front.map arriving).sum := by
  induction inputs generalizing total e with
  | nil => exact ⟨[], [], Extends.refl root e, Processed.nil _ _ _ _ _ _, rfl⟩
  | cons input inputs ih =>
    obtain ⟨member, outcome⟩ := input
    unfold extractMembers
    cases htype : member.typeError with
    | some error => exact ⟨[], [], Extends.refl root e, Processed.nil _ _ _ _ _ _, rfl⟩
    | none =>
      by_cases hlimit : limit < total + member.size
      · simp only [hlimit, if_true]
        exact ⟨[], [], Extends.refl root e, Processed.nil _ _ _ _ _ _, rfl⟩
      simp only [hlimit, if_false]
      obtain ⟨new, hext, hcases⟩ := extractTarget_spec outcome hdestination htype
      cases hresult : extractTarget root member outcome e with
      | mk result middle =>
        rw [hresult] at hext hcases
        rcases hcases with ⟨⟨error, herror⟩, hsize⟩ | ⟨target, hadmitted, hmarked, hsize⟩
        · obtain rfl : result = .error error := herror
          exact ⟨new, [], hext, Processed.nil _ _ _ _ _ _, hsize⟩
        · cases result with
          | error error =>
            -- the copy broke off
            refine ⟨new, [(member, outcome)], hext, ?_, by simpa using hsize⟩
            exact (Processed.nil _ _ _ _ _ _).cons (not_lt.mp hlimit) hadmitted hmarked
          | ok _ =>
            obtain ⟨new', front, hrest, hprocessed, hwritten⟩ :=
              ih (total + member.size) (hdestination.extends hext)
            rw [hext.link?_eq] at hprocessed
            refine ⟨new ++ new', (member, outcome) :: front, hext.trans hrest,
              hprocessed.cons (not_lt.mp hlimit) hadmitted (hmarked.extends hrest), ?_⟩
            rw [List.map_append, List.sum_append, hsize, hwritten, List.map_cons, List.sum_cons]

end

/-! ## 5. What the declared sizes say -/

/-- The bytes that a member declares; a file of a size below zero yields nothing. -/
def Member.bytes (member : Member) : ℕ := if member.isDir then 0 else member.size.toNat

/-- Neither a check nor a member in another one's place stops the extraction of these members. -/
structure Extractable (limit : ℤ) (root : Location) (links : Location → Option Location)
    (members : List Member) : Prop where
  admitted : ∀ member ∈ members, ∃ target, Admitted links root member target
  totals : ∀ part, part <+: members → part ≠ [] → (part.map Member.size).sum ≤ limit
  apart : ∀ file ∈ members, file.isDir = false → ∀ target, Admitted links root file target →
    ¬ target <+: root ∧ ∀ member ∈ members, ∀ target', Admitted links root member target' →
      ¬ target <+: directoryOf member target'

section

variable {limit total : ℤ} {root target : Location} {links : Location → Option Location}
  {member : Member} {outcome : Outcome} {inputs front : List (Member × Outcome)}
  {members all : List Member} {disk : Disk} {e : Extraction}

theorem Admitted.target_eq {target' : Location} (h : Admitted links root member target)
    (h' : Admitted links root member target') : target' = target :=
  Except.ok.inj (h'.safeTarget.symm.trans h.safeTarget)

/-- What was let through is extractable. -/
theorem Processed.extractable (h : Processed limit root links 0 inputs front disk)
    (hdestination : Destination root disk) : Extractable limit root links (front.map Prod.fst) where
  admitted member hmember := by
    obtain ⟨input, hinput, rfl⟩ := List.mem_map.mp hmember
    obtain ⟨target, hadmitted, -⟩ := h.members input hinput
    exact ⟨target, hadmitted⟩
  totals part hpart hne := by
    obtain ⟨part', hpart', rfl⟩ := List.prefix_map_iff.mp hpart
    have htotal := h.totals part' hpart' (by rintro rfl; exact hne rfl)
    rw [Int.zero_add] at htotal
    rwa [List.map_map]
  apart file hfile hisFile target htarget := by
    obtain ⟨input, hinput, rfl⟩ := List.mem_map.mp hfile
    obtain ⟨marked, hadmitted, hmarked⟩ := h.members input hinput
    obtain rfl := htarget.target_eq hadmitted
    obtain ⟨content, hcontent⟩ := hmarked.file hisFile
    refine ⟨fun habove => ?_, ?_⟩
    · rw [hdestination.above _ habove] at hcontent
      cases hcontent
    · intro member hmember target' htarget' hdirectory
      obtain ⟨other, hother, rfl⟩ := List.mem_map.mp hmember
      obtain ⟨marked', hadmitted', hmarked'⟩ := h.members other hother
      obtain rfl := htarget'.target_eq hadmitted'
      rw [hmarked'.directories _ hdirectory] at hcontent
      cases hcontent

/-- The stream yields what is declared, and the system refuses nothing. -/
def Member.inFull (member : Member) : Outcome where
  stream := some (List.replicate member.size.toNat 0)

/-- The directories that the members need are there, and nothing is in the place of their files. -/
structure Prepared (root : Location) (links : Location → Option Location) (members : List Member)
    (disk : Disk) : Prop where
  destination : Destination root disk
  linked : disk.link? = links
  directories : ∀ member ∈ members, ∀ target, Admitted links root member target →
    ∀ part, part <+: directoryOf member target → disk part = some .directory
  files : ∀ member ∈ members, member.isDir = false → ∀ target, Admitted links root member target →
    disk target = none ∨ ∃ content, disk target = some (.file content)

theorem makeDirectories_existing (refuses : Location → Option OsError) {here : Location}
    {names : List EntryName}
    (h : ∀ part, part <+: here ++ names → e.disk part = some .directory) :
    makeDirectories refuses here names e = (.ok (), e) := by
  induction names generalizing here with
  | nil => rfl
  | cons name names ih =>
    have happend : here ++ name :: names = (here ++ [name]) ++ names := by simp
    rw [happend] at h
    unfold makeDirectories
    simp only [h (here ++ [name]) (List.prefix_append _ _)]
    exact ih h

/-- A member of a prepared archive is extracted in full. -/
theorem extractTarget_inFull (hall : Extractable limit root links all) (hmember : member ∈ all)
    (hprepared : Prepared root links all e.disk) :
    ∃ e', extractTarget root member member.inFull e = (.ok (), e') ∧
      Prepared root links all e'.disk ∧ e'.written = e.written + member.bytes := by
  obtain ⟨target, hadmitted⟩ := hall.admitted member hmember
  have hdirectories := hprepared.directories member hmember target hadmitted
  have htarget : safeTarget e.disk.link? root member.name = .ok target := by
    rw [hprepared.linked]
    exact hadmitted.safeTarget
  have hinside := (safeTarget_ok htarget).2
  unfold extractTarget
  rw [htarget]
  cases hdir : member.isDir with
  | true =>
    rw [directoryOf, if_pos hdir] at hdirectories
    refine ⟨e, ?_, hprepared, by rw [Member.bytes, if_pos hdir]; rfl⟩
    simp only [if_true]
    exact makeDirectories_existing _ hdirectories
  | false =>
    rw [directoryOf, if_neg (by simp [hdir])] at hdirectories
    have hfiles := hprepared.files member hmember hdir target hadmitted
    obtain ⟨hroot, happart⟩ := hall.apart member hmember hdir target hadmitted
    have hkept : Kept (e.disk target) (some (.file (List.replicate member.size.toNat 0))) := by
      rcases hfiles with hnone | ⟨content, hcontent⟩
      · exact hnone ▸ Kept.file _
      · exact hcontent ▸ Kept.rewritten content _
    have hput : Extends root e _ [Effect.file target (List.replicate member.size.toNat 0)] :=
      extends_put hinside rfl hkept trivial
    refine ⟨_, ?_, ⟨hprepared.destination.extends hput, hput.link?_eq.trans hprepared.linked, ?_, ?_⟩,
      ?_⟩
    · simp only [hadmitted.fileError hdir, extractFile, Bool.false_eq_true, if_false]
      rw [makeDirectories_existing _ hdirectories]
      simp only [Member.inFull, copyStream, hprepared.destination.follow_eq_self hinside]
      rcases hfiles with hnone | ⟨content, hcontent⟩
      · rw [hnone]
        rfl
      · rw [hcontent]
        rfl
    · intro other hother target' hadmitted' part hpart
      have hne : part ≠ target := by
        rintro rfl
        exact happart other hother target' hadmitted' hpart
      have hpartKept := hput.kept part
      rw [hprepared.directories other hother target' hadmitted' part hpart] at hpartKept
      exact hpartKept.eq_directory
    · intro other hother hfile target' hadmitted'
      have hotherKept := hput.kept target'
      rcases hprepared.files other hother hfile target' hadmitted' with hnone | ⟨content, hcontent⟩
      · by_cases heq : target' = target
        · subst heq
          exact .inr ⟨_, Function.update_self _ _ _⟩
        · left
          exact (Function.update_of_ne heq _ _).trans hnone
      · right
        rw [hcontent] at hotherKept
        exact hotherKept.eq_file
    · rw [hput.written_eq]
      simp [Member.bytes, hdir, Effect.size]

/-- The loop over a prepared archive. -/
theorem extractMembers_inFull (hall : Extractable limit root links all)
    (hmembers : ∀ member ∈ members, member ∈ all)
    (htotals : ∀ part, part <+: members → part ≠ [] → total + (part.map Member.size).sum ≤ limit)
    (hprepared : Prepared root links all e.disk) :
    ∃ e', extractMembers limit root total (members.map fun member => (member, member.inFull)) e =
        (.ok (), e') ∧
      Prepared root links all e'.disk ∧ e'.written = e.written + (members.map Member.bytes).sum := by
  induction members generalizing total e with
  | nil => exact ⟨e, rfl, hprepared, rfl⟩
  | cons member members ih =>
    rw [List.forall_mem_cons] at hmembers
    obtain ⟨target, hadmitted⟩ := hall.admitted member hmembers.1
    obtain ⟨middle, hmiddle, hprepared', hwritten⟩ :=
      extractTarget_inFull hall hmembers.1 hprepared
    have hlimit : ¬ limit < total + member.size := by
      have hfirst := htotals [member] ⟨members, rfl⟩ (List.cons_ne_nil _ _)
      simpa using hfirst
    have hrest : ∀ part, part <+: members → part ≠ [] →
        total + member.size + (part.map Member.size).sum ≤ limit := by
      intro part hpart _
      have hpart' := htotals (member :: part) ((List.prefix_cons_inj member).mpr hpart)
        (List.cons_ne_nil _ _)
      rwa [List.map_cons, List.sum_cons, ← Int.add_assoc] at hpart'
    obtain ⟨e', he', hprepared'', hwritten'⟩ := ih hmembers.2 hrest hprepared'
    refine ⟨e', ?_, hprepared'', ?_⟩
    · rw [List.map_cons]
      simp only [extractMembers, hadmitted.typeError, hlimit, if_false, hmiddle]
      exact he'
    · rw [hwritten', hwritten, List.map_cons, List.sum_cons, Nat.add_assoc]

theorem extractMembers_append {e' : Extraction} {back : List (Member × Outcome)}
    (h : extractMembers limit root total front e = (.ok (), e')) :
    extractMembers limit root total (front ++ back) e =
      extractMembers limit root (total + (front.map fun input => input.1.size).sum) back e' := by
  induction front generalizing total e with
  | nil =>
    obtain rfl := (Prod.mk.inj h).2
    simp
  | cons input front ih =>
    obtain ⟨member, outcome⟩ := input
    rw [List.cons_append, List.map_cons, List.sum_cons, ← Int.add_assoc]
    rw [extractMembers] at h ⊢
    cases htype : member.typeError with
    | some error =>
      rw [htype] at h
      cases h
    | none =>
      rw [htype] at h
      by_cases hlimit : limit < total + member.size
      · simp only [hlimit, if_true] at h
        cases h
      · simp only [hlimit, if_false] at h ⊢
        cases hresult : extractTarget root member outcome e with
        | mk result middle =>
          rw [hresult] at h
          cases result with
          | error error => cases h
          | ok _ => exact ih h

/-- A file system on which an archive is extracted in full: all directories are there. -/
def preparedDisk (links : Location → Option Location) (root : Location) (members : List Member) :
    Disk := fun location =>
  if location <+: root ∨ (members.any fun member =>
      match safeTarget links root member.name with
      | .ok target => decide (location <+: directoryOf member target)
      | .error _ => false) then some .directory
  else (links location).map Entry.link

theorem preparedDisk_needed {location : Location}
    (h : location <+: root ∨ ∃ member ∈ members, ∃ target,
      safeTarget links root member.name = .ok target ∧ location <+: directoryOf member target) :
    preparedDisk links root members location = some .directory := by
  unfold preparedDisk
  rw [if_pos]
  refine h.imp_right ?_
  rintro ⟨member, hmember, target, htarget, hpart⟩
  rw [List.any_eq_true]
  refine ⟨member, hmember, ?_⟩
  rw [htarget]
  exact decide_eq_true hpart

theorem preparedDisk_free {location : Location} (hroot : ¬ location <+: root)
    (h : ∀ member ∈ members, ∀ target, safeTarget links root member.name = .ok target →
      ¬ location <+: directoryOf member target) :
    preparedDisk links root members location = (links location).map Entry.link := by
  unfold preparedDisk
  rw [if_neg]
  rintro (habove | hany)
  · exact hroot habove
  · obtain ⟨member, hmember, hpart⟩ := List.any_eq_true.mp hany
    cases htarget : safeTarget links root member.name with
    | error error =>
      rw [htarget] at hpart
      cases hpart
    | ok target =>
      rw [htarget] at hpart
      exact h member hmember target htarget (of_decide_eq_true hpart)

theorem directoryOf_within (member : Member) (target : Location) : directoryOf member target <+: target := by
  unfold directoryOf
  split
  · exact List.prefix_rfl
  · exact target.dropLast_prefix

theorem prepared_preparedDisk
    (hlinks : ∀ location, location <+: root ∨ root <+: location → links location = none)
    (hall : Extractable limit root links members) :
    Prepared root links members (preparedDisk links root members) := by
  -- what is needed as a directory is no link
  have hneeded : ∀ location, (∃ member ∈ members, ∃ target,
      safeTarget links root member.name = .ok target ∧ location <+: directoryOf member target) →
      location <+: root ∨ root <+: location := by
    rintro location ⟨member, -, target, htarget, hpart⟩
    exact prefix_comparable (hpart.trans (directoryOf_within member target))
      (.inl (safeTarget_ok htarget).2)
  refine ⟨⟨fun location h => preparedDisk_needed (.inl h), ?_⟩, ?_, ?_, ?_⟩
  · intro location entry hinside hentry
    by_cases h : location <+: root ∨ ∃ member ∈ members, ∃ target,
      safeTarget links root member.name = .ok target ∧ location <+: directoryOf member target
    · rw [preparedDisk_needed h] at hentry
      exact Option.some.inj hentry ▸ trivial
    · push Not at h
      rw [preparedDisk_free h.1 h.2, hlinks location (.inr hinside)] at hentry
      cases hentry
  · funext location
    unfold Disk.link?
    by_cases h : location <+: root ∨ ∃ member ∈ members, ∃ target,
      safeTarget links root member.name = .ok target ∧ location <+: directoryOf member target
    · rw [preparedDisk_needed h, hlinks location (h.elim .inl (hneeded location))]
      rfl
    · push Not at h
      rw [preparedDisk_free h.1 h.2]
      cases links location <;> rfl
  · intro member hmember target hadmitted part hpart
    exact preparedDisk_needed (.inr ⟨member, hmember, target, hadmitted.safeTarget, hpart⟩)
  · intro file hfile hisFile target hadmitted
    left
    obtain ⟨hroot, happart⟩ := hall.apart file hfile hisFile target hadmitted
    rw [preparedDisk_free hroot, hlinks target (.inr (safeTarget_ok hadmitted.safeTarget).2)]
    · rfl
    · intro member hmember target' htarget'
      obtain ⟨other, hother⟩ := hall.admitted member hmember
      obtain rfl := Except.ok.inj (htarget'.symm.trans hother.safeTarget)
      exact happart member hmember target' hother

end

/-! ## 6. Archives -/

/-- A stream yields no more than the declared size. -/
def Yields (inputs : List (Member × Outcome)) : Prop :=
  ∀ input ∈ inputs, ∀ bytes, input.2.stream = some bytes → (bytes.length : ℤ) ≤ max input.1.size 0

/-- `_extract_zip` and `_extract_tar`. -/
def extract (limit : ℤ) (root : Location) (inputs : List (Member × Outcome)) (disk : Disk) :
    Except MaterializationError Unit × Extraction :=
  extractMembers limit root 0 inputs { disk := disk }

/-- What is expected of an extraction, however it ends. -/
structure Contained (limit : ℤ) (root : Location) (disk : Disk)
    (inputs : List (Member × Outcome)) : Prop where
  /-- what is made or written is a regular file or a directory at its real path in the destination -/
  inside : ∀ effect ∈ (extract limit root inputs disk).2.effects, root <+: effect.location ∧
    Location.follow (extract limit root inputs disk).2.disk.link? effect.location = effect.location ∧
      ∃ entry, (extract limit root inputs disk).2.disk effect.location = some entry ∧ entry.Plain
  only : ∀ location, (extract limit root inputs disk).2.disk location ≠ disk location →
    ∃ effect ∈ (extract limit root inputs disk).2.effects, effect.location = location
  bounded : ((extract limit root inputs disk).2.written : ℤ) ≤ limit
  /-- a name that leads out of the destination ends the extraction in front of its member -/
  stops : ∀ front input back, inputs = front ++ input :: back →
    ¬ root <+: memberPath disk.link? root input.1.name →
    (∃ error, (extract limit root inputs disk).1 = .error error) ∧
      (extract limit root inputs disk).2 = (extract limit root front disk).2

section

variable {limit total : ℤ} {root : Location} {links : Location → Option Location} {disk : Disk}
  {inputs front back : List (Member × Outcome)} {input : Member × Outcome} {e e' : Extraction}

theorem extractMembers_error {error : MaterializationError}
    (h : extractMembers limit root total front e = (.error error, e')) :
    extractMembers limit root total (front ++ back) e = (.error error, e') := by
  induction front generalizing total e with
  | nil => cases h
  | cons input front ih =>
    obtain ⟨member, outcome⟩ := input
    rw [List.cons_append]
    rw [extractMembers] at h ⊢
    cases htype : member.typeError with
    | some typeError =>
      rw [htype] at h
      exact h
    | none =>
      rw [htype] at h
      by_cases hlimit : limit < total + member.size
      · simp only [hlimit, if_true] at h ⊢
        exact h
      · simp only [hlimit, if_false] at h ⊢
        cases hresult : extractTarget root member outcome e with
        | mk result middle =>
          rw [hresult] at h
          cases result with
          | error error => exact h
          | ok _ => exact ih h

/-- A member whose name leads out of the destination is not extracted. -/
theorem extractMembers_outside (h : ¬ root <+: memberPath e.disk.link? root input.1.name) :
    ∃ error, extractMembers limit root total (input :: back) e = (.error error, e) := by
  obtain ⟨member, outcome⟩ := input
  rw [extractMembers]
  cases member.typeError with
  | some error => exact ⟨error, rfl⟩
  | none =>
    by_cases hlimit : limit < total + member.size
    · simp only [hlimit, if_true]
      exact ⟨_, rfl⟩
    · simp only [hlimit, if_false, extractTarget]
      cases htarget : safeTarget e.disk.link? root member.name with
      | error error => exact ⟨error, rfl⟩
      | ok target =>
        obtain ⟨rfl, hinside⟩ := safeTarget_ok htarget
        exact absurd hinside h

theorem extract_stops (hdestination : Destination root disk)
    (h : ¬ root <+: memberPath disk.link? root input.1.name) :
    (∃ error, (extract limit root (front ++ input :: back) disk).1 = .error error) ∧
      (extract limit root (front ++ input :: back) disk).2 = (extract limit root front disk).2 := by
  unfold extract
  obtain ⟨new, -, hext, -, -⟩ :=
    extractMembers_spec (e := { disk := disk }) limit 0 front hdestination
  cases hfront : extractMembers limit root 0 front { disk := disk } with
  | mk result middle =>
    rw [hfront] at hext
    cases result with
    | error error =>
      rw [extractMembers_error hfront]
      exact ⟨⟨error, rfl⟩, rfl⟩
    | ok _ =>
      have houtside : ¬ root <+: memberPath middle.disk.link? root input.1.name := by
        rwa [hext.link?_eq]
      rw [extractMembers_append hfront]
      obtain ⟨error, hstop⟩ := extractMembers_outside houtside
      rw [hstop]
      exact ⟨⟨error, rfl⟩, rfl⟩

theorem arriving_le (hyields : Yields inputs) (hinput : input ∈ inputs) :
    arriving input ≤ input.1.bytes := by
  unfold arriving Member.bytes
  split
  · exact Nat.le_refl 0
  · cases hstream : input.2.stream with
    | none => exact Nat.zero_le _
    | some bytes =>
      have hlength := hyields input hinput bytes hstream
      rw [Option.getD_some]
      omega

/-- What holds of every extraction, with the members that the loop has let through. -/
theorem extract_spec (limit : ℤ) (hdestination : Destination root disk) (hyields : Yields inputs) :
    ∃ front, front <+: inputs.map Prod.fst ∧ Extractable limit root disk.link? front ∧
      (extract limit root inputs disk).2.written ≤ (front.map Member.bytes).sum ∧
      ∃ new, Extends root { disk := disk } (extract limit root inputs disk).2 new := by
  obtain ⟨new, front, hext, hprocessed, hwritten⟩ :=
    extractMembers_spec (e := { disk := disk }) limit 0 inputs hdestination
  refine ⟨front.map Prod.fst, hprocessed.part.map _,
    hprocessed.extractable (hdestination.extends hext), ?_, new, hext⟩
  rw [extract, hext.written_eq, hwritten, List.map_map]
  have hempty : Extraction.written { disk := disk } = 0 := rfl
  rw [hempty, Nat.zero_add]
  apply List.sum_le_sum
  intro input hinput
  exact arriving_le hyields (hprocessed.part.subset hinput)

theorem contained_iff (hdestination : Destination root disk) (hyields : Yields inputs) :
    Contained limit root disk inputs ↔ ((extract limit root inputs disk).2.written : ℤ) ≤ limit := by
  refine ⟨fun h => h.bounded, fun hbounded => ?_⟩
  obtain ⟨front, -, -, -, new, hext⟩ := extract_spec limit hdestination hyields
  have heffects : (extract limit root inputs disk).2.effects = new := hext.effects
  refine ⟨?_, ?_, hbounded, ?_⟩
  · intro effect heffect
    rw [heffects] at heffect
    obtain ⟨hinside, hplain⟩ := hext.inside effect heffect
    exact ⟨hinside, (hdestination.extends hext).follow_eq_self hinside, hplain⟩
  · intro location hchanged
    rw [heffects]
    by_contra hnone
    push Not at hnone
    exact hchanged (hext.only location hnone)
  · rintro front input back rfl houtside
    exact extract_stops hdestination houtside

end

/-- The destination that `_fetch_sync` has just made, with nothing in it. -/
theorem destination_of_mkdir {root : Location} {disk : Disk}
    (habove : ∀ location, location <+: root → location ≠ root → disk location = some .directory)
    (hfree : ∀ location, root <+: location → disk location = none) :
    Destination root (Function.update disk root (some .directory)) where
  above location hlocation := by
    by_cases h : location = root
    · rw [h, Function.update_self]
    · rw [Function.update_of_ne h, habove location hlocation h]
  plain location entry hlocation hentry := by
    by_cases h : location = root
    · rw [h, Function.update_self] at hentry
      exact Option.some.inj hentry ▸ trivial
    · rw [Function.update_of_ne h, hfree location hlocation] at hentry
      cases hentry

section

variable {limit : ℤ} {root : Location} {links : Location → Option Location} {archive : Archive}
  {front : List Member}

/-- The streams of all members yield what is declared. -/
theorem yields_inFull (members : List Member) :
    Yields (members.map fun member => (member, member.inFull)) := by
  intro input hinput bytes hbytes
  obtain ⟨member, -, rfl⟩ := List.mem_map.mp hinput
  obtain rfl := Option.some.inj hbytes
  simp

theorem map_inFull (members : List Member) :
    (members.map fun member => (member, member.inFull)).map Prod.fst = members := by
  simp [Function.comp_def]

/-- Where the streams yield what is declared, a front part that gets past the checks is written in full. -/
theorem bytes_le_of_contained
    (hlinks : ∀ location, location <+: root ∨ root <+: location → links location = none)
    (h : ∀ disk, disk.link? = links → Destination root disk → ∀ inputs,
      inputs.map Prod.fst = archive.members → Yields inputs → Contained limit root disk inputs)
    (hfront : front <+: archive.members) (hextractable : Extractable limit root links front) :
    ((front.map Member.bytes).sum : ℤ) ≤ limit := by
  obtain ⟨back, hback⟩ := hfront
  have hprepared := prepared_preparedDisk hlinks hextractable
  have htotals : ∀ part, part <+: front → part ≠ [] → 0 + (part.map Member.size).sum ≤ limit := by
    intro part hpart hne
    rw [Int.zero_add]
    exact hextractable.totals part hpart hne
  obtain ⟨e', hfull, hprepared', hwritten⟩ := extractMembers_inFull hextractable
    (fun member hmember => hmember) htotals (e := { disk := preparedDisk links root front }) hprepared
  have hbounded := (h _ hprepared.linked hprepared.destination _ (map_inFull archive.members)
    (yields_inFull archive.members)).bounded
  rw [extract, ← hback, List.map_append, extractMembers_append hfull] at hbounded
  -- the rest of the archive only adds to what is written
  obtain ⟨new, -, hext, -, -⟩ := extractMembers_spec limit
    (0 + ((front.map fun member => (member, member.inFull)).map fun input => input.1.size).sum)
    (back.map fun member => (member, member.inFull)) hprepared'.destination
  rw [hext.written_eq, hwritten] at hbounded
  have hempty : Extraction.written { disk := preparedDisk links root front } = 0 := rfl
  omega

/-- Without a size below zero the running total bounds the files. -/
theorem bytes_le_of_sizes (hlimit : 0 ≤ limit) (hsizes : ∀ member ∈ front, 0 ≤ member.size)
    (h : Extractable limit root links front) : ((front.map Member.bytes).sum : ℤ) ≤ limit := by
  by_cases hne : front = []
  · subst hne
    simpa using hlimit
  have hle : ((front.map Member.bytes).sum : ℤ) ≤ (front.map Member.size).sum := by
    clear h hne
    induction front with
    | nil => simp
    | cons member front ih =>
      rw [List.forall_mem_cons] at hsizes
      have hrest := ih hsizes.2
      have hbytes : (member.bytes : ℤ) ≤ member.size := by
        have hsize := hsizes.1
        unfold Member.bytes
        split <;> omega
      simp only [List.map_cons, List.sum_cons]
      omega
  exact hle.trans (h.totals front List.prefix_rfl hne)

end

/-- An extraction writes regular files and directories at their real paths in the destination only, and
stops in front of a name that leads out of it, whatever the archive; it writes at most `limit` bytes exactly
when no front part of the archive gets past the checks with files of more than `limit` bytes.  A front part
can do so when a member, such as a directory of a tar archive, declares a size below zero. -/
theorem extraction_contained_iff {links : Location → Option Location} {root : Location}
    (hlinks : ∀ location, location <+: root ∨ root <+: location → links location = none)
    (limit : ℤ) (archive : Archive) :
    (∀ disk, disk.link? = links → Destination root disk → ∀ inputs,
      inputs.map Prod.fst = archive.members → Yields inputs → Contained limit root disk inputs) ↔
    ∀ front, front <+: archive.members → Extractable limit root links front →
      ((front.map Member.bytes).sum : ℤ) ≤ limit := by
  constructor
  · exact fun h front hfront => bytes_le_of_contained hlinks h hfront
  · rintro h disk rfl hdestination inputs hmembers hyields
    rw [contained_iff hdestination hyields]
    obtain ⟨front, hfront, hextractable, hwritten, -⟩ :=
      extract_spec limit hdestination hyields
    rw [hmembers] at hfront
    have hbound := h front hfront hextractable
    omega

/-! ### A tar archive with a size below zero -/

def dest : EntryName := ⟨"dest", by decide⟩

def emptyDest : Disk := fun location =>
  if location = [] ∨ location = [dest] then some .directory else none

/-- A directory of `size` bytes, and a file of 600 bytes in it. -/
def directoryAndFile (size : ℤ) : Archive :=
  .tar [⟨"d/", size, .directory⟩, ⟨"d/a", 600, .regular⟩]

theorem destination_emptyDest : Destination [dest] emptyDest where
  above location hlocation := by
    have hcases : location = [] ∨ location = [dest] := by
      cases location with
      | nil => exact .inl rfl
      | cons name names =>
        obtain ⟨rfl, hnames⟩ := List.cons_prefix_cons.mp hlocation
        rw [List.prefix_nil.mp hnames]
        exact .inr rfl
    exact if_pos hcases
  plain location entry _ hentry := by
    unfold emptyDest at hentry
    split at hentry
    · exact Option.some.inj hentry ▸ trivial
    · cases hentry

theorem link?_emptyDest : emptyDest.link? = fun _ => none := by
  funext location
  unfold Disk.link? emptyDest
  split <;> rfl

theorem directoryAndFile_contained : Contained 1000 [dest] emptyDest
    ((directoryAndFile 0).members.map fun member => (member, member.inFull)) := by
  refine (extraction_contained_iff (fun _ _ => rfl) 1000 (directoryAndFile 0)).mpr ?_ emptyDest
    link?_emptyDest destination_emptyDest _ (map_inFull _) (yields_inFull _)
  intro front hfront
  apply bytes_le_of_sizes (by decide)
  intro member hmember
  have hsizes : (directoryAndFile 0).members.all (fun member => 0 ≤ member.size) = true := by
    decide
  simpa using List.all_eq_true.mp hsizes member (hfront.subset hmember)

/-- With a directory of -1000 bytes in front of it, a file of 600 bytes gets past a limit of 500. -/
theorem extraction_unbounded : ¬ ∀ (links : Location → Option Location) (root : Location),
    (∀ location, location <+: root ∨ root <+: location → links location = none) →
    ∀ (limit : ℤ) (archive : Archive), 0 ≤ limit → ∀ disk, disk.link? = links →
      Destination root disk → ∀ inputs, inputs.map Prod.fst = archive.members → Yields inputs →
        Contained limit root disk inputs := by
  intro h
  have hcontained := h (fun _ => none) [dest] (fun _ _ => rfl) 500 (directoryAndFile (-1000))
    (by decide) emptyDest link?_emptyDest destination_emptyDest _ (map_inFull _) (yields_inFull _)
  have hwritten : (extract 500 [dest]
      ((directoryAndFile (-1000)).members.map fun member => (member, member.inFull))
      emptyDest).2.written = 600 := by
    decide +kernel
  have hbounded := hcontained.bounded
  rw [hwritten] at hbounded
  omega

end JbOrchestrator.Skills
