import JbOrchestrator.Lib.Framing
import JbOrchestrator.Lib.Paths
import JbOrchestrator.Lib.Results
import JbOrchestrator.Lib.SortBy
import Mathlib.Data.String.Basic

/-!
# Digests — what `compute_directory_digest` hashes

The digest is taken of the files below a directory in the order of their relative paths, each path and
each content behind its length.  Two directories without symbolic links have one digest exactly when they
hold the same files.
-/

open Lib

namespace JbOrchestrator.Skills

abbrev Bytes := List UInt8

/-! ## 1. Directories -/

/-- A path below a directory, by its names. -/
structure RelativePath where
  names : List String
  valid : names ≠ [] ∧ ∀ name ∈ names, name ≠ "" ∧ '/' ∉ name.toList
  deriving DecidableEq

/-- `as_posix()`: the names with a slash between them. -/
def RelativePath.asPosix (path : RelativePath) : String :=
  String.ofList ((Paths.join '/' (path.names.map String.toList)).drop 1)

inductive Node where
  | file (content : Bytes)
  | directory
  | symlink
  /-- a device, a socket or a pipe -/
  | special
  deriving DecidableEq

/-- What `rglob("*")` finds below a directory, in its order. -/
structure Tree where
  entries : List (RelativePath × Node)
  nodup : (entries.map Prod.fst).Nodup

namespace Tree

variable (tree : Tree)

def node? (path : RelativePath) : Option Node := tree.entries.lookup path

def SymlinkFree : Prop := ∀ path, (path, Node.symlink) ∉ tree.entries

def SameFiles (other : Tree) : Prop :=
  ∀ path content, (path, Node.file content) ∈ tree.entries ↔ (path, Node.file content) ∈ other.entries

end Tree

/-! ## 2. The digest -/

inductive OsError where
  | fileNotFound | fileExists | notADirectory | isADirectory | directoryNotEmpty
  | errno (code : ℕ)
  deriving DecidableEq, Repr

inductive MaterializationError where
  /-- `SkillMaterializationError` -/
  | skill (message : String)
  | os (error : OsError)
  | overflow
  | other
  deriving DecidableEq, Repr

/-- `text.encode("utf-8")`. -/
def encode (text : String) : Bytes := text.toUTF8.data.toList

/-- `size.to_bytes(8, "big")`. -/
def toBytes (size : ℕ) : Except MaterializationError Bytes :=
  if size < 256 ^ 8 then .ok (bigEndian 8 size) else .error .overflow

/-- The loop over `rglob("*")`. -/
def collectFiles (root : String) :
    List (RelativePath × Node) → Except MaterializationError (List (String × Bytes))
  | [] => .ok []
  | (path, .symlink) :: _ =>
    .error (.skill ("skill packages cannot contain symlinks: " ++ root ++ "/" ++ path.asPosix))
  | (path, .file content) :: entries => do
    let files ← collectFiles root entries
    pure ((path.asPosix, content) :: files)
  | (_, .directory) :: entries | (_, .special) :: entries => collectFiles root entries

/-- The loop over the sorted files: what the hash is fed with. -/
def updates : List (String × Bytes) → Except MaterializationError Bytes
  | [] => .ok []
  | (relative, content) :: files => do
    let encoded := encode relative
    let length ← toBytes encoded.length
    let size ← toBytes content.length
    let rest ← updates files
    pure ((length ++ encoded) ++ (size ++ content) ++ rest)

/-- `compute_directory_digest` of a directory at the resolved path `root`. -/
def Tree.digest (sha256 : Bytes → String) (root : String) (tree : Tree) :
    Except MaterializationError String := do
  let files ← collectFiles root tree.entries
  let fed ← updates (sortBy Prod.fst files)
  pure ("sha256:" ++ sha256 fed)

/-! ## 3. Paths and contents are read back -/

theorem RelativePath.asPosix_inj {path other : RelativePath} (h : path.asPosix = other.asPosix) :
    path = other := by
  obtain ⟨names, hnames, hplain⟩ := path
  obtain ⟨names', hnames', hplain'⟩ := other
  have hdrop := String.ofList_injective h
  -- the slash that is dropped stands in front of every path
  have hjoin : Paths.join '/' (names.map String.toList) = Paths.join '/' (names'.map String.toList) := by
    cases names with
    | nil => exact absurd rfl hnames
    | cons name names =>
      cases names' with
      | nil => exact absurd rfl hnames'
      | cons name' names' =>
        simp only [List.map_cons, Paths.join_cons, List.drop_succ_cons, List.drop_zero] at hdrop ⊢
        rw [hdrop]
  have hsegments : ∀ names : List String, (∀ name ∈ names, name ≠ "" ∧ '/' ∉ name.toList) →
      Paths.Plain '/' (names.map String.toList) := by
    intro names hplain segment hsegment
    obtain ⟨name, hname, rfl⟩ := List.mem_map.mp hsegment
    exact (hplain name hname).2
  have hmap := Paths.join_inj (hsegments names hplain) (hsegments names' hplain') hjoin
  have heq : names = names' := List.map_injective_iff.mpr (fun _ _ => String.toList_injective) hmap
  subst heq
  rfl

theorem encode_injective : Function.Injective encode := by
  intro s t h
  unfold encode at h
  rw [String.toUTF8_eq_toByteArray, String.toUTF8_eq_toByteArray] at h
  exact String.toByteArray_inj.mp (ByteArray.ext (Array.toList_inj.mp h))

/-- The lengths fit into eight bytes. -/
def Fits (file : String × Bytes) : Prop :=
  (encode file.1).length < 256 ^ 8 ∧ file.2.length < 256 ^ 8

/-- What the hash is fed with for one file. -/
def frame (file : String × Bytes) : Bytes :=
  (bigEndian 8 (encode file.1).length ++ encode file.1) ++ (bigEndian 8 file.2.length ++ file.2)

theorem framed_frame : Framed {file | Fits file} frame := by
  have htext := Framed.behind_length (framed_bigEndian 8)
  have hpair := htext.pair htext
  intro file hfile other hother x y h
  obtain ⟨hfiles, hrest⟩ := hpair (encode file.1, file.2) hfile (encode other.1, other.2) hother x y h
  obtain ⟨hpath, hcontent⟩ := Prod.mk.inj hfiles
  exact ⟨Prod.ext (encode_injective hpath) hcontent, hrest⟩

theorem frame_ne_nil (file : String × Bytes) : frame file ≠ [] := by
  intro h
  have hlength := congrArg List.length h
  unfold frame at hlength
  simp only [List.length_append, length_bigEndian, List.length_nil] at hlength
  omega

theorem toBytes_eq_ok_iff {size : ℕ} {bytes : Bytes} :
    toBytes size = .ok bytes ↔ size < 256 ^ 8 ∧ bigEndian 8 size = bytes := by
  unfold toBytes
  split
  · rename_i h
    rw [Except.ok.injEq]
    exact ⟨fun hbytes => ⟨h, hbytes⟩, fun hbytes => hbytes.2⟩
  · rename_i h
    exact ⟨nofun, fun hbytes => absurd hbytes.1 h⟩

/-- The loop feeds the frames of the files one after the other. -/
theorem updates_eq_ok_iff {files : List (String × Bytes)} {fed : Bytes} :
    updates files = .ok fed ↔ (∀ file ∈ files, Fits file) ∧ files.flatMap frame = fed := by
  induction files generalizing fed with
  | nil => simp [updates]
  | cons file files ih =>
    obtain ⟨relative, content⟩ := file
    rw [List.forall_mem_cons, List.flatMap_cons]
    constructor
    · intro h
      obtain ⟨length, hlength, h⟩ := bind_ok h
      obtain ⟨size, hsize, h⟩ := bind_ok h
      obtain ⟨rest, hrest, h⟩ := bind_ok h
      obtain ⟨hpath, rfl⟩ := toBytes_eq_ok_iff.mp hlength
      obtain ⟨hcontent, rfl⟩ := toBytes_eq_ok_iff.mp hsize
      obtain ⟨hfits, rfl⟩ := ih.mp hrest
      exact ⟨⟨⟨hpath, hcontent⟩, hfits⟩, Except.ok.inj h⟩
    · rintro ⟨⟨hfile, hfits⟩, rfl⟩
      have hlength := toBytes_eq_ok_iff.mpr ⟨hfile.1, rfl⟩
      have hsize := toBytes_eq_ok_iff.mpr ⟨hfile.2, rfl⟩
      have hrest := ih.mpr ⟨hfits, rfl⟩
      simp only [updates, hlength, hsize, hrest]
      rfl

/-! ## 4. The files of a directory -/

section

variable {root : String} {entries : List (RelativePath × Node)} {files : List (String × Bytes)}

theorem collectFiles_symlinkFree (h : collectFiles root entries = .ok files) (path : RelativePath) :
    (path, Node.symlink) ∉ entries := by
  induction entries generalizing files with
  | nil => exact List.not_mem_nil
  | cons entry entries ih =>
    obtain ⟨first, node⟩ := entry
    cases node with
    | symlink => cases h
    | file content =>
      obtain ⟨rest, hrest, -⟩ := bind_ok h
      simpa using ih hrest
    | directory => simpa using ih h
    | special => simpa using ih h

theorem exists_collectFiles (h : ∀ path, (path, Node.symlink) ∉ entries) :
    ∃ files, collectFiles root entries = .ok files := by
  induction entries with
  | nil => exact ⟨[], rfl⟩
  | cons entry entries ih =>
    obtain ⟨first, node⟩ := entry
    have hrest := ih fun path hmem => h path (List.mem_cons_of_mem _ hmem)
    obtain ⟨files, hfiles⟩ := hrest
    cases node with
    | symlink => exact absurd List.mem_cons_self (h first)
    | file content =>
      refine ⟨(first.asPosix, content) :: files, ?_⟩
      simp only [collectFiles, hfiles]
      rfl
    | directory => exact ⟨files, hfiles⟩
    | special => exact ⟨files, hfiles⟩

theorem mem_collectFiles (h : collectFiles root entries = .ok files) {file : String × Bytes} :
    file ∈ files ↔ ∃ path, (path, Node.file file.2) ∈ entries ∧ path.asPosix = file.1 := by
  induction entries generalizing files with
  | nil =>
    obtain rfl := Except.ok.inj h
    simp
  | cons entry entries ih =>
    obtain ⟨first, node⟩ := entry
    cases node with
    | symlink => cases h
    | file content =>
      obtain ⟨rest, hrest, h⟩ := bind_ok h
      obtain rfl := Except.ok.inj h
      rw [List.mem_cons, ih hrest]
      constructor
      · rintro (rfl | ⟨path, hpath, hposix⟩)
        · exact ⟨first, List.mem_cons_self, rfl⟩
        · exact ⟨path, List.mem_cons_of_mem _ hpath, hposix⟩
      · rintro ⟨path, hpath, hposix⟩
        rcases List.mem_cons.mp hpath with heq | hpath
        · obtain ⟨rfl, hcontent⟩ := Prod.mk.inj heq
          left
          exact Prod.ext hposix.symm (Node.file.inj hcontent)
        · right
          exact ⟨path, hpath, hposix⟩
    | directory => simpa using ih h
    | special => simpa using ih h

theorem collectFiles_nodup (h : collectFiles root entries = .ok files)
    (hnodup : (entries.map Prod.fst).Nodup) : (files.map Prod.fst).Nodup := by
  induction entries generalizing files with
  | nil =>
    obtain rfl := Except.ok.inj h
    exact List.nodup_nil
  | cons entry entries ih =>
    obtain ⟨first, node⟩ := entry
    rw [List.map_cons, List.nodup_cons] at hnodup
    cases node with
    | symlink => cases h
    | file content =>
      obtain ⟨rest, hrest, h⟩ := bind_ok h
      obtain rfl := Except.ok.inj h
      rw [List.map_cons, List.nodup_cons]
      refine ⟨?_, ih hrest hnodup.2⟩
      intro hmem
      obtain ⟨file, hfile, hposix⟩ := List.mem_map.mp hmem
      obtain ⟨path, hpath, hfst⟩ := (mem_collectFiles hrest).mp hfile
      obtain rfl := RelativePath.asPosix_inj (hfst.trans hposix)
      exact hnodup.1 (List.mem_map.mpr ⟨_, hpath, rfl⟩)
    | directory => exact ih h hnodup.2
    | special => exact ih h hnodup.2

end

namespace Tree

variable {sha256 : Bytes → String} {root root' digest digest' : String} {tree tree' : Tree}

theorem digest_eq_ok_iff : tree.digest sha256 root = .ok digest ↔
    ∃ files, collectFiles root tree.entries = .ok files ∧ (∀ file ∈ files, Fits file) ∧
      "sha256:" ++ sha256 ((sortBy Prod.fst files).flatMap frame) = digest := by
  constructor
  · intro h
    obtain ⟨files, hfiles, h⟩ := bind_ok h
    obtain ⟨fed, hfed, h⟩ := bind_ok h
    obtain ⟨hfits, rfl⟩ := updates_eq_ok_iff.mp hfed
    refine ⟨files, hfiles, ?_, Except.ok.inj h⟩
    intro file hfile
    exact hfits file (SortBy.mem_iff.mpr hfile)
  · rintro ⟨files, hfiles, hfits, rfl⟩
    have hfed : updates (sortBy Prod.fst files) = .ok ((sortBy Prod.fst files).flatMap frame) :=
      updates_eq_ok_iff.mpr ⟨fun file hfile => hfits file (SortBy.mem_iff.mp hfile), rfl⟩
    unfold Tree.digest
    rw [hfiles]
    simp only [Except.bind, bind, hfed]
    rfl

/-- A directory has a digest when it holds no symbolic link and no length takes more than eight
bytes. -/
theorem exists_digest_iff : (∃ digest, tree.digest sha256 root = .ok digest) ↔
    tree.SymlinkFree ∧
      ∀ path content, (path, Node.file content) ∈ tree.entries → Fits (path.asPosix, content) := by
  constructor
  · rintro ⟨digest, h⟩
    obtain ⟨files, hfiles, hfits, -⟩ := digest_eq_ok_iff.mp h
    refine ⟨collectFiles_symlinkFree hfiles, ?_⟩
    intro path content hmem
    exact hfits _ ((mem_collectFiles hfiles).mpr ⟨path, hmem, rfl⟩)
  · rintro ⟨hfree, hfits⟩
    obtain ⟨files, hfiles⟩ : ∃ files, collectFiles root tree.entries = .ok files :=
      exists_collectFiles hfree
    refine ⟨_, digest_eq_ok_iff.mpr ⟨files, hfiles, ?_, rfl⟩⟩
    intro file hfile
    obtain ⟨path, hpath, hposix⟩ := (mem_collectFiles hfiles).mp hfile
    have hfile := hfits path file.2 hpath
    rw [hposix] at hfile
    exact hfile

/-- The files of two directories are the same when what the loops collect is. -/
theorem sameFiles_iff {files files' : List (String × Bytes)}
    (h : collectFiles root tree.entries = .ok files)
    (h' : collectFiles root' tree'.entries = .ok files') :
    tree.SameFiles tree' ↔ ∀ file, file ∈ files ↔ file ∈ files' := by
  constructor
  · intro hsame file
    rw [mem_collectFiles h, mem_collectFiles h']
    exact exists_congr fun path => and_congr_left fun _ => hsame path file.2
  · intro hfiles path content
    have hfile := hfiles (path.asPosix, content)
    rw [mem_collectFiles h, mem_collectFiles h'] at hfile
    constructor
    · intro hmem
      obtain ⟨other, hother, hposix⟩ := hfile.mp ⟨path, hmem, rfl⟩
      exact RelativePath.asPosix_inj hposix ▸ hother
    · intro hmem
      obtain ⟨other, hother, hposix⟩ := hfile.mpr ⟨path, hmem, rfl⟩
      exact RelativePath.asPosix_inj hposix ▸ hother

/-- The digest does not depend on the order in which the files are found. -/
theorem SameFiles.digest_eq (hsame : tree.SameFiles tree')
    (h : tree.digest sha256 root = .ok digest) (h' : tree'.digest sha256 root' = .ok digest') :
    digest = digest' := by
  obtain ⟨files, hfiles, -, rfl⟩ := digest_eq_ok_iff.mp h
  obtain ⟨files', hfiles', -, rfl⟩ := digest_eq_ok_iff.mp h'
  have hnodup := collectFiles_nodup hfiles tree.nodup
  have hnodup' := collectFiles_nodup hfiles' tree'.nodup
  have hperm : files.Perm files' :=
    (List.perm_ext_iff_of_nodup hnodup.of_map hnodup'.of_map).mpr ((sameFiles_iff hfiles hfiles').mp hsame)
  rw [SortBy.eq_of_perm hnodup' hperm]

/-- What the hash is fed with is different for different files. -/
theorem sameFiles_of_digest_eq (hsha256 : Function.Injective sha256)
    (h : tree.digest sha256 root = .ok digest) (h' : tree'.digest sha256 root' = .ok digest) :
    tree.SameFiles tree' := by
  obtain ⟨files, hfiles, hfits, hdigest⟩ := digest_eq_ok_iff.mp h
  obtain ⟨files', hfiles', hfits', rfl⟩ := digest_eq_ok_iff.mp h'
  have hfed := hsha256 (String.append_right_inj _ |>.mp hdigest)
  have hsorted : sortBy Prod.fst files = sortBy Prod.fst files' := by
    apply framed_frame.flatMap_inj frame_ne_nil _ _ hfed
    · exact fun file hfile => hfits file (SortBy.mem_iff.mp hfile)
    · exact fun file hfile => hfits' file (SortBy.mem_iff.mp hfile)
  rw [sameFiles_iff hfiles hfiles']
  intro file
  have hmem : file ∈ sortBy Prod.fst files ↔ file ∈ files := SortBy.mem_iff
  rw [← hmem, hsorted, SortBy.mem_iff]

theorem digest_eq_iff (hsha256 : Function.Injective sha256)
    (h : tree.digest sha256 root = .ok digest) (h' : tree'.digest sha256 root' = .ok digest') :
    digest = digest' ↔ tree.SameFiles tree' := by
  constructor
  · rintro rfl
    exact sameFiles_of_digest_eq hsha256 h h'
  · exact fun hsame => hsame.digest_eq h h'

end Tree

end JbOrchestrator.Skills
