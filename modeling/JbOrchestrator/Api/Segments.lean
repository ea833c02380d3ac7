import JbOrchestrator.Api.Security
import Mathlib.Data.List.Forall2

/-!
# Segments — `required_permission` as a function of the segments of the path

The tests of `required_permission` are suffix, prefix and substring tests on the raw path.  Each of
them starts at a `/`, so each is a statement about whole segments, or about how a segment starts.
The permission therefore changes with a path parameter only where the parameter spells a word of one
of the tests, and with the spelling of a UUID only through the pattern of `/requests`.
-/

open Lib

namespace JbOrchestrator.Api

/-- The path of `segments`. -/
def pathOf (segments : List String) : String := String.join (segments.map ("/" ++ ·))

def SlashFree (segments : List String) : Prop := ∀ segment ∈ segments, '/' ∉ segment.toList

instance (segments : List String) : Decidable (SlashFree segments) :=
  inferInstanceAs (Decidable (∀ segment ∈ segments, '/' ∉ segment.toList))

theorem toList_pathOf (segments : List String) :
    (pathOf segments).toList = Paths.join '/' (segments.map String.toList) := by
  unfold pathOf Paths.join
  rw [String.toList_join, List.flatMap_map, List.flatMap_map]
  apply List.flatMap_congr
  intro segment _
  rw [String.toList_append]
  rfl

theorem SlashFree.plain {segments : List String} (h : SlashFree segments) :
    Paths.Plain '/' (segments.map String.toList) := by
  intro segment hsegment
  obtain ⟨s, hs, rfl⟩ := List.mem_map.mp hsegment
  exact h s hs

theorem map_toList_inj {segments others : List String}
    (h : segments.map String.toList = others.map String.toList) : segments = others :=
  List.map_injective_iff.mpr (fun _ _ heq => String.toList_injective heq) h

/-! ## 1. The tests on segments -/

/-- A segment follows `front`. -/
def Under (front segments : List String) : Prop :=
  front <+: segments ∧ front.length < segments.length

instance (front segments : List String) : Decidable (Under front segments) :=
  inferInstanceAs (Decidable (_ ∧ _))

def hasIdentifier (segment : String) : Bool :=
  segment.toList.length = 36 && segment.toList.all idChar

/-- The last segments are `projects`, 36 characters of an identifier and `requests`. -/
def EndsInRequests (segments : List String) : Prop :=
  ∃ id ∈ segments, (["projects", id, "requests"] <:+ segments ∨
    ["projects", id, "requests\n"] <:+ segments) ∧ hasIdentifier id = true

instance (segments : List String) : Decidable (EndsInRequests segments) :=
  inferInstanceAs (Decidable (∃ id ∈ segments, (_ ∨ _) ∧ _))

theorem startswith_pathOf {front segments : List String} {text : String}
    (htext : text.toList = (pathOf front).toList ++ ['/']) (hfront : SlashFree front)
    (hsegments : SlashFree segments) :
    startswith (pathOf segments) text = true ↔ Under front segments := by
  unfold startswith Under
  rw [List.isPrefixOf_iff_prefix, htext, toList_pathOf, toList_pathOf,
    Paths.prefix_join hsegments.plain hfront.plain]
  constructor
  · rintro ⟨next, back, h⟩
    have hlength := congrArg List.length h
    have htake : segments.map String.toList = front.map String.toList ++ (next :: back) := h
    obtain ⟨s, rest, hs, hsfront, hsrest⟩ := List.map_eq_append_iff.mp htake
    have hinj : s = front := map_toList_inj hsfront
    refine ⟨⟨rest, by rw [hs, hinj]⟩, ?_⟩
    simp only [List.length_map, List.length_append, List.length_cons] at hlength
    omega
  · rintro ⟨⟨rest, rfl⟩, hlength⟩
    cases rest with
    | nil => simp at hlength
    | cons next rest => exact ⟨next.toList, rest.map String.toList, by simp⟩

theorem map_toList_suffix {words segments : List String} :
    words.map String.toList <:+ segments.map String.toList ↔ words <:+ segments := by
  constructor
  · rintro ⟨front, h⟩
    obtain ⟨s, rest, hs, -, hrest⟩ := List.map_eq_append_iff.mp h.symm
    have hinj : rest = words := map_toList_inj hrest
    exact ⟨s, by rw [hs, hinj]⟩
  · rintro ⟨front, rfl⟩
    exact ⟨front.map String.toList, by rw [List.map_append]⟩

theorem suffix_pathOf {words segments : List String} (hwords : SlashFree words)
    (hsegments : SlashFree segments) :
    (pathOf words).toList <:+ (pathOf segments).toList ↔ words <:+ segments := by
  rw [toList_pathOf, toList_pathOf, Paths.suffix_join hsegments.plain hwords.plain,
    map_toList_suffix]

theorem endswith_pathOf {words segments : List String} {text : String}
    (htext : text.toList = (pathOf words).toList) (hwords : SlashFree words)
    (hsegments : SlashFree segments) :
    endswith (pathOf segments) text = true ↔ words <:+ segments := by
  unfold endswith
  rw [List.isSuffixOf_iff_suffix, htext, suffix_pathOf hwords hsegments]

theorem contains_iff (path part : String) :
    contains path part = true ↔ part.toList <:+: path.toList := by
  unfold contains
  rw [List.any_eq_true, List.infix_iff_prefix_suffix]
  constructor
  · rintro ⟨here, hhere, hpart⟩
    exact ⟨here, List.isPrefixOf_iff_prefix.mp hpart, (List.mem_tails _ _).mp hhere⟩
  · rintro ⟨here, hpart, hhere⟩
    exact ⟨here, (List.mem_tails _ _).mpr hhere, List.isPrefixOf_iff_prefix.mpr hpart⟩

theorem contains_segment_pathOf {word text : String} {segments : List String}
    (htext : text.toList = '/' :: (word.toList ++ ['/'])) (hword : '/' ∉ word.toList)
    (hsegments : SlashFree segments) :
    contains (pathOf segments) text = true ↔ word ∈ segments.dropLast := by
  rw [contains_iff, htext, toList_pathOf, Paths.infix_join_segment hsegments.plain hword]
  constructor
  · rintro ⟨front, next, back, h⟩
    obtain ⟨s, rest, rfl, -, hrest⟩ := List.map_eq_append_iff.mp h
    obtain ⟨w, rest, rfl, hw, hrest⟩ := List.map_eq_cons_iff.mp hrest
    obtain ⟨n, rest, rfl, -, -⟩ := List.map_eq_cons_iff.mp hrest
    rw [String.toList_injective hw, List.dropLast_append_of_ne_nil (List.cons_ne_nil _ _)]
    simp
  · intro hmem
    have hne : segments ≠ [] := by
      rintro rfl
      cases hmem
    obtain ⟨front, back, hfront⟩ := List.append_of_mem hmem
    have hsplit := List.dropLast_concat_getLast hne
    rw [hfront, List.append_assoc, List.cons_append] at hsplit
    cases hback : back ++ [segments.getLast hne] with
    | nil => simp at hback
    | cons next rest =>
      rw [hback] at hsplit
      exact ⟨front.map String.toList, next.toList, rest.map String.toList, by
        rw [← hsplit]; simp⟩

theorem contains_start_pathOf {word text : String} {segments : List String}
    (htext : text.toList = '/' :: word.toList) (hword : '/' ∉ word.toList)
    (hsegments : SlashFree segments) :
    contains (pathOf segments) text = true ↔ ∃ segment ∈ segments, startswith segment word = true := by
  rw [contains_iff, htext, toList_pathOf, Paths.infix_join_start hsegments.plain hword]
  unfold startswith
  simp only [List.mem_map, exists_exists_and_eq_and, List.isPrefixOf_iff_prefix]

theorem slash_not_mem_of_idChar {id : List Char} (h : id.all idChar = true) : '/' ∉ id := by
  intro hmem
  have hslash := List.all_eq_true.mp h _ hmem
  revert hslash
  decide

theorem slashFree_requests {id last : String} (hid : hasIdentifier id = true)
    (hlast : '/' ∉ last.toList) : SlashFree ["projects", id, last] := by
  have hchars : id.toList.all idChar = true := (Bool.and_eq_true_iff.mp hid).2
  intro segment hsegment
  simp only [List.mem_cons, List.not_mem_nil, or_false] at hsegment
  rcases hsegment with rfl | rfl | rfl
  · decide
  · exact slash_not_mem_of_idChar hchars
  · exact hlast

theorem toList_requests (id : List Char) (last : String) :
    (pathOf ["projects", String.ofList id, last]).toList =
      "/projects/".toList ++ (id ++ ("/" ++ last).toList) := by
  rw [toList_pathOf]
  simp [String.toList_append]

theorem requestsOfProject_pathOf {segments : List String} (hsegments : SlashFree segments) :
    requestsOfProject (pathOf segments) = true ↔ EndsInRequests segments := by
  unfold requestsOfProject EndsInRequests
  rw [List.any_eq_true]
  constructor
  · rintro ⟨here, hhere, hmatch⟩
    obtain ⟨id, hlength, hchars, hpath⟩ := (requestsHere_iff here).mp hmatch
    have hid : hasIdentifier (String.ofList id) = true := by
      simp [hasIdentifier, hlength, hchars]
    have hsuffix := (List.mem_tails _ _).mp hhere
    have hends : ∀ last : String, '/' ∉ last.toList →
        here = "/projects/".toList ++ (id ++ ("/" ++ last).toList) →
        ["projects", String.ofList id, last] <:+ segments := by
      intro last hlast hhere
      rw [hhere, ← toList_requests] at hsuffix
      exact (suffix_pathOf (slashFree_requests hid hlast) hsegments).mp hsuffix
    rcases hpath with hpath | hpath
    · have h := hends "requests" (by decide) hpath
      exact ⟨String.ofList id, h.subset (by simp), .inl h, hid⟩
    · have h := hends "requests\n" (by decide) hpath
      exact ⟨String.ofList id, h.subset (by simp), .inr h, hid⟩
  · rintro ⟨id, -, hsuffix, hid⟩
    obtain ⟨hlength, hchars⟩ : id.toList.length = 36 ∧ id.toList.all idChar = true := by
      simpa [hasIdentifier] using hid
    have hpath := toList_requests id.toList
    rw [String.ofList_toList] at hpath
    rcases hsuffix with hsuffix | hsuffix
    · refine ⟨_, (List.mem_tails _ _).mpr
        ((suffix_pathOf (slashFree_requests hid (by decide)) hsegments).mpr hsuffix), ?_⟩
      exact (requestsHere_iff _).mpr ⟨id.toList, hlength, hchars, .inl (hpath "requests")⟩
    · refine ⟨_, (List.mem_tails _ _).mpr
        ((suffix_pathOf (slashFree_requests hid (by decide)) hsegments).mpr hsuffix), ?_⟩
      exact (requestsHere_iff _).mpr ⟨id.toList, hlength, hchars, .inr (hpath "requests\n")⟩

/-! ## 2. The permission of the segments -/

/-- `required_permission` on the segments of the path. -/
def segmentPermission (method : String) (segments : List String) : ApiPermission :=
  if Under ["v1", "service-accounts"] segments then .projectAdmin
  else if method = "GET" then .projectRead
  else if ["worker-readiness", "evaluate"] <:+ segments then .projectRead
  else if ["dispatches"] <:+ segments ∨ ["workflow-recommendations"] <:+ segments ∨
      EndsInRequests segments then .requestDispatch
  else if "approvals" ∈ segments.dropLast ∨ ["approve"] <:+ segments then .workflowApprove
  else if ["scm-publications"] <:+ segments ∨ "scm-publications" ∈ segments.dropLast
  then .scmPublish
  else if (∃ segment ∈ segments, startswith segment "notification-subscriptions" = true) ∨
      (∃ segment ∈ segments, startswith segment "notification-deliveries" = true)
  then .notificationManage
  else if ["cancel"] <:+ segments then .runCancel
  else if ["workspace-operations"] <:+ segments then .workspaceManage
  else .projectAdmin

theorem requiredPermission_pathOf (method : String) {segments : List String}
    (hsegments : SlashFree segments) :
    requiredPermission method (pathOf segments) = segmentPermission method segments := by
  have haccounts : startswith (pathOf segments) "/v1/service-accounts/" = true ↔
      Under ["v1", "service-accounts"] segments :=
    startswith_pathOf (by decide +kernel) (by decide) hsegments
  have hevaluate : endswith (pathOf segments) "/worker-readiness/evaluate" = true ↔
      ["worker-readiness", "evaluate"] <:+ segments :=
    endswith_pathOf (by decide +kernel) (by decide) hsegments
  have hlast : ∀ word text : String, text.toList = (pathOf [word]).toList → SlashFree [word] →
      (endswith (pathOf segments) text = true ↔ [word] <:+ segments) :=
    fun _ _ htext hword => endswith_pathOf htext hword hsegments
  have hinner : ∀ word text : String, text.toList = '/' :: (word.toList ++ ['/']) →
      '/' ∉ word.toList → (contains (pathOf segments) text = true ↔ word ∈ segments.dropLast) :=
    fun _ _ htext hword => contains_segment_pathOf htext hword hsegments
  have hstart : ∀ word text : String, text.toList = '/' :: word.toList → '/' ∉ word.toList →
      (contains (pathOf segments) text = true ↔
        ∃ segment ∈ segments, startswith segment word = true) :=
    fun _ _ htext hword => contains_start_pathOf htext hword hsegments
  unfold requiredPermission segmentPermission
  simp only [Bool.or_eq_true, haccounts, hevaluate, or_assoc,
    requestsOfProject_pathOf hsegments,
    hlast "dispatches" "/dispatches" (by decide +kernel) (by decide),
    hlast "workflow-recommendations" "/workflow-recommendations" (by decide +kernel) (by decide),
    hinner "approvals" "/approvals/" (by decide) (by decide),
    hlast "approve" "/approve" (by decide +kernel) (by decide),
    hlast "scm-publications" "/scm-publications" (by decide +kernel) (by decide),
    hinner "scm-publications" "/scm-publications/" (by decide) (by decide),
    hstart "notification-subscriptions" "/notification-subscriptions" (by decide) (by decide),
    hstart "notification-deliveries" "/notification-deliveries" (by decide) (by decide),
    hlast "cancel" "/cancel" (by decide +kernel) (by decide),
    hlast "workspace-operations" "/workspace-operations" (by decide +kernel) (by decide)]

/-! ## 3. Spellings of a UUID -/

def fitsShape : List Char → List Char → Bool
  | [], [] => true
  | shape :: shapes, c :: cs =>
    (if shape = '-' then c = '-' else Text.isHexDigit c) && fitsShape shapes cs
  | _, _ => false

/-- `8-4-4-4-12` hexadecimal digits. -/
def isHyphenated (text : List Char) : Bool :=
  fitsShape "hhhhhhhh-hhhh-hhhh-hhhh-hhhhhhhhhhhh".toList text

theorem fitsShape_facts {shapes text : List Char} (h : fitsShape shapes text = true) :
    text.length = shapes.length ∧ text.all idChar = true := by
  induction shapes generalizing text with
  | nil =>
    cases text with
    | nil => exact ⟨rfl, rfl⟩
    | cons c cs => cases h
  | cons shape shapes ih =>
    cases text with
    | nil => cases h
    | cons c cs =>
      obtain ⟨hc, hcs⟩ := Bool.and_eq_true_iff.mp h
      obtain ⟨hlength, hchars⟩ := ih hcs
      have hid : idChar c = true := by
        unfold idChar
        split at hc
        · rw [hc, Bool.or_true]
        · rw [hc, Bool.true_or]
      exact ⟨by rw [List.length_cons, List.length_cons, hlength],
        by rw [List.all_cons, hid, hchars, Bool.and_true]⟩

theorem isHyphenated_facts {text : List Char} (h : isHyphenated text = true) :
    text.length = 36 ∧ text.all idChar = true := fitsShape_facts h

theorem not_mem_of_idChar {text : List Char} {c : Char} (h : text.all idChar = true)
    (hc : idChar c = false) : c ∉ text := by
  intro hmem
  rw [List.all_eq_true.mp h c hmem] at hc
  cases hc

/-- The texts that are read as a UUID: the hyphenated form, the plain one, and the hyphenated one
in braces or behind `urn:uuid:`. -/
inductive UuidSpelling (text : String) : Prop where
  | hyphenated (h : isHyphenated text.toList = true)
  | plain (hlength : text.toList.length = 32) (hdigits : text.toList.all Text.isHexDigit = true)
  | braced (inner : List Char) (htext : text.toList = '{' :: (inner ++ ['}']))
      (h : isHyphenated inner = true)
  | urn (inner : List Char) (htext : text.toList = "urn:uuid:".toList ++ inner)
      (h : isHyphenated inner = true)

/-- No spelling of a UUID is, or starts with, a word of a test. -/
theorem UuidSpelling.shape {text : String} (h : UuidSpelling text) :
    32 ≤ text.toList.length ∧ '/' ∉ text.toList ∧ text.toList.head? ≠ some 'n' := by
  cases h with
  | hyphenated h =>
    obtain ⟨hlength, hchars⟩ := isHyphenated_facts h
    refine ⟨by omega, not_mem_of_idChar hchars (by decide), ?_⟩
    intro hn
    exact not_mem_of_idChar hchars (by decide) (List.mem_of_head? hn)
  | plain hlength hdigits =>
    have hchars : text.toList.all idChar = true := by
      rw [List.all_eq_true] at hdigits ⊢
      intro c hc
      rw [idChar, hdigits c hc, Bool.true_or]
    refine ⟨by omega, not_mem_of_idChar hchars (by decide), ?_⟩
    intro hn
    exact not_mem_of_idChar hchars (by decide) (List.mem_of_head? hn)
  | braced inner htext h =>
    obtain ⟨hlength, hchars⟩ := isHyphenated_facts h
    have hslash := not_mem_of_idChar hchars (by decide : idChar '/' = false)
    rw [htext]
    refine ⟨?_, ?_, by simp⟩
    · rw [List.length_cons, List.length_append, hlength]
      decide
    · simp [hslash]
  | urn inner htext h =>
    obtain ⟨hlength, hchars⟩ := isHyphenated_facts h
    have hslash := not_mem_of_idChar hchars (by decide : idChar '/' = false)
    rw [htext]
    refine ⟨?_, ?_, by simp⟩
    · rw [List.length_append, hlength]
      omega
    · simp [hslash]

theorem UuidSpelling.ne_word {text word : String} (h : UuidSpelling text)
    (hword : word.toList.length < 32) : text ≠ word := by
  rintro rfl
  have := h.shape.1
  omega

theorem UuidSpelling.not_startswith {text word : String} (h : UuidSpelling text)
    (hword : word.toList.head? = some 'n') : startswith text word = false := by
  rw [Bool.eq_false_iff]
  intro hstart
  obtain ⟨rest, hrest⟩ := List.isPrefixOf_iff_prefix.mp hstart
  refine h.shape.2.2 ?_
  rw [← hrest]
  simp [hword]

/-- `[0-9a-fA-F-]{36}` matches the hyphenated spelling only. -/
theorem UuidSpelling.hasIdentifier_eq {text : String} (h : UuidSpelling text) :
    hasIdentifier text = isHyphenated text.toList := by
  have hother : text.toList.length ≠ 36 → hasIdentifier text = isHyphenated text.toList := by
    intro hlength
    have hshape : isHyphenated text.toList = false := by
      rw [Bool.eq_false_iff]
      exact fun hshape => hlength (isHyphenated_facts hshape).1
    rw [hshape, hasIdentifier, decide_eq_false hlength, Bool.false_and]
  cases h with
  | hyphenated h =>
    obtain ⟨hlength, hchars⟩ := isHyphenated_facts h
    rw [h, hasIdentifier, decide_eq_true hlength, hchars, Bool.and_true]
  | plain hlength _ =>
    apply hother
    omega
  | braced inner htext h =>
    apply hother
    rw [htext, List.length_cons, List.length_append, (isHyphenated_facts h).1]
    decide
  | urn inner htext h =>
    apply hother
    rw [htext, List.length_append, (isHyphenated_facts h).1]
    decide

/-! ## 4. Which spelling it is does not matter -/

/-- The same segment, or two spellings of UUIDs that `[0-9a-fA-F-]{36}` treats alike. -/
def Alike (s t : String) : Prop :=
  s = t ∨ (UuidSpelling s ∧ UuidSpelling t ∧ hasIdentifier s = hasIdentifier t)

theorem Alike.symm {s t : String} (h : Alike s t) : Alike t s := by
  rcases h with h | ⟨hs, ht, heq⟩
  · exact .inl h.symm
  · exact .inr ⟨ht, hs, heq.symm⟩

theorem Alike.word {word t : String} (h : Alike word t) (hword : word.toList.length < 32) :
    t = word := by
  rcases h with h | ⟨hs, -, -⟩
  · exact h.symm
  · exact absurd rfl (hs.ne_word hword)

theorem alike_words {words others : List String} (h : List.Forall₂ Alike words others)
    (hwords : ∀ word ∈ words, word.toList.length < 32) : others = words := by
  induction h with
  | nil => rfl
  | cons hword _ ih =>
    rw [hword.word (hwords _ List.mem_cons_self),
      ih fun word hmem => hwords word (List.mem_cons_of_mem _ hmem)]

theorem alike_symm {segments others : List String} (h : List.Forall₂ Alike segments others) :
    List.Forall₂ Alike others segments := h.flip.imp fun _ _ => Alike.symm

theorem alike_mem {segments others : List String} (h : List.Forall₂ Alike segments others)
    {s : String} (hs : s ∈ segments) : ∃ t ∈ others, Alike s t := by
  induction h with
  | nil => cases hs
  | cons hword _ ih =>
    rcases List.mem_cons.mp hs with rfl | hs
    · exact ⟨_, List.mem_cons_self, hword⟩
    · obtain ⟨t, ht, halike⟩ := ih hs
      exact ⟨t, List.mem_cons_of_mem _ ht, halike⟩

theorem alike_suffix {back segments others : List String}
    (h : List.Forall₂ Alike segments others) (hback : back <:+ segments) :
    ∃ back', back' <:+ others ∧ List.Forall₂ Alike back back' := by
  obtain ⟨front, rfl⟩ := hback
  have hdrop := List.forall₂_drop front.length h
  rw [List.drop_left] at hdrop
  exact ⟨others.drop front.length, List.drop_suffix _ _, hdrop⟩

section Congruence

variable {segments others : List String}

theorem suffix_congr (h : List.Forall₂ Alike segments others) {words : List String}
    (hwords : ∀ word ∈ words, word.toList.length < 32) :
    words <:+ segments ↔ words <:+ others := by
  have hmono : ∀ {l l' : List String}, List.Forall₂ Alike l l' → words <:+ l → words <:+ l' := by
    intro l l' h hsuffix
    obtain ⟨back, hback, halike⟩ := alike_suffix h hsuffix
    rwa [alike_words halike hwords] at hback
  exact ⟨hmono h, hmono (alike_symm h)⟩

theorem mem_dropLast_congr (h : List.Forall₂ Alike segments others) {word : String}
    (hword : word.toList.length < 32) : word ∈ segments.dropLast ↔ word ∈ others.dropLast := by
  have hmono : ∀ {l l' : List String}, List.Forall₂ Alike l l' → word ∈ l.dropLast →
      word ∈ l'.dropLast := by
    intro l l' h hmem
    have hlast : List.Forall₂ Alike l.dropLast l'.dropLast := by
      rw [List.dropLast_eq_take, List.dropLast_eq_take, h.length_eq]
      exact List.forall₂_take _ h
    obtain ⟨t, ht, halike⟩ := alike_mem hlast hmem
    rwa [halike.word hword] at ht
  exact ⟨hmono h, hmono (alike_symm h)⟩

theorem startswith_congr (h : List.Forall₂ Alike segments others) {word : String}
    (hword : word.toList.head? = some 'n') :
    (∃ segment ∈ segments, startswith segment word = true) ↔
      ∃ segment ∈ others, startswith segment word = true := by
  have hmono : ∀ {l l' : List String}, List.Forall₂ Alike l l' →
      (∃ segment ∈ l, startswith segment word = true) →
      ∃ segment ∈ l', startswith segment word = true := by
    rintro l l' h ⟨s, hs, hstart⟩
    obtain ⟨t, ht, halike⟩ := alike_mem h hs
    rcases halike with rfl | ⟨huuid, -, -⟩
    · exact ⟨s, ht, hstart⟩
    · rw [huuid.not_startswith hword] at hstart
      cases hstart
  exact ⟨hmono h, hmono (alike_symm h)⟩

theorem under_congr (h : List.Forall₂ Alike segments others) {front : List String}
    (hfront : ∀ word ∈ front, word.toList.length < 32) :
    Under front segments ↔ Under front others := by
  have hmono : ∀ {l l' : List String}, List.Forall₂ Alike l l' → Under front l →
      Under front l' := by
    rintro l l' h ⟨⟨back, rfl⟩, hlength⟩
    have htake := List.forall₂_take front.length h
    rw [List.take_left] at htake
    refine ⟨?_, h.length_eq ▸ hlength⟩
    rw [← alike_words htake hfront]
    exact List.take_prefix _ _
  exact ⟨hmono h, hmono (alike_symm h)⟩

theorem endsInRequests_congr (h : List.Forall₂ Alike segments others) :
    EndsInRequests segments ↔ EndsInRequests others := by
  have hback : ∀ {l l' : List String}, List.Forall₂ Alike l l' → ∀ id last : String,
      last.toList.length < 32 → ["projects", id, last] <:+ l →
      ∃ id', Alike id id' ∧ ["projects", id', last] <:+ l' := by
    intro l l' h id last hlast hsuffix
    obtain ⟨back, hsub, halike⟩ := alike_suffix h hsuffix
    obtain ⟨projects, rest, hprojects, hrest, rfl⟩ := List.forall₂_cons_left_iff.mp halike
    obtain ⟨id', rest', hid, hrest', rfl⟩ := List.forall₂_cons_left_iff.mp hrest
    obtain ⟨last', none, hlast', hnone, rfl⟩ := List.forall₂_cons_left_iff.mp hrest'
    obtain rfl := List.forall₂_nil_left_iff.mp hnone
    rw [hprojects.word (by decide), hlast'.word hlast] at hsub
    exact ⟨id', hid, hsub⟩
  have hidentifier : ∀ {id id' : String}, Alike id id' → hasIdentifier id = true →
      hasIdentifier id' = true := by
    rintro id id' (rfl | ⟨-, -, heq⟩) hid
    · exact hid
    · rwa [← heq]
  have hmono : ∀ {l l' : List String}, List.Forall₂ Alike l l' → EndsInRequests l →
      EndsInRequests l' := by
    rintro l l' h ⟨id, -, hsuffix | hsuffix, hid⟩
    · obtain ⟨id', halike, hsub⟩ := hback h id "requests" (by decide) hsuffix
      exact ⟨id', hsub.subset (by simp), .inl hsub, hidentifier halike hid⟩
    · obtain ⟨id', halike, hsub⟩ := hback h id "requests\n" (by decide) hsuffix
      exact ⟨id', hsub.subset (by simp), .inr hsub, hidentifier halike hid⟩
  exact ⟨hmono h, hmono (alike_symm h)⟩

/-- The permission does not depend on how the UUIDs of a path are spelt, as long as
`[0-9a-fA-F-]{36}` treats the spellings alike. -/
theorem segmentPermission_congr (method : String) (h : List.Forall₂ Alike segments others) :
    segmentPermission method segments = segmentPermission method others := by
  unfold segmentPermission
  simp (disch := decide) only [under_congr h, suffix_congr h, mem_dropLast_congr h,
    startswith_congr h, endsInRequests_congr h]

end Congruence

end JbOrchestrator.Api
