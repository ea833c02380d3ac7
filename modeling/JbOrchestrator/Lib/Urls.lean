import JbOrchestrator.Lib.Text
import Mathlib.Data.List.TakeDrop

/-!
# Urls — `urllib.parse`

`urlsplit` takes a text apart at its delimiters and refuses few texts.  What Python computes from the
tables of Unicode is a parameter.
-/

namespace Lib.Urls

/-! ## 1. Partitions -/

section Partitions

variable (c : Char) (cs : List Char)

/-- `cs.partition(c)[0]`. -/
def before : List Char := cs.takeWhile (· ≠ c)

/-- `cs.partition(c)[2]`. -/
def behind : List Char := (cs.dropWhile (· ≠ c)).tail

/-- `cs.rpartition(c)[2]`. -/
def behindLast : List Char := (cs.reverse.takeWhile (· ≠ c)).reverse

/-- `cs.rpartition(c)[0]`. -/
def beforeLast : List Char := (cs.reverse.dropWhile (· ≠ c)).tail.reverse

end Partitions

section

variable {c : Char} {cs front back : List Char}

theorem ne_of_notMem (h : c ∉ cs) : ∀ d ∈ cs, decide (d ≠ c) = true := by
  intro d hd
  exact decide_eq_true fun heq => h (heq ▸ hd)

theorem before_of_notMem (h : c ∉ cs) : before c cs = cs :=
  List.takeWhile_eq_self_iff.mpr (ne_of_notMem h)

theorem behind_of_notMem (h : c ∉ cs) : behind c cs = [] := by
  rw [behind, List.dropWhile_eq_nil_iff.mpr (ne_of_notMem h), List.tail_nil]

theorem before_append (h : c ∉ front) : before c (front ++ c :: back) = front := by
  rw [before, List.takeWhile_append_of_pos (ne_of_notMem h)]
  simp

theorem behind_append (h : c ∉ front) : behind c (front ++ c :: back) = back := by
  rw [behind, List.dropWhile_append_of_pos (ne_of_notMem h)]
  simp

theorem behindLast_of_notMem (h : c ∉ cs) : behindLast c cs = cs := by
  have hreverse : c ∉ cs.reverse := fun hc => h (List.mem_reverse.mp hc)
  rw [behindLast, List.takeWhile_eq_self_iff.mpr (ne_of_notMem hreverse), List.reverse_reverse]

theorem behindLast_append (h : c ∉ back) : behindLast c (front ++ c :: back) = back := by
  have hreverse : c ∉ back.reverse := fun hc => h (List.mem_reverse.mp hc)
  have hsplit : (front ++ c :: back).reverse = back.reverse ++ c :: front.reverse := by simp
  have htake : before c (back.reverse ++ c :: front.reverse) = back.reverse := before_append hreverse
  rw [before] at htake
  rw [behindLast, hsplit, htake, List.reverse_reverse]

theorem beforeLast_append (h : c ∉ back) : beforeLast c (front ++ c :: back) = front := by
  have hreverse : c ∉ back.reverse := fun hc => h (List.mem_reverse.mp hc)
  have hsplit : (front ++ c :: back).reverse = back.reverse ++ c :: front.reverse := by simp
  have hdrop : behind c (back.reverse ++ c :: front.reverse) = front.reverse := behind_append hreverse
  rw [behind] at hdrop
  rw [beforeLast, hsplit, hdrop, List.reverse_reverse]

/-- A text with the character is split at its first one. -/
theorem split_before (h : c ∈ cs) : cs = before c cs ++ c :: behind c cs := by
  have hsplit := (List.takeWhile_append_dropWhile (p := fun d => decide (d ≠ c)) (l := cs)).symm
  cases hdrop : cs.dropWhile (fun d => decide (d ≠ c)) with
  | nil =>
    have hall := List.dropWhile_eq_nil_iff.mp hdrop c h
    simp at hall
  | cons d rest =>
    have hd : d = c := by
      have hhead := List.head?_dropWhile_not (fun d => decide (d ≠ c)) cs
      rw [hdrop] at hhead
      simpa using hhead
    rw [before, behind, hdrop, List.tail_cons]
    rw [hdrop, hd] at hsplit
    exact hsplit

theorem notMem_before (c : Char) (cs : List Char) : c ∉ before c cs := by
  intro h
  simpa using List.mem_takeWhile_imp h

end

/-! ## 2. `urlparse` -/

structure ParseResult where
  scheme : List Char
  netloc : List Char
  path : List Char
  query : List Char
  fragment : List Char

/-- What the tables of Unicode say: `str.lower`, and why `urlsplit` refuses a netloc whose host in
brackets is no address or of which NFKC turns a character into a delimiter. -/
structure Tables where
  lower : List Char → List Char
  refused : List Char → Option String

/-- On ASCII texts the tables are not needed. -/
structure Tables.Standard (tables : Tables) : Prop where
  lower : ∀ cs : List Char, (∀ c ∈ cs, c.toNat < 128) → tables.lower cs = cs.map Char.toLower
  refused : ∀ cs : List Char, (∀ c ∈ cs, c.toNat < 128) → '[' ∉ cs → tables.refused cs = none

def isLetter (c : Char) : Bool :=
  (97 ≤ c.toNat && c.toNat ≤ 122) || (65 ≤ c.toNat && c.toNat ≤ 90)

/-- `scheme_chars`. -/
def isSchemeChar (c : Char) : Bool :=
  isLetter c || Text.isDigit c || c = '+' || c = '-' || c = '.'

/-- The scheme in lower case and the text behind it. -/
def splitScheme (url : List Char) : List Char × List Char :=
  let scheme := before ':' url
  if ':' ∈ url ∧ scheme.head?.any isLetter = true ∧ scheme.all isSchemeChar = true then
    (scheme.map Char.toLower, behind ':' url)
  else ([], url)

/-- The netloc behind two slashes, and what follows it. -/
def splitNetloc (url : List Char) : List Char × List Char :=
  match url with
  | '/' :: '/' :: rest => rest.span fun c => c ≠ '/' ∧ c ≠ '?' ∧ c ≠ '#'
  | _ => ([], url)

/-- `uses_params`. -/
def usesParams (scheme : List Char) : Bool :=
  ["", "ftp", "hdl", "prospero", "http", "imap", "https", "shttp", "rtsp", "rtsps", "rtspu", "sip",
    "sips", "mms", "sftp", "tel"].contains (String.ofList scheme)

/-- `_splitparams(path)[0]`. -/
def withoutParams (path : List Char) : List Char :=
  let last := behindLast '/' path
  path.take (path.length - last.length) ++ before ';' last

/-- The text without what a URL may not start with or hold. -/
def cleaned (url : List Char) : List Char :=
  (url.dropWhile fun c => c.toNat ≤ 32).filter fun c => c ≠ '\t' ∧ c ≠ '\r' ∧ c ≠ '\n'

/-- `urlparse`, or the message of its `ValueError`. -/
def urlparse (tables : Tables) (url : List Char) : Except String ParseResult :=
  let (scheme, url) := splitScheme (cleaned url)
  let (netloc, url) := splitNetloc url
  if decide ('[' ∈ netloc) ≠ decide (']' ∈ netloc) then .error "Invalid IPv6 URL"
  else
    match tables.refused netloc with
    | some message => .error message
    | none =>
      let path := before '?' (before '#' url)
      .ok { scheme, netloc
            path := if usesParams scheme then withoutParams path else path
            query := behind '?' (before '#' url)
            fragment := behind '#' url }

/-! ### Plain URLs -/

theorem cleaned_eq {url : List Char} (h : ∀ c ∈ url, 32 < c.toNat) : cleaned url = url := by
  have hfront : url.dropWhile (fun c => decide (c.toNat ≤ 32)) = url := by
    cases url with
    | nil => rfl
    | cons c url =>
      have hc := h c List.mem_cons_self
      rw [List.dropWhile_cons_of_neg]
      simpa using hc
  unfold cleaned
  rw [hfront, List.filter_eq_self]
  intro c hc
  have hlt := h c hc
  apply decide_eq_true
  refine ⟨?_, ?_, ?_⟩ <;> rintro rfl <;> exact absurd hlt (by decide)

theorem behindLast_suffix (c : Char) (cs : List Char) : behindLast c cs <:+ cs := by
  have hprefix := List.takeWhile_prefix (fun d => decide (d ≠ c)) (l := cs.reverse)
  simpa [behindLast] using List.reverse_suffix.mpr hprefix

theorem withoutParams_eq {path : List Char} (h : ';' ∉ path) : withoutParams path = path := by
  obtain ⟨front, hfront⟩ := behindLast_suffix '/' path
  have hlast : ';' ∉ behindLast '/' path := fun hc =>
    h ((behindLast_suffix '/' path).subset hc)
  have hlength : path.length - (behindLast '/' path).length = front.length := by
    have := congrArg List.length hfront
    rw [List.length_append] at this
    omega
  have htake := congrArg (List.take front.length) hfront
  rw [List.take_left] at htake
  unfold withoutParams
  dsimp only
  rw [hlength, before_of_notMem hlast, ← htake, hfront]

/-- A URL without query and fragment, whose characters need no table, is taken apart as it is put
together. -/
theorem urlparse_plain {tables : Tables} (htables : tables.Standard) {scheme netloc path : List Char}
    (hscheme : scheme.head?.any isLetter = true ∧ scheme.all isSchemeChar = true ∧ ':' ∉ scheme ∧
      scheme.map Char.toLower = scheme)
    (hvisible : ∀ c ∈ scheme ++ netloc ++ '/' :: path, 32 < c.toNat ∧ c.toNat < 128)
    (hnetloc : ∀ c ∈ ['/', '?', '#', '[', ']'], c ∉ netloc)
    (hpath : ∀ c ∈ ['?', '#', ';'], c ∉ path) :
    urlparse tables (scheme ++ ':' :: '/' :: '/' :: (netloc ++ '/' :: path)) =
      .ok { scheme, netloc, path := '/' :: path, query := [], fragment := [] } := by
  simp only [List.forall_mem_cons, List.not_mem_nil, false_imp_iff, implies_true, and_true]
    at hnetloc hpath
  obtain ⟨hslash, hquestion, hhash, hopen, hclose⟩ := hnetloc
  obtain ⟨hquery, hfragment, hparams⟩ := hpath
  obtain ⟨hletter, hchars, hcolon, hlower⟩ := hscheme
  have hclean : ∀ c ∈ scheme ++ ':' :: '/' :: '/' :: (netloc ++ '/' :: path), 32 < c.toNat := by
    intro c hc
    simp only [List.mem_append, List.mem_cons] at hc hvisible
    rcases hc with hc | rfl | rfl | rfl | hc | rfl | hc
    · exact (hvisible c (.inl (.inl hc))).1
    · decide
    · decide
    · decide
    · exact (hvisible c (.inl (.inr hc))).1
    · decide
    · exact (hvisible c (.inr (.inr hc))).1
  have hsplit : splitScheme (scheme ++ ':' :: '/' :: '/' :: (netloc ++ '/' :: path)) =
      (scheme, '/' :: '/' :: (netloc ++ '/' :: path)) := by
    unfold splitScheme
    rw [before_append hcolon, behind_append hcolon]
    dsimp only
    rw [if_pos ⟨by simp, hletter, hchars⟩, hlower]
  have hdelimited : splitNetloc ('/' :: '/' :: (netloc ++ '/' :: path)) = (netloc, '/' :: path) := by
    show (netloc ++ '/' :: path).span _ = _
    rw [List.span_eq_takeWhile_dropWhile, List.takeWhile_append_of_pos, List.dropWhile_append_of_pos]
    · simp
    all_goals
      intro c hc
      apply decide_eq_true
      exact ⟨fun heq => hslash (heq ▸ hc), fun heq => hquestion (heq ▸ hc),
        fun heq => hhash (heq ▸ hc)⟩
  have hrefused : tables.refused netloc = none :=
    htables.refused netloc (fun c hc => (hvisible c (by simp [hc])).2) hopen
  have hplain : before '#' ('/' :: path) = '/' :: path :=
    before_of_notMem (by simp [hfragment])
  unfold urlparse
  rw [cleaned_eq hclean, hsplit]
  dsimp only
  rw [hdelimited]
  dsimp only
  rw [if_neg (by simp [hopen, hclose]), hrefused]
  dsimp only
  rw [hplain, before_of_notMem (c := '?') (by simp [hquery]), behind_of_notMem (c := '?') (by simp [hquery]),
    behind_of_notMem (c := '#') (by simp [hfragment]), withoutParams_eq (by simp [hparams]), ite_self]

namespace ParseResult

variable (tables : Tables) (parsed : ParseResult)

/-- The netloc without its user. -/
def hostinfo : List Char := behindLast '@' parsed.netloc

def hostname : Option (List Char) :=
  let host :=
    if '[' ∈ parsed.hostinfo then before ']' (behind '[' parsed.hostinfo)
    else before ':' parsed.hostinfo
  if host = [] then none
  else
    -- the zone of an address keeps its case
    some (tables.lower (before '%' host) ++ host.drop (before '%' host).length)

def username : Option (List Char) :=
  if '@' ∈ parsed.netloc then some (before ':' (beforeLast '@' parsed.netloc)) else none

def password : Option (List Char) :=
  if '@' ∈ parsed.netloc ∧ ':' ∈ beforeLast '@' parsed.netloc then
    some (behind ':' (beforeLast '@' parsed.netloc))
  else none

variable {tables : Tables} {parsed : ParseResult} {host : List Char}

/-- A host that is spelled with plain characters, perhaps behind a user. -/
theorem hostname_eq (hhostinfo : parsed.hostinfo = host) (hne : host ≠ [])
    (hplain : ∀ c ∈ [':', '[', '%'], c ∉ host) : parsed.hostname tables = some (tables.lower host) := by
  simp only [List.forall_mem_cons, List.not_mem_nil, false_imp_iff, implies_true, and_true] at hplain
  obtain ⟨hcolon, hopen, hpercent⟩ := hplain
  unfold hostname
  rw [hhostinfo, if_neg hopen, before_of_notMem hcolon, if_neg hne, before_of_notMem hpercent,
    List.drop_length, List.append_nil]

end ParseResult

end Lib.Urls
