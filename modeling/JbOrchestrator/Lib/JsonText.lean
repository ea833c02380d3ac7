import JbOrchestrator.Lib.JsonLexemes
import JbOrchestrator.Lib.SortBy
import Mathlib.Data.String.Basic

/-!
# JsonText — `json.dumps` and `json.loads`

The text that Python writes a value as, and the reader of such texts.  An object is the list of its
entries in the order of the text.
-/

namespace Lib.JsonText

/-! ## 1. Writing -/

def dumpsScalar (style : Style) : Scalar → List Char
  | .null => ['n', 'u', 'l', 'l']
  | .bool true => ['t', 'r', 'u', 'e']
  | .bool false => ['f', 'a', 'l', 's', 'e']
  | .int value => (ofInt value).write
  | .float value => style.float value
  | .str value => dumpsString style.ensureAscii value

def separator (style : Style) (c : Char) : List Char := c :: List.replicate style.blanks ' '

mutual

def dumps (style : Style) : Json → List Char
  | .scalar value => dumpsScalar style value
  | .list items => '[' :: dumpsItems style [] items
  | .dict entries => '{' :: dumpsEntries style [] entries

/-- The items, each behind a separator but for the first. -/
def dumpsItems (style : Style) (front : List Char) : List Json → List Char
  | [] => [']']
  | item :: items => front ++ (dumps style item ++ dumpsItems style (separator style ',') items)

def dumpsEntries (style : Style) (front : List Char) : JsonObject → List Char
  | [] => ['}']
  | (key, value) :: entries =>
    front ++ (dumpsString style.ensureAscii key ++ (separator style ':' ++
      (dumps style value ++ dumpsEntries style (separator style ',') entries)))

end

mutual

/-- The value as `sort_keys` writes it. -/
def sortKeys : Json → Json
  | .scalar value => .scalar value
  | .list items => .list (sortItems items)
  | .dict entries => .dict (sortBy Prod.fst (sortEntries entries))

def sortItems : List Json → List Json
  | [] => []
  | item :: items => sortKeys item :: sortItems items

def sortEntries : JsonObject → JsonObject
  | [] => []
  | (key, value) :: entries => (key, sortKeys value) :: sortEntries entries

end

theorem sortItems_map {α : Type} {f : α → Json} (hf : ∀ x, sortKeys (f x) = f x)
    (xs : List α) : sortItems (xs.map f) = xs.map f := by
  induction xs with
  | nil => rfl
  | cons x xs ih => rw [List.map_cons, sortItems, hf, ih]

/-! ## 2. Reading -/

def isBlank (c : Char) : Bool := c = ' ' || c = '\t' || c = '\n' || c = '\r'

def skip (cs : List Char) : List Char := cs.dropWhile isBlank

/-- The text behind a word. -/
def expect (word cs : List Char) : Option (List Char) :=
  if cs.take word.length = word then some (cs.drop word.length) else none

mutual

/-- `scan_once`. -/
def readValue (style : Style) : ℕ → List Char → Option (Json × List Char)
  | 0, _ => none
  | _ + 1, [] => none
  | fuel + 1, c :: rest =>
    if c = '"' then (readString rest).map fun (value, rest) => (.scalar (.str value), rest)
    else if c = '[' then
      if (skip rest).head? = some ']' then some (.list [], (skip rest).tail)
      else (readItems style fuel (skip rest)).map fun (items, rest) => (.list items, rest)
    else if c = '{' then
      if (skip rest).head? = some '}' then some (.dict [], (skip rest).tail)
      else (readEntries style fuel (skip rest)).map fun (entries, rest) => (.dict entries, rest)
    else if c = 'n' then (expect ['u', 'l', 'l'] rest).map fun rest => (.scalar .null, rest)
    else if c = 't' then (expect ['r', 'u', 'e'] rest).map fun rest => (.scalar (.bool true), rest)
    else if c = 'f' then
      (expect ['a', 'l', 's', 'e'] rest).map fun rest => (.scalar (.bool false), rest)
    else (readNumber style (c :: rest)).map fun (value, rest) => (.scalar value, rest)

/-- `JSONArray`, at its next item. -/
def readItems (style : Style) : ℕ → List Char → Option (List Json × List Char)
  | 0, _ => none
  | fuel + 1, cs => do
    let (item, rest) ← readValue style fuel cs
    if (skip rest).head? = some ']' then some ([item], (skip rest).tail)
    else if (skip rest).head? = some ',' then do
      let (items, rest) ← readItems style fuel (skip (skip rest).tail)
      some (item :: items, rest)
    else none

/-- `JSONObject`, at its next key. -/
def readEntries (style : Style) : ℕ → List Char → Option (JsonObject × List Char)
  | 0, _ => none
  | fuel + 1, cs =>
    if cs.head? = some '"' then do
      let (key, rest) ← readString cs.tail
      if (skip rest).head? = some ':' then do
        let (value, rest) ← readValue style fuel (skip (skip rest).tail)
        if (skip rest).head? = some '}' then some ([(key, value)], (skip rest).tail)
        else if (skip rest).head? = some ',' then do
          let (entries, rest) ← readEntries style fuel (skip (skip rest).tail)
          some ((key, value) :: entries, rest)
        else none
      else none
    else none

end

/-- `json.loads`. -/
def loads (style : Style) (text : List Char) : Option Json := do
  let (value, rest) ← readValue style text.length (skip text)
  if skip rest = [] then some value else none

/-! ## 3. The round trip -/

mutual

/-- The scalars that a value is made of. -/
def scalars : Json → List Scalar
  | .scalar value => [value]
  | .list items => itemScalars items
  | .dict entries => entryScalars entries

def itemScalars : List Json → List Scalar
  | [] => []
  | item :: items => scalars item ++ itemScalars items

def entryScalars : JsonObject → List Scalar
  | [] => []
  | (_, value) :: entries => scalars value ++ entryScalars entries

end

/-- The floats among the scalars are written exactly. -/
def Style.Readable (style : Style) (values : List Scalar) : Prop :=
  ∀ value, .float value ∈ values → style.Exact value

section

variable {style : Style} {rest : List Char}

theorem Style.Readable.left {values values' : List Scalar} (h : style.Readable (values ++ values')) :
    style.Readable values := fun value hvalue => h value (List.mem_append_left _ hvalue)

theorem Style.Readable.right {values values' : List Scalar} (h : style.Readable (values ++ values')) :
    style.Readable values' := fun value hvalue => h value (List.mem_append_right _ hvalue)

theorem Style.readable_items {items : List Json} :
    style.Readable (itemScalars items) ↔ ∀ item ∈ items, style.Readable (scalars item) := by
  induction items with
  | nil => simp [itemScalars, Readable]
  | cons item items ih =>
    rw [List.forall_mem_cons, ← ih]
    constructor
    · exact fun h => ⟨h.left, h.right⟩
    · rintro ⟨hitem, hitems⟩ value hvalue
      exact (List.mem_append.mp hvalue).elim (hitem value) (hitems value)

theorem Style.readable_entries {entries : JsonObject} :
    style.Readable (entryScalars entries) ↔ ∀ entry ∈ entries, style.Readable (scalars entry.2) := by
  induction entries with
  | nil => simp [entryScalars, Readable]
  | cons entry entries ih =>
    rw [List.forall_mem_cons, ← ih]
    constructor
    · exact fun h => ⟨h.left, h.right⟩
    · rintro ⟨hentry, hentries⟩ value hvalue
      exact (List.mem_append.mp hvalue).elim (hentry value) (hentries value)

theorem skip_cons {c : Char} (hc : isBlank c = false) (cs : List Char) : skip (c :: cs) = c :: cs :=
  List.dropWhile_cons_of_neg (by simp [hc])

theorem skip_separator (style : Style) (cs : List Char) :
    skip ((separator style ',').tail ++ cs) = skip cs ∧
      skip ((separator style ':').tail ++ cs) = skip cs := by
  have hblanks : ∀ c ∈ List.replicate style.blanks ' ', isBlank c = true := by
    intro c hc
    rw [List.eq_of_mem_replicate hc]
    decide
  exact ⟨List.dropWhile_append_of_pos hblanks, List.dropWhile_append_of_pos hblanks⟩

theorem isBlank_of_isDigit {c : Char} (h : c = '-' ∨ c.isDigit = true) :
    isBlank c = false ∧ isStop c = false := by
  have hne : ∀ d : Char, d.isDigit = false → d ≠ '-' → c ≠ d := by
    rintro d hd hminus rfl
    rcases h with rfl | hdigit
    · exact hminus rfl
    · rw [hdigit] at hd
      cases hd
  unfold isBlank isStop
  simp only [Bool.or_eq_false_iff, decide_eq_false_iff_not, and_assoc]
  exact ⟨hne _ (by decide) (by decide), hne _ (by decide) (by decide), hne _ (by decide) (by decide),
    hne _ (by decide) (by decide), hne _ (by decide) (by decide), hne _ (by decide) (by decide),
    hne _ (by decide) (by decide)⟩

/-- The text of a value starts with a character that is neither a blank nor ends a value. -/
theorem dumps_head {value : Json} (h : style.Readable (scalars value)) :
    ∃ c rest, dumps style value = c :: rest ∧ isBlank c = false ∧ isStop c = false := by
  cases value with
  | list items => exact ⟨'[', _, rfl, by decide, by decide⟩
  | dict entries => exact ⟨'{', _, rfl, by decide, by decide⟩
  | scalar value =>
    cases value with
    | null => exact ⟨'n', _, rfl, by decide, by decide⟩
    | bool value => cases value <;> exact ⟨_, _, rfl, by decide, by decide⟩
    | str value => exact ⟨'"', _, rfl, by decide, by decide⟩
    | int value =>
      obtain ⟨c, rest, hwrite, hc⟩ := Lexeme.head_write (valid_ofInt value)
      exact ⟨c, rest, hwrite, isBlank_of_isDigit hc⟩
    | float value =>
      obtain ⟨lexeme, hvalid, -, htext, -⟩ := h value List.mem_cons_self
      obtain ⟨c, rest, hwrite, hc⟩ := Lexeme.head_write hvalid
      exact ⟨c, rest, htext.trans hwrite, isBlank_of_isDigit hc⟩

theorem skip_dumps {value : Json} (h : style.Readable (scalars value)) (cs : List Char) :
    skip (dumps style value ++ cs) = dumps style value ++ cs := by
  obtain ⟨c, rest, htext, hc, -⟩ := dumps_head h
  rw [htext]
  exact skip_cons hc _

theorem length_dumps_pos {value : Json} (h : style.Readable (scalars value)) :
    0 < (dumps style value).length := by
  obtain ⟨c, rest, htext, -⟩ := dumps_head h
  rw [htext]
  exact Nat.succ_pos _

theorem stops_cons {c : Char} (hc : isStop c = true) (cs : List Char) : Stops (c :: cs) := by
  intro d hd
  obtain rfl : c = d := Option.some.inj hd
  exact hc

/-- What is read at a minus or a digit is a number. -/
theorem readValue_number {c : Char} (hc : c = '-' ∨ c.isDigit = true) (fuel : ℕ) (cs : List Char) :
    readValue style (fuel + 1) (c :: cs) =
      (readNumber style (c :: cs)).map fun (value, rest) => (.scalar value, rest) := by
  have hne : ∀ d : Char, d.isDigit = false → d ≠ '-' → c ≠ d := by
    rintro d hd hminus rfl
    rcases hc with rfl | hdigit
    · exact hminus rfl
    · rw [hdigit] at hd
      cases hd
  rw [readValue, if_neg (hne _ (by decide) (by decide)), if_neg (hne _ (by decide) (by decide)),
    if_neg (hne _ (by decide) (by decide)), if_neg (hne _ (by decide) (by decide)),
    if_neg (hne _ (by decide) (by decide)), if_neg (hne _ (by decide) (by decide))]

theorem readValue_scalar {value : Scalar} (h : style.Readable [value]) (fuel : ℕ)
    (hrest : Stops rest) : readValue style (fuel + 1) (dumpsScalar style value ++ rest) =
      some (.scalar value, rest) := by
  have hnumber : ∀ {lexeme : Lexeme}, lexeme.Valid → ∀ {read : Scalar},
      readNumber style (lexeme.write ++ rest) = some (read, rest) →
        readValue style (fuel + 1) (lexeme.write ++ rest) = some (.scalar read, rest) := by
    intro lexeme hvalid read hread
    obtain ⟨c, cs, hwrite, hc⟩ := Lexeme.head_write hvalid
    rw [hwrite, List.cons_append] at hread ⊢
    rw [readValue_number hc, hread]
    rfl
  cases value with
  | null => rfl
  | bool value => cases value <;> rfl
  | str value =>
    show (readString ((dumpsString style.ensureAscii value).tail ++ rest)).map _ = _
    rw [readString_dumpsString]
    rfl
  | int value => exact hnumber (valid_ofInt value) (readNumber_int style value hrest)
  | float value =>
    have hexact := h value List.mem_cons_self
    have hread := readNumber_float hexact hrest
    obtain ⟨lexeme, hvalid, -, htext, -⟩ := hexact
    show readValue style (fuel + 1) (style.float value ++ rest) = _
    rw [htext] at hread ⊢
    exact hnumber hvalid hread

theorem dumpsItems_front {items : List Json} (h : items ≠ []) (front : List Char) :
    dumpsItems style front items = front ++ dumpsItems style [] items := by
  cases items with
  | nil => exact absurd rfl h
  | cons item items => rfl

theorem dumpsEntries_front {entries : JsonObject} (h : entries ≠ []) (front : List Char) :
    dumpsEntries style front entries = front ++ dumpsEntries style [] entries := by
  cases entries with
  | nil => exact absurd rfl h
  | cons entry entries => rfl

/-- What stands behind an item of a list: the end, or a separator and the next item. -/
theorem dumpsItems_tail (style : Style) (items : List Json) (rest : List Char) :
    (items = [] ∧ dumpsItems style (separator style ',') items ++ rest = ']' :: rest) ∨
      items ≠ [] ∧ dumpsItems style (separator style ',') items ++ rest =
        ',' :: ((separator style ',').tail ++ (dumpsItems style [] items ++ rest)) := by
  by_cases hitems : items = []
  · left
    subst hitems
    exact ⟨rfl, rfl⟩
  · right
    refine ⟨hitems, ?_⟩
    rw [dumpsItems_front hitems, List.append_assoc]
    rfl

theorem dumpsEntries_tail (style : Style) (entries : JsonObject) (rest : List Char) :
    (entries = [] ∧ dumpsEntries style (separator style ',') entries ++ rest = '}' :: rest) ∨
      entries ≠ [] ∧ dumpsEntries style (separator style ',') entries ++ rest =
        ',' :: ((separator style ',').tail ++ (dumpsEntries style [] entries ++ rest)) := by
  by_cases hentries : entries = []
  · left
    subst hentries
    exact ⟨rfl, rfl⟩
  · right
    refine ⟨hentries, ?_⟩
    rw [dumpsEntries_front hentries, List.append_assoc]
    rfl

theorem skip_dumpsItems {items : List Json} (hne : items ≠ [])
    (h : style.Readable (itemScalars items)) (cs : List Char) :
    skip (dumpsItems style [] items ++ cs) = dumpsItems style [] items ++ cs := by
  cases items with
  | nil => exact absurd rfl hne
  | cons item items =>
    show skip ((dumps style item ++ dumpsItems style (separator style ',') items) ++ cs) = _
    rw [List.append_assoc, skip_dumps h.left, ← List.append_assoc]
    rfl

theorem skip_dumpsEntries {entries : JsonObject} (hne : entries ≠ []) (cs : List Char) :
    skip (dumpsEntries style [] entries ++ cs) = dumpsEntries style [] entries ++ cs := by
  cases entries with
  | nil => exact absurd rfl hne
  | cons entry entries => rfl

mutual

/-- A value is read back from its text, with fuel for its length. -/
theorem readValue_dumps : (value : Json) → style.Readable (scalars value) → ∀ {fuel rest},
    (dumps style value).length ≤ fuel → Stops rest →
      readValue style fuel (dumps style value ++ rest) = some (value, rest)
  | .scalar value, h, fuel, rest, hfuel, hrest => by
    have hpos := length_dumps_pos h
    obtain ⟨fuel, rfl⟩ := Nat.exists_eq_succ_of_ne_zero (show fuel ≠ 0 by omega)
    exact readValue_scalar h fuel hrest
  | .list items, h, fuel, rest, hfuel, hrest => by
    have hlength : (dumps style (.list items)).length = (dumpsItems style [] items).length + 1 := rfl
    obtain ⟨fuel, rfl⟩ := Nat.exists_eq_succ_of_ne_zero (show fuel ≠ 0 by omega)
    by_cases hitems : items = []
    · subst hitems
      rfl
    · have hread : readItems style fuel (dumpsItems style [] items ++ rest) = some (items, rest) :=
        readItems_dumps items hitems h (by omega)
      have hskip := skip_dumpsItems hitems h rest
      have hhead : (dumpsItems style [] items ++ rest).head? ≠ some ']' := by
        cases items with
        | nil => exact absurd rfl hitems
        | cons item items =>
          have hitem : style.Readable (scalars item) := h.left
          obtain ⟨c, cs, htext, -, hc⟩ := dumps_head hitem
          show (dumps style item ++ _ ++ rest).head? ≠ _
          rw [htext]
          intro heq
          obtain rfl : c = ']' := Option.some.inj heq
          exact absurd hc (by decide)
      show readValue style (fuel + 1) ('[' :: (dumpsItems style [] items ++ rest)) = _
      rw [readValue, if_neg (by decide), if_pos rfl, hskip, if_neg hhead, hread]
      rfl
  | .dict entries, h, fuel, rest, hfuel, hrest => by
    have hlength : (dumps style (.dict entries)).length =
        (dumpsEntries style [] entries).length + 1 := rfl
    obtain ⟨fuel, rfl⟩ := Nat.exists_eq_succ_of_ne_zero (show fuel ≠ 0 by omega)
    by_cases hentries : entries = []
    · subst hentries
      rfl
    · have hread : readEntries style fuel (dumpsEntries style [] entries ++ rest) =
          some (entries, rest) := readEntries_dumps entries hentries h (by omega)
      have hskip : skip (dumpsEntries style [] entries ++ rest) =
          dumpsEntries style [] entries ++ rest := skip_dumpsEntries hentries rest
      have hhead : (dumpsEntries style [] entries ++ rest).head? ≠ some '}' := by
        cases entries with
        | nil => exact absurd rfl hentries
        | cons entry entries =>
          show some '"' ≠ _
          decide
      show readValue style (fuel + 1) ('{' :: (dumpsEntries style [] entries ++ rest)) = _
      rw [readValue, if_neg (by decide), if_neg (by decide), if_pos rfl, hskip, if_neg hhead, hread]
      rfl

theorem readItems_dumps : (items : List Json) → items ≠ [] → style.Readable (itemScalars items) →
    ∀ {fuel rest}, (dumpsItems style [] items).length ≤ fuel →
      readItems style fuel (dumpsItems style [] items ++ rest) = some (items, rest)
  | [], hne, _, _, _, _ => absurd rfl hne
  | item :: items, _, h, fuel, rest, hfuel => by
    have htext : dumpsItems style [] (item :: items) =
        dumps style item ++ dumpsItems style (separator style ',') items := rfl
    have hitem : style.Readable (scalars item) := h.left
    have hpos := length_dumps_pos hitem
    rw [htext, List.length_append] at hfuel
    obtain ⟨fuel, rfl⟩ := Nat.exists_eq_succ_of_ne_zero (show fuel ≠ 0 by omega)
    rw [htext, List.append_assoc, readItems]
    rcases dumpsItems_tail style items rest with ⟨hitems, htail⟩ | ⟨hitems, htail⟩
    · have hlength : 0 < (dumpsItems style (separator style ',') items).length := by
        subst hitems
        exact Nat.succ_pos _
      rw [htail, readValue_dumps item hitem (by omega) (stops_cons (by decide) _)]
      subst hitems
      rfl
    · have hlength : (dumpsItems style [] items).length + 1 ≤
          (dumpsItems style (separator style ',') items).length := by
        rw [dumpsItems_front hitems (separator style ','), List.length_append, separator, List.length_cons]
        omega
      rw [htail, readValue_dumps item hitem (by omega) (stops_cons (by decide) _)]
      dsimp only [Option.bind_eq_bind, Option.bind_some]
      rw [skip_cons (by decide), List.head?_cons, if_neg (by decide), if_pos rfl, List.tail_cons,
        (skip_separator style _).1, skip_dumpsItems hitems h.right,
        readItems_dumps items hitems h.right (by omega)]
      rfl

theorem readEntries_dumps : (entries : JsonObject) → entries ≠ [] →
    style.Readable (entryScalars entries) → ∀ {fuel rest},
      (dumpsEntries style [] entries).length ≤ fuel →
        readEntries style fuel (dumpsEntries style [] entries ++ rest) = some (entries, rest)
  | [], hne, _, _, _, _ => absurd rfl hne
  | (key, value) :: entries, _, h, fuel, rest, hfuel => by
    have htext : dumpsEntries style [] ((key, value) :: entries) =
        dumpsString style.ensureAscii key ++ (separator style ':' ++
          (dumps style value ++ dumpsEntries style (separator style ',') entries)) := rfl
    have hvalue : style.Readable (scalars value) := h.left
    have hpos := length_dumps_pos hvalue
    rw [htext, List.length_append, List.length_append, List.length_append, dumpsString,
      List.length_cons] at hfuel
    obtain ⟨fuel, rfl⟩ := Nat.exists_eq_succ_of_ne_zero (show fuel ≠ 0 by omega)
    -- the text, with the head that each step of the reader looks at in front
    have hkey : (dumpsString style.ensureAscii key ++ (separator style ':' ++
        (dumps style value ++ dumpsEntries style (separator style ',') entries)) ++ rest) =
        '"' :: ((dumpsString style.ensureAscii key).tail ++ (':' :: ((separator style ':').tail ++
          (dumps style value ++ (dumpsEntries style (separator style ',') entries ++ rest))))) := by
      simp only [List.append_assoc]
      rfl
    rw [htext, hkey, readEntries, List.head?_cons, if_pos rfl, List.tail_cons, readString_dumpsString]
    dsimp only [Option.bind_eq_bind, Option.bind_some]
    rw [skip_cons (by decide), List.head?_cons, if_pos rfl, List.tail_cons, (skip_separator style _).2,
      skip_dumps hvalue]
    rcases dumpsEntries_tail style entries rest with ⟨hentries, htail⟩ | ⟨hentries, htail⟩
    · rw [htail, readValue_dumps value hvalue (by omega) (stops_cons (by decide) _)]
      subst hentries
      rfl
    · have hlength : (dumpsEntries style [] entries).length + 1 ≤
          (dumpsEntries style (separator style ',') entries).length := by
        rw [dumpsEntries_front hentries (separator style ','), List.length_append, separator,
          List.length_cons]
        omega
      rw [htail, readValue_dumps value hvalue (by omega) (stops_cons (by decide) _)]
      dsimp only [Option.bind_some]
      rw [skip_cons (by decide), List.head?_cons, if_neg (by decide), if_pos rfl, List.tail_cons,
        (skip_separator style _).1, skip_dumpsEntries hentries,
        readEntries_dumps entries hentries h.right (by omega)]
      rfl

end

/-- `json.loads(json.dumps(value)) == value`. -/
theorem loads_dumps {value : Json} (h : style.Readable (scalars value)) :
    loads style (dumps style value) = some value := by
  have hstops : Stops [] := by
    intro c hc
    cases hc
  have hread := readValue_dumps value h (le_refl (dumps style value).length) hstops
  have hskip := skip_dumps h []
  rw [List.append_nil] at hread hskip
  unfold loads
  rw [hskip, hread]
  rfl

/-- Two values with one text are equal. -/
theorem dumps_injective {value value' : Json} (h : style.Readable (scalars value))
    (h' : style.Readable (scalars value')) (heq : dumps style value = dumps style value') :
    value = value' := by
  have hread := loads_dumps h
  rw [heq, loads_dumps h'] at hread
  exact (Option.some.inj hread).symm

end

/-! ## 4. One line -/

/-- No character is a control character. -/
def Printable (cs : List Char) : Prop := ∀ c ∈ cs, 32 ≤ c.toNat

theorem Printable.append {cs cs' : List Char} (h : Printable cs) (h' : Printable cs') :
    Printable (cs ++ cs') := fun c hc => (List.mem_append.mp hc).elim (h c) (h' c)

theorem Printable.cons {c : Char} {cs : List Char} (hc : 32 ≤ c.toNat) (h : Printable cs) :
    Printable (c :: cs) := List.forall_mem_cons.mpr ⟨hc, h⟩

theorem printable_nil : Printable [] := fun _ hc => absurd hc List.not_mem_nil

theorem printable_unicodeEscape (n : ℕ) : Printable (unicodeEscape n) := by
  have hdigit : ∀ d < 16, 32 ≤ (Nat.digitChar d).toNat := by decide
  have hmod : ∀ k, 32 ≤ (Nat.digitChar (k % 16)).toNat := fun k =>
    hdigit _ (Nat.mod_lt _ (by decide))
  exact .cons (by decide) (.cons (hmod _) (.cons (hmod _) (.cons (hmod _) (.cons (hmod _) printable_nil))))

theorem printable_escapeChar (ensureAscii : Bool) (c : Char) : Printable (escapeChar ensureAscii c) := by
  have hescape : ∀ n, Printable ('\\' :: unicodeEscape n) := fun n =>
    .cons (by decide) (printable_unicodeEscape n)
  unfold escapeChar
  split_ifs with _ _ _ _ _ _ _ hc
  all_goals first
    | exact .cons (by decide) (.cons (by decide) printable_nil)
    | exact .cons hc.1 printable_nil
    | exact hescape _
    | exact (hescape _).append (hescape _)

theorem printable_dumpsString (ensureAscii : Bool) (s : String) :
    Printable (dumpsString ensureAscii s) := by
  refine .cons (by decide) (.append ?_ (.cons (by decide) printable_nil))
  intro c hc
  obtain ⟨d, -, hc⟩ := List.mem_flatMap.mp hc
  exact printable_escapeChar ensureAscii d c hc

theorem Lexeme.printable_write {l : Lexeme} (h : l.Valid) : Printable l.write := by
  have hdigits : ∀ {ds : List Char}, Numeral.AllDigits ds → Printable ds := by
    intro ds hds c hc
    have hdigit := hds c hc
    simp only [Char.isDigit, Bool.and_eq_true, decide_eq_true_eq] at hdigit
    have hle : '0'.toNat ≤ c.toNat := hdigit.1
    exact le_trans (by decide) hle
  have hfraction : Printable (if l.fraction = [] then [] else '.' :: l.fraction) := by
    split
    · exact printable_nil
    · exact .cons (by decide) (hdigits h.fraction)
  have hexponent : Printable l.exponent := by
    rcases h.exponent with hnone | ⟨sign, digits, hexponent, hsign, hall, -⟩
    · rw [hnone]
      exact printable_nil
    · rw [hexponent]
      refine .cons (by decide) (.cons ?_ (hdigits hall))
      rcases hsign with rfl | rfl <;> decide
  have hminus : Printable (if l.negative then ['-'] else []) := by
    split
    · exact .cons (by decide) printable_nil
    · exact printable_nil
  exact ((hminus.append (hdigits h.whole.1)).append hfraction).append hexponent

section

variable {style : Style}

theorem printable_dumpsScalar {value : Scalar} (h : style.Readable [value]) :
    Printable (dumpsScalar style value) := by
  have hword : ∀ word : List Char, (word.all fun c => decide (32 ≤ c.toNat)) = true → Printable word :=
    fun word hall c hc => of_decide_eq_true (List.all_eq_true.mp hall c hc)
  cases value with
  | null => exact hword ['n', 'u', 'l', 'l'] (by decide)
  | bool value =>
    cases value with
    | true => exact hword ['t', 'r', 'u', 'e'] (by decide)
    | false => exact hword ['f', 'a', 'l', 's', 'e'] (by decide)
  | int value => exact Lexeme.printable_write (valid_ofInt value)
  | float value =>
    obtain ⟨lexeme, hvalid, -, htext, -⟩ := h value List.mem_cons_self
    show Printable (style.float value)
    rw [htext]
    exact Lexeme.printable_write hvalid
  | str value => exact printable_dumpsString _ value

theorem printable_separator {c : Char} (hc : 32 ≤ c.toNat) : Printable (separator style c) := by
  refine .cons hc fun d hd => ?_
  rw [List.eq_of_mem_replicate hd]
  decide

mutual

/-- The text of a value stands on one line. -/
theorem printable_dumps : (value : Json) → style.Readable (scalars value) →
    Printable (dumps style value)
  | .scalar _, h => printable_dumpsScalar h
  | .list items, h => .cons (by decide) (printable_dumpsItems items printable_nil h)
  | .dict entries, h => .cons (by decide) (printable_dumpsEntries entries printable_nil h)

theorem printable_dumpsItems : (items : List Json) → ∀ {front}, Printable front →
    style.Readable (itemScalars items) → Printable (dumpsItems style front items)
  | [], _, _, _ => .cons (by decide) printable_nil
  | item :: items, _, hfront, h =>
    hfront.append ((printable_dumps item h.left).append
      (printable_dumpsItems items (printable_separator (by decide)) h.right))

theorem printable_dumpsEntries : (entries : JsonObject) → ∀ {front}, Printable front →
    style.Readable (entryScalars entries) → Printable (dumpsEntries style front entries)
  | [], _, _, _ => .cons (by decide) printable_nil
  | (key, value) :: entries, _, hfront, h =>
    hfront.append ((printable_dumpsString _ key).append
      ((printable_separator (by decide)).append ((printable_dumps value h.left).append
        (printable_dumpsEntries entries (printable_separator (by decide)) h.right))))

end

end

end Lib.JsonText
