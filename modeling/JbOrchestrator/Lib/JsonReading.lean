import JbOrchestrator.Lib.Datetimes
import JbOrchestrator.Lib.Json
import JbOrchestrator.Lib.Results
import JbOrchestrator.Lib.Uuid

/-!
# JsonReading — taking values out of JSON

`str`, `int`, `bool`, the subscripts and the loops of Python on JSON values.  What a conversion makes of
a value that no serializer writes is a parameter; on what serializers write it is stated here.
-/

namespace Lib

/-- What reading a record raises; a constructor may refuse what was read. -/
inductive ReadError where
  | keyError (key : String)
  | typeError
  | attributeError
  | valueError
  | refused (message : String)
  deriving DecidableEq, Repr

/-- The conversions, where the argument is not already what they convert to. -/
structure Conversions where
  str : Json → String
  int : Json → Except ReadError ℤ
  dict : Json → Except ReadError JsonObject
  decimal : String → Except ReadError Numeral
  uuid : String → Except ReadError ℕ
  datetime : String → Except ReadError Datetime

namespace Json

def text (s : String) : Json := .scalar (.str s)

def number (n : ℕ) : Json := .scalar (.int n)

def flag (b : Bool) : Json := .scalar (.bool b)

/-- A value that may be `None`. -/
def orNone {α : Type} (f : α → Json) : Option α → Json
  | none => .scalar .null
  | some a => f a

def uuid (id : ℕ) : Json := text (String.ofList (Uuid.text id))

def decimal (n : Numeral) : Json := text n.str

def datetime (d : Datetime) : Json := text (String.ofList d.isoformat)

/-- `bool(value)`. -/
def truthy : Json → Bool
  | .scalar .null => false
  | .scalar (.bool b) => b
  | .scalar (.int n) => n ≠ 0
  | .scalar (.float q) => q ≠ 0
  | .scalar (.str s) => s ≠ ""
  | .list items => !items.isEmpty
  | .dict entries => !entries.isEmpty

def isNull : Json → Bool
  | .scalar .null => true
  | _ => false

/-- `value[key]` for a value that should be an object. -/
def object (value : Json) (error : ReadError) : Except ReadError JsonObject :=
  match value with
  | .dict entries => .ok entries
  | _ => .error error

/-- `for item in value`. -/
def items : Json → Except ReadError (List Json)
  | .list items => .ok items
  | .dict entries => .ok (entries.map fun entry => text entry.1)
  | .scalar (.str s) => .ok (s.toList.map fun c => text (String.singleton c))
  | .scalar _ => .error .typeError

/-- `data[key]`. -/
def subscript (data : JsonObject) (key : String) : Except ReadError Json :=
  match lookup data key with
  | some value => .ok value
  | none => .error (.keyError key)

/-- `data.get(key, default)`. -/
def getD (data : JsonObject) (key : String) (default : Json := .scalar .null) : Json :=
  (lookup data key).getD default

end Json

section

variable {α : Type} (value : Json)

/-- `read(value) if value is not None else None`. -/
def readNotNone (read : Json → Except ReadError α) : Except ReadError (Option α) :=
  if value.isNull then .ok none else (read value).map some

/-- `read(value) if value else None`. -/
def readIfTruthy (read : Json → Except ReadError α) : Except ReadError (Option α) :=
  if value.truthy then (read value).map some else .ok none

/-- `read(value) if isinstance(value, dict) else None`. -/
def readIfDict (read : JsonObject → Except ReadError α) : Except ReadError (Option α) :=
  match value with
  | .dict entries => (read entries).map some
  | _ => .ok none

end

/-- A constructor call on what was read. -/
def refusing {α : Type} (x : Except String α) : Except ReadError α := x.mapError .refused

/-- The member of an enumeration with the value. -/
def enumOf {α : Type} (members : List α) (value : α → String) (s : String) : Except ReadError α :=
  match members.find? fun member => value member = s with
  | some member => .ok member
  | none => .error .valueError

namespace Conversions

variable (conv : Conversions)

def toStr : Json → String
  | .scalar (.str s) => s
  | value => conv.str value

def toInt : Json → Except ReadError ℤ
  | .scalar (.int n) => .ok n
  | .scalar (.bool b) => .ok (if b then 1 else 0)
  | value => conv.int value

/-- A number below zero is refused by every constructor that takes one. -/
def toNat (value : Json) : Except ReadError ℕ := do
  let n ← conv.toInt value
  if n < 0 then .error .valueError else .ok n.toNat

def toDict : Json → Except ReadError JsonObject
  | .dict entries => .ok entries
  | value => conv.dict value

/-- `Decimal(text)`. -/
def toDecimal (s : String) : Except ReadError Numeral :=
  let n := Numeral.ofChars s.toList
  if n.str = s then .ok n else conv.decimal s

/-- `UUID(text)`. -/
def toUuid (s : String) : Except ReadError ℕ :=
  match Uuid.ofText s.toList with
  | some id => .ok id
  | none => conv.uuid s

/-- `datetime.fromisoformat(text)`. -/
def toDatetime (s : String) : Except ReadError Datetime :=
  match Datetime.fromisoformat s.toList with
  | some d => .ok d
  | none => conv.datetime s

end Conversions

/-! ## What was written is read back -/

section

variable (conv : Conversions)

open Json Conversions

@[simp] theorem toStr_text (s : String) : conv.toStr (text s) = s := rfl

@[simp] theorem toNat_number (n : ℕ) : conv.toNat (number n) = .ok n := by
  show (if (n : ℤ) < 0 then Except.error ReadError.valueError else Except.ok (n : ℤ).toNat) = _
  rw [if_neg (by omega), Int.toNat_natCast]

@[simp] theorem truthy_text (s : String) : (text s).truthy = decide (s ≠ "") := by
  simp [text, truthy]

@[simp] theorem truthy_flag (b : Bool) : (flag b).truthy = b := rfl

@[simp] theorem toDict_dict (entries : JsonObject) : conv.toDict (.dict entries) = .ok entries := rfl

@[simp] theorem items_list (values : List Json) : (Json.list values).items = .ok values := rfl

@[simp] theorem object_dict (entries : JsonObject) (error : ReadError) :
    (Json.dict entries).object error = .ok entries := rfl

@[simp] theorem toDecimal_str (n : Numeral) : conv.toDecimal n.str = .ok n := by
  have hchars : n.str.toList = n.toChars := by simp [Numeral.str]
  unfold toDecimal
  dsimp only
  rw [hchars, Numeral.ofChars_toChars, if_pos rfl]

theorem toUuid_text {id : ℕ} (h : id < 2 ^ 128) :
    conv.toUuid (String.ofList (Uuid.text id)) = .ok id := by
  unfold toUuid
  rw [String.toList_ofList, Uuid.ofText_text h]

theorem toDatetime_isoformat {d : Datetime} (h : d.Valid) :
    conv.toDatetime (String.ofList d.isoformat) = .ok d := by
  unfold toDatetime
  rw [String.toList_ofList, Datetime.fromisoformat_isoformat h]

@[simp] theorem refusing_ok {α : Type} (a : α) : refusing (.ok a) = .ok a := rfl

/-- The values of an enumeration tell its members apart. -/
theorem enumOf_value {α : Type} {members : List α} {value : α → String}
    (hinjective : Function.Injective value) {member : α} (hmember : member ∈ members) :
    enumOf members value (value member) = .ok member := by
  unfold enumOf
  cases hfind : members.find? fun other => value other = value member with
  | none =>
    have hne := List.find?_eq_none.mp hfind member hmember
    simp at hne
  | some other =>
    have heq : value other = value member := by simpa using List.find?_some hfind
    exact congrArg Except.ok (hinjective heq)

section

variable {α : Type} {write : α → Json} {value : Option α}

theorem readNotNone_orNone {read : Json → Except ReadError α} (hnull : ∀ a, (write a).isNull = false)
    (h : ∀ a ∈ value, read (write a) = .ok a) : readNotNone (orNone write value) read = .ok value := by
  cases value with
  | none => rfl
  | some a =>
    unfold readNotNone orNone
    rw [if_neg (by rw [hnull]; decide), h a rfl]
    rfl

theorem readIfTruthy_orNone {read : Json → Except ReadError α}
    (htruthy : ∀ a ∈ value, (write a).truthy = true) (h : ∀ a ∈ value, read (write a) = .ok a) :
    readIfTruthy (orNone write value) read = .ok value := by
  cases value with
  | none => rfl
  | some a =>
    unfold readIfTruthy orNone
    rw [if_pos (htruthy a rfl), h a rfl]
    rfl

theorem readIfDict_orNone {write : α → JsonObject} {read : JsonObject → Except ReadError α}
    (h : ∀ a ∈ value, read (write a) = .ok a) :
    readIfDict (orNone (fun a => .dict (write a)) value) read = .ok value := by
  cases value with
  | none => rfl
  | some a =>
    unfold readIfDict orNone
    dsimp only
    rw [h a rfl]
    rfl

end

/-- What is read of a list of records, from what is read of each. -/
theorem mapM_map_restored {ε α β γ : Type} {write : α → β} {read : β → Except ε γ} {restored : α → γ}
    {xs : List α} (h : ∀ x ∈ xs, read (write x) = .ok (restored x)) :
    (xs.map write).mapM read = .ok (xs.map restored) := by
  apply mapM_eq_ok.mpr
  rw [List.forall₂_map_left_iff, List.forall₂_map_right_iff]
  exact List.forall₂_same.mpr h

theorem mapM_map_ok {ε α β : Type} {write : α → β} {read : β → Except ε α} {xs : List α}
    (h : ∀ x ∈ xs, read (write x) = .ok x) : (xs.map write).mapM read = .ok xs := by
  have hxs : (xs.map write).mapM read = .ok (xs.map id) := mapM_map_restored h
  rwa [List.map_id] at hxs

end

end Lib
