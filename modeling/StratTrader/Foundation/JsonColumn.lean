import StratTrader.Foundation.FloatText
import StratTrader.Foundation.JsonText

/-!
# Columns of JSON

What `json.loads` makes of a text, the text `str` writes for it, and what a column of the type
`jsonb` gives back for it. The column keeps a number as a decimal and an object without the
order of its members. So a float that `repr` writes with a positive exponent comes back as an
integer, a negative zero as a zero, and the members of an object by the length of their names.

## What is proved

* `Body.lookup_column`: a member comes back under its name.
* `Loaded.isString_column`, `Loaded.isString_of_blank`: a string comes back as a string, and the text
  of any other value is not blank.

## Honest scope

The column takes no infinity, no NaN and no NUL character, so that these are out, and a string is a
list of Unicode scalar values. Which characters `repr` prints is a parameter.
-/

namespace StratTrader.Foundation

open Decimal (natOf)

/-! ### Values -/

/-- A finite float, by the fewest digits that are read as it: `0.d₁d₂…` times ten to `point`. -/
structure ShortFloat where
  /-- Whether a sign is written. -/
  negative : Bool
  /-- The digits. -/
  digits : List Char
  /-- Where the point stands. -/
  point : ℤ
  /-- They are digits. -/
  isDigits : digits.all Char.isDigit = true
  /-- No float needs more than 17. -/
  short : digits.length ≤ 17
  /-- The first one is no zero, except for the number zero. -/
  leading : (∃ d ∈ digits.head?, d ≠ '0') ∨ digits = ['0'] ∧ point = 1

/-- A value that `json.loads` gives. -/
inductive Loaded where
  /-- `None`. -/
  | null
  /-- `True` or `False`. -/
  | bool (b : Bool)
  /-- An `int`. -/
  | int (n : ℤ)
  /-- A `float`. -/
  | float (x : ShortFloat)
  /-- A `str`. -/
  | string (s : String)
  /-- A `list`. -/
  | list (vs : List Loaded)
  /-- A `dict`. -/
  | dict (ms : List (String × Loaded))

/-- Whether a value is a given string. -/
def Loaded.isText : Loaded → String → Bool
  | .string s, t => decide (s = t)
  | .null, _ | .bool _, _ | .int _, _ | .float _, _ | .list _, _ | .dict _, _ => false

/-- The members of a decoded object. -/
abbrev Body := List (String × Loaded)

/-! ### `repr` -/

/-- `repr` of the size of a float: with an exponent from `1e16` on and below `0.0001`. -/
def ShortFloat.magnitude (x : ShortFloat) : List Char :=
  if x.point ≤ -4 ∨ 16 < x.point then
    x.digits.take 1 ++ (if x.digits.length ≤ 1 then [] else '.' :: x.digits.drop 1) ++ 'e' :: exponentText (x.point - 1)
  else if x.point ≤ 0 then '0' :: '.' :: (List.replicate (-x.point).toNat '0' ++ x.digits)
  else if x.digits.length ≤ x.point then
    x.digits ++ List.replicate (x.point - x.digits.length).toNat '0' ++ ['.', '0']
  else x.digits.take x.point.toNat ++ '.' :: x.digits.drop x.point.toNat

/-- `repr` of a float. -/
def ShortFloat.repr (x : ShortFloat) : List Char := if x.negative then '-' :: x.magnitude else x.magnitude

/-- A number in at least `width` hexadecimal digits. -/
def hexText (width n : ℕ) : List Char :=
  let digits := Nat.toDigits 16 n
  List.replicate (width - digits.length) '0' ++ digits

/-- What `repr` writes for a character of a string between `mark`s. -/
def reprChar (printable : Char → Bool) (mark c : Char) : List Char :=
  let n := c.toNat
  if c = mark ∨ c = '\\' then ['\\', c]
  else if c = '\t' then ['\\', 't']
  else if c = '\n' then ['\\', 'n']
  else if c = '\r' then ['\\', 'r']
  else if n < 0x20 ∨ n = 0x7f then '\\' :: 'x' :: hexText 2 n
  else if n < 0x7f ∨ printable c = true then [c]
  else if n ≤ 0xff then '\\' :: 'x' :: hexText 2 n
  else if n ≤ 0xffff then '\\' :: 'u' :: hexText 4 n
  else '\\' :: 'U' :: hexText 8 n

/-- `repr` of a string: in double quotes if only single ones stand in it. -/
def reprString (printable : Char → Bool) (s : String) : List Char :=
  let mark := if '\x27' ∈ s.toList ∧ '"' ∉ s.toList then '"' else '\x27'
  mark :: (s.toList.flatMap (reprChar printable mark) ++ [mark])

section

variable (printable : Char → Bool)

mutual

/-- `repr`. -/
def Loaded.repr : Loaded → List Char
  | .null => ['N', 'o', 'n', 'e']
  | .bool true => ['T', 'r', 'u', 'e']
  | .bool false => ['F', 'a', 'l', 's', 'e']
  | .int n => intText n
  | .float x => x.repr
  | .string s => reprString printable s
  | .list vs => '[' :: (List.intercalate [',', ' '] (reprItems vs) ++ [']'])
  | .dict ms => '{' :: (List.intercalate [',', ' '] (reprMembers ms) ++ ['}'])

/-- `repr` of every item. -/
def reprItems : List Loaded → List (List Char)
  | [] => []
  | v :: vs => v.repr :: reprItems vs

/-- `repr` of every name and member. -/
def reprMembers : List (String × Loaded) → List (List Char)
  | [] => []
  | (k, v) :: ms => (reprString printable k ++ ':' :: ' ' :: v.repr) :: reprMembers ms

end

/-- What the code sees of a value. -/
def Loaded.seen : Loaded → Json
  | .null => .null
  | .bool b => .bool b
  | .int n => .number (String.ofList (intText n))
  | .float x => .number (String.ofList x.repr)
  | .string s => .string s
  | .list vs => .container (String.ofList (Loaded.repr printable (.list vs))) vs.isEmpty
  | .dict ms => .container (String.ofList (Loaded.repr printable (.dict ms))) ms.isEmpty

/-- What the code sees of the members of an object. -/
def Body.seen (body : Body) : Payload := body.map fun m => (m.1, m.2.seen printable)

end

/-! ### The column -/

/-- What comes back for a float. -/
def ShortFloat.column (x : ShortFloat) : Loaded :=
  if x.digits = ['0'] then .float { x with negative := false }
  else if 16 < x.point then
    let magnitude : ℤ := natOf x.digits * 10 ^ (x.point - x.digits.length).toNat
    .int (if x.negative then -magnitude else magnitude)
  else .float x

/-- The order of names in an object: by the length in bytes, and then by the bytes. -/
def NameLE (a b : String) : Prop :=
  a.utf8ByteSize < b.utf8ByteSize ∨ a.utf8ByteSize = b.utf8ByteSize ∧ a ≤ b

instance (a b : String) : Decidable (NameLE a b) :=
  inferInstanceAs (Decidable (a.utf8ByteSize < b.utf8ByteSize ∨ a.utf8ByteSize = b.utf8ByteSize ∧ a ≤ b))

/-- Members in the order of their names. -/
def inColumnOrder {α : Type*} (ms : List (String × α)) : List (String × α) :=
  ms.insertionSort fun m m' => NameLE m.1 m'.1

mutual

/-- What comes back for a value. -/
def Loaded.column : Loaded → Loaded
  | .null => .null
  | .bool b => .bool b
  | .int n => .int n
  | .float x => x.column
  | .string s => .string s
  | .list vs => .list (columnItems vs)
  | .dict ms => .dict (inColumnOrder (columnMembers ms))

/-- What comes back for every item. -/
def columnItems : List Loaded → List Loaded
  | [] => []
  | v :: vs => v.column :: columnItems vs

/-- What comes back for every member. -/
def columnMembers : List (String × Loaded) → List (String × Loaded)
  | [] => []
  | (k, v) :: ms => (k, v.column) :: columnMembers ms

end

/-- What comes back for the members of an object. -/
def Body.column (body : Body) : Body := inColumnOrder (columnMembers body)

/-- `1e22`. -/
def sampleFloat : ShortFloat where
  negative := false
  digits := ['1']
  point := 23
  isDigits := rfl
  short := by decide
  leading := .inl ⟨'1', rfl, by decide⟩

example : String.ofList ((Loaded.dict [("b", .float sampleFloat), ("aa", .string "it's")]).repr fun _ => true) =
    "\x7b'b': 1e+22, 'aa': \"it's\"\x7d" := by decide +kernel
example : String.ofList (((Loaded.dict [("aa", .null), ("b", .float sampleFloat)]).column).repr fun _ => true) =
    "\x7b'b': 10000000000000000000000, 'aa': None\x7d" := by decide +kernel

/-! ### What comes back under a name -/

theorem lookup_orderedInsert {α : Type*} (m : String × α) (ms : List (String × α)) (k : String) :
    (ms.orderedInsert (fun m m' => NameLE m.1 m'.1) m).lookup k = (m :: ms).lookup k := by
  induction ms with
  | nil => rfl
  | cons m' ms ih =>
    rw [List.orderedInsert_cons]
    split_ifs with hle
    · rfl
    · -- what is passed has another name
      have hne : m'.1 ≠ m.1 := fun h => hle (.inr ⟨by rw [h], h ▸ String.le_refl _⟩)
      rw [List.lookup_cons, ih, List.lookup_cons, List.lookup_cons, List.lookup_cons]
      by_cases hk : k = m'.1
      · rw [beq_iff_eq.mpr hk, beq_eq_false_iff_ne.mpr (hk ▸ hne)]
      · rw [beq_eq_false_iff_ne.mpr hk]

/-- A member keeps its name. -/
theorem lookup_inColumnOrder {α : Type*} (ms : List (String × α)) (k : String) :
    (inColumnOrder ms).lookup k = ms.lookup k := by
  induction ms with
  | nil => rfl
  | cons m ms ih =>
    show (List.orderedInsert _ m (inColumnOrder ms)).lookup k = _
    rw [lookup_orderedInsert, List.lookup_cons, List.lookup_cons, ih]

theorem lookup_columnMembers (ms : List (String × Loaded)) (k : String) :
    (columnMembers ms).lookup k = (ms.lookup k).map Loaded.column := by
  induction ms with
  | nil => rfl
  | cons m ms ih =>
    obtain ⟨name, v⟩ := m
    rw [columnMembers, List.lookup_cons, List.lookup_cons, ih]
    cases k == name <;> rfl

/-- **What comes back under a name** is what the column makes of the member. -/
theorem Body.lookup_column (body : Body) (k : String) : body.column.lookup k = (body.lookup k).map Loaded.column := by
  unfold Body.column
  rw [lookup_inColumnOrder, lookup_columnMembers]

section

variable {printable : Char → Bool}

theorem Body.lookup_seen (body : Body) (k : String) :
    (body.seen printable).lookup k = (body.lookup k).map (Loaded.seen printable) := by
  induction body with
  | nil => rfl
  | cons m ms ih =>
    show List.lookup k ((m.1, m.2.seen printable) :: Body.seen printable ms) = _
    rw [List.lookup_cons, List.lookup_cons, ih]
    cases k == m.1 <;> rfl

/-- `str(body.get(name, default))`. -/
theorem Body.getStr_seen (body : Body) (k : String) (default : Loaded) :
    (body.seen printable).getStr k (default.seen printable) = (((body.lookup k).getD default).seen printable).str := by
  rw [Payload.getStr, Body.lookup_seen]
  cases body.lookup k <;> rfl

/-! ### Blank texts -/

/-- The value is a string. -/
def Loaded.IsString (v : Loaded) : Prop := ∃ s, v = .string s

theorem isSpace_of_isDigit {c : Char} (h : c.isDigit = true) : isSpace c = false := by
  have hbounds := Char.isDigit_iff_toNat.mp h
  simp only [Char.reduceToNat] at hbounds
  simp only [isSpace, decide_eq_false_iff_not]
  omega

/-- The text of a float begins with a sign or a digit. -/
theorem ShortFloat.head_repr (x : ShortFloat) : ∃ c ∈ x.repr.head?, isSpace c = false := by
  obtain ⟨d, ds, hds⟩ : ∃ d ds, x.digits = d :: ds := by
    rcases x.leading with ⟨d, hd, -⟩ | ⟨h, -⟩
    · obtain ⟨ds, hds⟩ := List.head?_eq_some_iff.mp hd
      exact ⟨d, ds, hds⟩
    · exact ⟨'0', [], h⟩
  have hdigit : isSpace d = false := isSpace_of_isDigit (List.all_eq_true.mp x.isDigits d (by rw [hds]; exact .head _))
  unfold ShortFloat.repr
  split_ifs
  · exact ⟨'-', rfl, by decide⟩
  · unfold ShortFloat.magnitude
    rw [hds]
    split_ifs with hexp hone hlow hwhole
    · exact ⟨d, rfl, hdigit⟩
    · exact ⟨d, rfl, hdigit⟩
    · exact ⟨'0', rfl, by decide⟩
    · exact ⟨d, rfl, hdigit⟩
    · -- the point is behind the first digit
      obtain ⟨n, hn⟩ : ∃ n, x.point.toNat = n + 1 := ⟨x.point.toNat - 1, by omega⟩
      exact ⟨d, by rw [hn]; rfl, hdigit⟩

theorem head_intText (n : ℤ) : ∃ c ∈ (intText n).head?, isSpace c = false := by
  cases n with
  | ofNat n =>
    obtain ⟨c, cs, hcs⟩ := List.exists_cons_of_ne_nil (Nat.toDigits_ne_nil (n := n) (b := 10))
    refine ⟨c, by rw [intText, hcs]; rfl, isSpace_of_isDigit (isDigit_of_mem_toDigits (n := n) ?_)⟩
    rw [hcs]
    exact .head _
  | negSucc n => exact ⟨'-', rfl, by decide⟩

/-- The text of a value. -/
def Loaded.text (printable : Char → Bool) (v : Loaded) : List Char := (v.seen printable).str.toList

/-- The text of what is no string begins with no blank. -/
theorem Loaded.head_text {v : Loaded} (h : ¬ v.IsString) : ∃ c ∈ (v.text printable).head?, isSpace c = false := by
  have hofList (cs : List Char) : (String.ofList cs).toList = cs := String.toList_ofList
  cases v with
  | null =>
    show ∃ c ∈ "None".toList.head?, isSpace c = false
    exact ⟨'N', by decide +kernel, by decide⟩
  | bool b =>
    cases b with
    | true =>
      show ∃ c ∈ "True".toList.head?, isSpace c = false
      exact ⟨'T', by decide +kernel, by decide⟩
    | false =>
      show ∃ c ∈ "False".toList.head?, isSpace c = false
      exact ⟨'F', by decide +kernel, by decide⟩
  | int n =>
    show ∃ c ∈ (String.ofList (intText n)).toList.head?, _
    rw [hofList]
    exact head_intText n
  | float x =>
    show ∃ c ∈ (String.ofList x.repr).toList.head?, _
    rw [hofList]
    exact x.head_repr
  | string s => exact absurd ⟨s, rfl⟩ h
  | list vs =>
    show ∃ c ∈ (String.ofList (Loaded.repr printable (.list vs))).toList.head?, _
    rw [hofList]
    exact ⟨'[', rfl, by decide⟩
  | dict ms =>
    show ∃ c ∈ (String.ofList (Loaded.repr printable (.dict ms))).toList.head?, _
    rw [hofList]
    exact ⟨'{', rfl, by decide⟩

/-- **A blank text is a string's.** -/
theorem Loaded.isString_of_blank {v : Loaded} (h : Blank (v.text printable)) : v.IsString := by
  by_contra hv
  obtain ⟨c, hc, hspace⟩ := Loaded.head_text hv
  rw [h c (List.mem_of_mem_head? hc)] at hspace
  exact Bool.noConfusion hspace

/-- A string comes back as a string, and nothing else does. -/
theorem Loaded.isString_column {v : Loaded} : v.column.IsString ↔ v.IsString := by
  constructor
  · rintro ⟨s, hs⟩
    cases v with
    | string s' => exact ⟨s', rfl⟩
    | null => simp [Loaded.column] at hs
    | bool b => simp [Loaded.column] at hs
    | int n => simp [Loaded.column] at hs
    | float x =>
      unfold Loaded.column ShortFloat.column at hs
      split_ifs at hs
    | list vs => simp [Loaded.column] at hs
    | dict ms => simp [Loaded.column] at hs
  · rintro ⟨s, rfl⟩
    exact ⟨s, rfl⟩

@[simp] theorem Loaded.column_string (s : String) : (Loaded.string s).column = .string s := rfl

end

end StratTrader.Foundation
