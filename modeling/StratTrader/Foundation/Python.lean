import Mathlib.Algebra.Order.Ring.Rat
import Mathlib.Data.Int.Log
import Mathlib.Data.List.TakeWhile
import Mathlib.Data.Rat.Floor

/-!
# Values of a JSON body in Python

What the code sees of a decoded JSON object: the text `str` makes of a value, whether the
value counts as true, and what `decimal.Decimal` makes of a text.

## Honest scope

A number is kept as the text `str` writes for it, and an array or object as the text and
whether it is empty: nothing looks inside them. A string is a list of Unicode scalar
values, so lone surrogates are out. The decimal digits are those of Unicode 15.0, and a numeral
has no more of them than the memory holds.
-/

namespace StratTrader.Foundation

/-- A value of a decoded JSON object. -/
inductive Json where
  /-- `None`. -/
  | null
  /-- `True` or `False`. -/
  | bool (b : Bool)
  /-- An `int` or `float`, as `str` writes it. -/
  | number (text : String)
  /-- A `str`. -/
  | string (s : String)
  /-- A `list` or `dict`, as `str` writes it. -/
  | container (text : String) (isEmpty : Bool)
  deriving DecidableEq

/-- A decoded JSON object: its members, no two with the same name. -/
abbrev Payload := List (String × Json)

namespace Json

/-- `str`. -/
def str : Json → String
  | null => "None"
  | bool true => "True"
  | bool false => "False"
  | number text => text
  | string s => s
  | container text _ => text

/-- `bool`. -/
def truthy : Json → Bool
  | null => false
  | bool b => b
  | number text => decide (text ∉ ["0", "0.0", "-0.0"])
  | string s => decide (s ≠ "")
  | container _ isEmpty => !isEmpty

end Json

/-- `str(body.get(name, default))`. -/
def Payload.getStr (body : Payload) (name : String) (default : Json) : String :=
  ((body.lookup name).getD default).str

/-- `body.get(name)` as a condition. -/
def Payload.truthy (body : Payload) (name : String) : Bool := ((body.lookup name).getD .null).truthy

/-! ### Texts -/

/-- `str.isspace` of a character. -/
def isSpace (c : Char) : Bool :=
  let n := c.toNat
  decide ((9 ≤ n ∧ n ≤ 13) ∨ (28 ≤ n ∧ n ≤ 32) ∨ n = 0x85 ∨ n = 0xA0 ∨ n = 0x1680 ∨
    (0x2000 ≤ n ∧ n ≤ 0x200A) ∨ n = 0x2028 ∨ n = 0x2029 ∨ n = 0x202F ∨ n = 0x205F ∨ n = 0x3000)

/-- `str.strip`, of the characters. -/
def stripChars (cs : List Char) : List Char :=
  (((cs.dropWhile isSpace).reverse).dropWhile isSpace).reverse

/-- `str.strip`. -/
def strip (s : String) : String := String.ofList (stripChars s.toList)

/-- `s[:n]`. -/
def truncate (s : String) (n : ℕ) : String := String.ofList (s.toList.take n)

/-- Whether `encode("ascii")` does not raise. -/
def isAscii (s : String) : Bool := s.toList.all fun c => decide (c.toNat < 128)

/-- `s.split(",")[0].strip()`. -/
def firstHop (s : String) : String := strip (String.ofList (s.toList.takeWhile fun c => decide (c ≠ ',')))

/-! ### What `strip` leaves -/

/-- The characters are all blanks. -/
def Blank (cs : List Char) : Prop := ∀ c ∈ cs, isSpace c = true

/-- No blank stands at either end. -/
def Trimmed (cs : List Char) : Prop :=
  (∀ c ∈ cs.head?, isSpace c = false) ∧ ∀ c ∈ cs.getLast?, isSpace c = false

theorem dropWhile_isSpace_of_head {cs : List Char} (h : ∀ c ∈ cs.head?, isSpace c = false) :
    cs.dropWhile isSpace = cs := by
  cases cs with
  | nil => rfl
  | cons c cs => rw [List.dropWhile_cons_of_neg (by simp [h c rfl])]

theorem head_dropWhile_isSpace (cs : List Char) :
    ∀ c ∈ (cs.dropWhile isSpace).head?, isSpace c = false := by
  intro c hc
  have := List.head?_dropWhile_not isSpace cs
  rw [Option.mem_def] at hc
  rw [hc] at this
  simpa using this

/-- `strip` takes off the blanks around a text that begins and ends with none. -/
theorem stripChars_append {l core r : List Char} (hl : Blank l) (hr : Blank r) (hcore : Trimmed core)
    (hne : core ≠ []) : stripChars (l ++ core ++ r) = core := by
  unfold stripChars
  have hfront : (l ++ core ++ r).dropWhile isSpace = core ++ r := by
    rw [List.append_assoc, List.dropWhile_append_of_pos hl]
    refine dropWhile_isSpace_of_head fun c hc => hcore.1 c ?_
    obtain ⟨d, ds, rfl⟩ := List.exists_cons_of_ne_nil hne
    exact hc
  have hback : (r.reverse ++ core.reverse).dropWhile isSpace = core.reverse := by
    rw [List.dropWhile_append_of_pos fun c hc => hr c (List.mem_reverse.mp hc)]
    refine dropWhile_isSpace_of_head fun c hc => hcore.2 c ?_
    rwa [List.head?_reverse] at hc
  rw [hfront, List.reverse_append, hback, List.reverse_reverse]

/-- What `strip` takes off are blanks, and it leaves none at the ends. -/
theorem stripChars_spec (cs : List Char) :
    ∃ l r, Blank l ∧ Blank r ∧ cs = l ++ stripChars cs ++ r ∧ Trimmed (stripChars cs) := by
  refine ⟨cs.takeWhile isSpace, ((cs.dropWhile isSpace).reverse.takeWhile isSpace).reverse,
    fun c hc => List.mem_takeWhile_imp hc, fun c hc => List.mem_takeWhile_imp (List.mem_reverse.mp hc), ?_, ?_, ?_⟩
  · unfold stripChars
    rw [List.append_assoc, ← List.reverse_append, List.takeWhile_append_dropWhile, List.reverse_reverse,
      List.takeWhile_append_dropWhile]
  · unfold stripChars
    intro c hc
    -- the end is stripped of what begins with no blank, so its head stays
    apply head_dropWhile_isSpace cs c
    have hsplit := congrArg List.reverse
      (List.takeWhile_append_dropWhile (p := isSpace) (l := (cs.dropWhile isSpace).reverse))
    rw [List.reverse_append, List.reverse_reverse] at hsplit
    rw [← hsplit]
    rw [List.head?_append, Option.mem_def.mp hc]
    rfl
  · unfold stripChars
    rw [List.getLast?_reverse]
    exact head_dropWhile_isSpace _

/-- Nothing is left exactly of blanks. -/
theorem stripChars_eq_nil {cs : List Char} : stripChars cs = [] ↔ Blank cs := by
  constructor
  · intro h
    obtain ⟨l, r, hl, hr, heq, -⟩ := stripChars_spec cs
    rw [h, List.append_nil] at heq
    rw [heq]
    exact fun c hc => (List.mem_append.mp hc).elim (hl c) (hr c)
  · intro h
    unfold stripChars
    rw [List.dropWhile_eq_nil_iff.mpr h]
    rfl

/-! ### Decimals -/

/-- `decimal.Decimal`. -/
inductive Decimal where
  /-- A finite number. -/
  | finite (value : ℚ)
  /-- An infinity or a NaN. -/
  | nonFinite
  deriving DecidableEq

namespace Decimal

/-- The number that ASCII digits write. -/
def natOf (digits : List Char) : ℕ := digits.foldl (fun n c => 10 * n + (c.toNat - '0'.toNat)) 0

/-- The sign, and what follows it. -/
def signOf : List Char → Bool × List Char
  | '-' :: cs => (true, cs)
  | '+' :: cs => (false, cs)
  | cs => (false, cs)

/-- The exponent part: nothing, or `e` and a signed number. -/
def exponentOf : List Char → Option ℤ
  | [] => some 0
  | c :: cs =>
    let (negative, digits) := signOf cs
    if (c = 'e' ∨ c = 'E') ∧ digits ≠ [] ∧ digits.all Char.isDigit then
      some (if negative then -(natOf digits : ℤ) else natOf digits)
    else none

/-- `n * 10^e`. -/
def scale (n : ℕ) : ℤ → ℚ
  | .ofNat e => n * 10 ^ e
  | .negSucc e => n / 10 ^ (e + 1)

/-- The coefficient and the exponent of an unsigned numeral: digits with an optional point, and an
exponent part. -/
def partsOf (cs : List Char) : Option (ℕ × ℤ) :=
  let (whole, rest) := cs.span Char.isDigit
  let (fraction, rest) := match rest with
    | '.' :: rest => rest.span Char.isDigit
    | rest => ([], rest)
  if whole = [] ∧ fraction = [] then none
  else (exponentOf rest).map fun e => (natOf (whole ++ fraction), e - fraction.length)

/-- The value of an unsigned numeral. -/
def numeralOf (cs : List Char) : Option ℚ := (partsOf cs).map fun p => scale p.1 p.2

/-- The exponent is not below `MIN_ETINY`, and that of the first digit not above `MAX_EMAX`. -/
def inRange (coefficient : ℕ) (exponent : ℤ) : Bool :=
  decide (-1999999999999999997 ≤ exponent ∧
    exponent + (Nat.toDigits 10 coefficient).length - 1 ≤ 999999999999999999)

/-- Whether the text, in lower case, is one of the special values. -/
def isSpecial (cs : List Char) : Bool :=
  decide (cs = "inf".toList ∨ cs = "infinity".toList) ||
    (decide (cs.take 3 = "nan".toList) && (cs.drop 3).all Char.isDigit) ||
    (decide (cs.take 4 = "snan".toList) && (cs.drop 4).all Char.isDigit)

/-- The zeros of the decimal digits that are not ASCII. -/
def zeros : List ℕ :=
  [0x660, 0x6F0, 0x7C0, 0x966, 0x9E6, 0xA66, 0xAE6, 0xB66, 0xBE6, 0xC66, 0xCE6, 0xD66, 0xDE6, 0xE50, 0xED0, 0xF20,
    0x1040, 0x1090, 0x17E0, 0x1810, 0x1946, 0x19D0, 0x1A80, 0x1A90, 0x1B50, 0x1BB0, 0x1C40, 0x1C50, 0xA620, 0xA8D0,
    0xA900, 0xA9D0, 0xA9F0, 0xAA50, 0xABF0, 0xFF10, 0x104A0, 0x10D30, 0x11066, 0x110F0, 0x11136, 0x111D0, 0x112F0,
    0x11450, 0x114D0, 0x11650, 0x116C0, 0x11730, 0x118E0, 0x11950, 0x11C50, 0x11D50, 0x11DA0, 0x11F50, 0x16A60,
    0x16AC0, 0x16B50, 0x1D7CE, 0x1D7D8, 0x1D7E2, 0x1D7EC, 0x1D7F6, 0x1E140, 0x1E2F0, 0x1E4F0, 0x1E950, 0x1FBF0]

/-- A decimal digit as the ASCII digit. -/
def toAscii (c : Char) : Char :=
  let n := c.toNat
  if n < 128 then c
  else match zeros.find? fun first => decide (first ≤ n ∧ n < first + 10) with
    | some first => Char.ofNat ('0'.toNat + (n - first))
    | none => c

/-- The text that is read: without the blanks around it and without underscores. -/
def asciiOf (s : String) : List Char := ((stripChars s.toList).filter fun c => decide (c ≠ '_')).map toAscii

/-- `Decimal(s)`: `none` is `InvalidOperation`. -/
def ofText (s : String) : Option Decimal :=
  let (negative, cs) := signOf (asciiOf s)
  if isSpecial (cs.map Char.toLower) then some .nonFinite
  else match partsOf cs with
    | none => none
    | some (coefficient, exponent) =>
      if inRange coefficient exponent then
        some (.finite (if negative then -scale coefficient exponent else scale coefficient exponent))
      else none

/-- The value if it is finite and positive. -/
def positive? : Decimal → Option ℚ
  | finite q => if 0 < q then some q else none
  | nonFinite => none

/-- To the nearest integer, and to the even one of two. -/
def roundHalfEven (q : ℚ) : ℤ :=
  let below := ⌊q⌋
  let rest := q - below
  if rest < 1 / 2 ∨ (rest = 1 / 2 ∧ below % 2 = 0) then below else below + 1

/-- The result of an operation in the default context: 28 digits. -/
def round28 (q : ℚ) : ℚ :=
  if q = 0 then 0
  else
    let unit : ℚ := 10 ^ (Int.log 10 |q| - 27)
    roundHalfEven (q / unit) * unit

example : ofText " -1_0.50e1 " = some (.finite (-105)) := by decide +kernel
example : ofText "1.5e-2" = some (.finite (3 / 200)) := by decide +kernel
example : ofText "NaN" = some .nonFinite := by decide +kernel
example : ofText "None" = none := by decide +kernel
example : ofText "１２" = some (.finite 12) := by decide +kernel
example : ofText "1e1000000000000000000" = none := by decide +kernel
example : round28 (-2 / 3) = -6666666666666666666666666667 / 10 ^ 28 := by decide +kernel

end Decimal

end StratTrader.Foundation
