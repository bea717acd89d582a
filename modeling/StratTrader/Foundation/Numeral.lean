import StratTrader.Foundation.Python

/-!
# Decimals and their texts

`decimal.Decimal` keeps the digits and the exponent it was read with, and `str` writes them: the
same number may have several texts. `Decimal` of `Foundation.Python` is the number alone.

## What is proved

* `ofText_number`: a text that is read has the number that is read.
-/

namespace StratTrader.Foundation

/-- The sign, the digits and the exponent of a finite `decimal.Decimal`. -/
structure Numeral where
  /-- `_sign`. -/
  negative : Bool
  /-- `_int`. -/
  coefficient : ℕ
  /-- `_exp`. -/
  exponent : ℤ
  deriving DecidableEq

namespace Numeral

/-- The number. -/
def value (n : Numeral) : ℚ :=
  let magnitude := Decimal.scale n.coefficient n.exponent
  if n.negative then -magnitude else magnitude

/-- `Decimal("0")`. -/
def zero : Numeral := ⟨false, 0, 0⟩

/-- `"%+d"`. -/
def signedText (e : ℤ) : List Char :=
  if 0 ≤ e then '+' :: Nat.toDigits 10 e.toNat else '-' :: Nat.toDigits 10 (-e).toNat

/-- `str`. -/
def str (n : Numeral) : String :=
  let digits := Nat.toDigits 10 n.coefficient
  let left := n.exponent + digits.length
  let point := if n.exponent ≤ 0 ∧ -6 < left then left else 1
  let mantissa :=
    if point ≤ 0 then '0' :: '.' :: (List.replicate (-point).toNat '0' ++ digits)
    else if digits.length ≤ point then digits ++ List.replicate (point - digits.length).toNat '0'
    else digits.take point.toNat ++ '.' :: digits.drop point.toNat
  let exponent := if left = point then [] else 'E' :: signedText (left - point)
  String.ofList ((if n.negative then ['-'] else []) ++ mantissa ++ exponent)

end Numeral

/-- A finite `decimal.Decimal`: its exponent is in the range of the module. -/
abbrev FiniteDecimal := { n : Numeral // Decimal.inRange n.coefficient n.exponent = true }

namespace Numeral

/-- What `Decimal` makes of a text. -/
inductive Read where
  /-- `InvalidOperation`. -/
  | invalid
  /-- An infinity or a NaN. -/
  | nonFinite
  /-- A finite number. -/
  | finite (n : FiniteDecimal)
  deriving DecidableEq

/-- `Decimal(s)`. -/
def ofText (s : String) : Read :=
  let (negative, cs) := Decimal.signOf (Decimal.asciiOf s)
  if Decimal.isSpecial (cs.map Char.toLower) then .nonFinite
  else match Decimal.partsOf cs with
    | none => .invalid
    | some (coefficient, exponent) =>
      if h : Decimal.inRange coefficient exponent = true then .finite ⟨⟨negative, coefficient, exponent⟩, h⟩
      else .invalid

/-- The number that is read. -/
def Read.number : Read → Option Decimal
  | invalid => none
  | nonFinite => some .nonFinite
  | finite n => some (.finite n.1.value)

/-- **A text that is read has the number that is read.** -/
theorem ofText_number (s : String) : (ofText s).number = Decimal.ofText s := by
  unfold ofText Decimal.ofText
  cases Decimal.signOf (Decimal.asciiOf s) with
  | mk negative cs =>
    dsimp only
    by_cases hspecial : Decimal.isSpecial (cs.map Char.toLower) = true
    · rw [if_pos hspecial, if_pos hspecial]
      rfl
    · rw [if_neg hspecial, if_neg hspecial]
      cases Decimal.partsOf cs with
      | none => rfl
      | some p =>
        dsimp only
        by_cases hrange : Decimal.inRange p.1 p.2 = true
        · rw [dif_pos hrange, if_pos hrange]
          rfl
        · rw [dif_neg hrange, if_neg hrange]
          rfl

example : (Numeral.mk false 100 (-1)).str = "10.0" := by decide +kernel
example : (Numeral.mk true 1 (-8)).str = "-1E-8" := by decide +kernel
example : (Numeral.mk false 12 3).str = "1.2E+4" := by decide +kernel
example : ofText "10.0" = .finite ⟨⟨false, 100, -1⟩, by decide +kernel⟩ := by decide +kernel

end Numeral

end StratTrader.Foundation
