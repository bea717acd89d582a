import StratTrader.Foundation.Numeral
import StratTrader.Foundation.FloatText

/-!
# Reading back the text of a decimal

`str` of a finite `decimal.Decimal` writes its digits, with a point where the exponent allows one and
with an exponent part where it does not.

## What is proved

* `partsOf_str`: the text, without its sign, has the digits and the exponent of the decimal.
* `str_inj`: the text tells the sign, the digits and the exponent.
* `ofText_str`: `Decimal(str(x))` is `x`: the same sign, the same digits, the same exponent.

## Honest scope

An infinity or a NaN is only the text that is written for it, and nothing is proved of its text.
-/

namespace StratTrader.Foundation

open Decimal (natOf exponentOf signOf isSpecial partsOf toAscii asciiOf)

namespace Numeral

/-! ### The parts of a text -/

/-- An exponent part does not go on with the digits before it. -/
def Suffix (cs : List Char) : Prop := ∀ c ∈ cs.head?, c.isDigit = false ∧ c ≠ '.'

/-- What `str` writes behind the digits. -/
def exponentPart (e : ℤ) : List Char := if e = 0 then [] else 'E' :: signedText e

theorem suffix_exponentPart (e : ℤ) : Suffix (exponentPart e) := by
  unfold exponentPart
  split_ifs with hzero
  · exact nofun
  · intro c hc
    cases hc
    decide

theorem signOf_of_digit {c : Char} (hc : c.isDigit = true) (cs : List Char) : signOf (c :: cs) = (false, c :: cs) := by
  unfold signOf
  split
  · next h => rw [(List.cons.inj h).1] at hc; exact absurd hc (by decide)
  · next h => rw [(List.cons.inj h).1] at hc; exact absurd hc (by decide)
  · rfl

theorem all_isDigit_toDigits (n : ℕ) : (Nat.toDigits 10 n).all Char.isDigit = true :=
  List.all_eq_true.mpr fun _ hc => Nat.isDigit_of_mem_toDigits (by decide) (by decide) hc

/-- The exponent is read back. -/
theorem exponentOf_exponentPart (e : ℤ) : exponentOf (exponentPart e) = some e := by
  unfold exponentPart
  split_ifs with hzero
  · rw [hzero]
    rfl
  · have hdigits : ∀ n, Nat.toDigits 10 n ≠ [] ∧ (Nat.toDigits 10 n).all Char.isDigit = true := fun n =>
      ⟨Nat.toDigits_ne_nil, all_isDigit_toDigits n⟩
    unfold signedText
    split_ifs with hsign
    · have hread : exponentOf ('E' :: '+' :: Nat.toDigits 10 e.toNat) =
          some ((natOf (Nat.toDigits 10 e.toNat) : ℕ) : ℤ) := if_pos ⟨.inr rfl, hdigits _⟩
      rw [hread, natOf_toDigits, Int.toNat_of_nonneg hsign]
    · have hread : exponentOf ('E' :: '-' :: Nat.toDigits 10 (-e).toNat) =
          some (-((natOf (Nat.toDigits 10 (-e).toNat) : ℕ) : ℤ)) := if_pos ⟨.inr rfl, hdigits _⟩
      rw [hread, natOf_toDigits, Int.toNat_of_nonneg (by omega), neg_neg]

theorem partsOf_whole {whole suffix : List Char} (hwhole : ∀ c ∈ whole, c.isDigit = true) (hne : whole ≠ [])
    (hsuffix : Suffix suffix) :
    partsOf (whole ++ suffix) = (exponentOf suffix).map fun e => (natOf whole, e) := by
  have hspan := span_isDigit hwhole fun c hc => (hsuffix c hc).1
  unfold partsOf
  rw [hspan]
  dsimp only
  split
  · next h => exact absurd rfl (hsuffix _ rfl).2
  · next h => simp [hne]

theorem partsOf_pointed {whole fraction suffix : List Char} (hwhole : ∀ c ∈ whole, c.isDigit = true) (hne : whole ≠ [])
    (hfraction : ∀ c ∈ fraction, c.isDigit = true) (hsuffix : Suffix suffix) :
    partsOf (whole ++ '.' :: (fraction ++ suffix)) =
      (exponentOf suffix).map fun e : ℤ => (natOf (whole ++ fraction), e - fraction.length) := by
  have hspan := span_isDigit hwhole (r := '.' :: (fraction ++ suffix)) fun c hc => by cases hc; rfl
  have hspan' := span_isDigit hfraction fun c hc => (hsuffix c hc).1
  unfold partsOf
  rw [hspan]
  simp only [hspan', hne, false_and, if_false]

/-! ### The text of a decimal -/

/-- A character of the text of a decimal. -/
def InText (c : Char) : Prop := c.isDigit = true ∨ c ∈ ['.', '+', '-', 'E']

theorem inText_exponentPart {e : ℤ} : ∀ c ∈ exponentPart e, InText c := by
  have hdigits : ∀ n, ∀ c ∈ Nat.toDigits 10 n, InText c := fun n c hc =>
    .inl (Nat.isDigit_of_mem_toDigits (by decide) (by decide) hc)
  unfold exponentPart signedText
  intro c hc
  split_ifs at hc
  · exact nomatch hc
  · rcases List.mem_cons.mp hc with rfl | hc
    · exact .inr (by decide)
    · rcases List.mem_cons.mp hc with rfl | hc
      · exact .inr (by decide)
      · exact hdigits _ c hc
  · rcases List.mem_cons.mp hc with rfl | hc
    · exact .inr (by decide)
    · rcases List.mem_cons.mp hc with rfl | hc
      · exact .inr (by decide)
      · exact hdigits _ c hc

/-- **The text begins, behind its sign, with a digit, and has the digits and the exponent of the decimal.** -/
theorem partsOf_str (n : Numeral) :
    ∃ whole rest, n.str = String.ofList ((if n.negative then ['-'] else []) ++ (whole ++ rest)) ∧
      whole ≠ [] ∧ (∀ c ∈ whole, c.isDigit = true) ∧ (∀ c ∈ rest, InText c) ∧
      partsOf (whole ++ rest) = some (n.coefficient, n.exponent) := by
  obtain ⟨digits, hdigits⟩ : ∃ ds, Nat.toDigits 10 n.coefficient = ds := ⟨_, rfl⟩
  obtain ⟨left, hleft⟩ : ∃ l : ℤ, n.exponent + digits.length = l := ⟨_, rfl⟩
  obtain ⟨point, hpoint⟩ : ∃ p, (if n.exponent ≤ 0 ∧ -6 < left then left else 1) = p := ⟨_, rfl⟩
  have hall : ∀ c ∈ digits, c.isDigit = true := fun c hc =>
    Nat.isDigit_of_mem_toDigits (by decide) (by decide) (hdigits ▸ hc)
  have hne : digits ≠ [] := hdigits ▸ Nat.toDigits_ne_nil
  have hvalue : natOf digits = n.coefficient := hdigits ▸ natOf_toDigits _
  have hsuffix : (if left = point then [] else 'E' :: signedText (left - point)) = exponentPart (left - point) :=
    if_congr sub_eq_zero.symm rfl rfl
  -- no zeros are ever written between the digits and the exponent part
  have hle : point ≤ digits.length := by
    have hpos := List.length_pos_iff.mpr hne
    split_ifs at hpoint
    · omega
    · omega
  unfold str
  rw [hdigits]
  dsimp only
  rw [hleft, hpoint, hsuffix]
  by_cases hlow : point ≤ 0
  · have hzeros : ∀ c ∈ List.replicate (-point).toNat '0' ++ digits, c.isDigit = true := fun c hc =>
      (List.mem_append.mp hc).elim (fun hc => by rw [List.eq_of_mem_replicate hc]; rfl) (hall c)
    refine ⟨['0'], '.' :: ((List.replicate (-point).toNat '0' ++ digits) ++ exponentPart (left - point)), ?_,
      List.cons_ne_nil _ _, by decide, ?_, ?_⟩
    · rw [if_pos hlow, List.append_assoc]
      rfl
    · intro c hc
      rcases List.mem_cons.mp hc with rfl | hc
      · exact .inr (by decide)
      · exact (List.mem_append.mp hc).elim (fun hc => .inl (hzeros c hc)) (inText_exponentPart c)
    · have hnat : natOf (['0'] ++ (List.replicate (-point).toNat '0' ++ digits)) = natOf digits :=
        natOf_replicate_append ((-point).toNat + 1) digits
      have hzero : ∀ c ∈ ['0'], c.isDigit = true := by decide
      rw [partsOf_pointed hzero (List.cons_ne_nil _ _) hzeros (suffix_exponentPart _), exponentOf_exponentPart,
        Option.map_some, hnat, hvalue, List.length_append, List.length_replicate]
      congr 2
      omega
  · by_cases hhigh : digits.length ≤ point
    · have hnone : (point - digits.length).toNat = 0 := by omega
      refine ⟨digits, exponentPart (left - point), ?_, hne, hall, inText_exponentPart, ?_⟩
      · rw [if_neg hlow, if_pos hhigh, hnone, List.replicate_zero, List.append_nil, List.append_assoc]
      · rw [partsOf_whole hall hne (suffix_exponentPart _), exponentOf_exponentPart, Option.map_some, hvalue]
        congr 2
        omega
    · have htake : ∀ c ∈ digits.take point.toNat, c.isDigit = true := fun c hc => hall c (List.mem_of_mem_take hc)
      have hdrop : ∀ c ∈ digits.drop point.toNat, c.isDigit = true := fun c hc => hall c (List.mem_of_mem_drop hc)
      have hnil : digits.take point.toNat ≠ [] := fun h =>
        (List.take_eq_nil_iff.mp h).elim (fun h => by omega) hne
      refine ⟨digits.take point.toNat, '.' :: (digits.drop point.toNat ++ exponentPart (left - point)), ?_, hnil, htake,
        ?_, ?_⟩
      · rw [if_neg hlow, if_neg hhigh, List.append_assoc, List.append_assoc]
        rfl
      · intro c hc
        rcases List.mem_cons.mp hc with rfl | hc
        · exact .inr (by decide)
        · exact (List.mem_append.mp hc).elim (fun hc => .inl (hdrop c hc)) (inText_exponentPart c)
      · rw [partsOf_pointed htake hnil hdrop (suffix_exponentPart _), exponentOf_exponentPart, Option.map_some,
          List.take_append_drop, hvalue, List.length_drop]
        congr 2
        omega

/-! ### Reading it -/

theorem InText.plain {c : Char} (h : InText c) : isSpace c = false ∧ c ≠ '_' := by
  rcases h with hdigit | hmem
  · have hbounds := Char.isDigit_iff_toNat.mp hdigit
    simp only [Char.reduceToNat] at hbounds
    refine ⟨?_, fun h => ?_⟩
    · unfold isSpace
      dsimp only
      rw [decide_eq_false_iff_not]
      omega
    · rw [h] at hdigit
      exact absurd hdigit (by decide)
  · have hall : ∀ c ∈ ['.', '+', '-', 'E'], isSpace c = false ∧ c ≠ '_' := by decide
    exact hall c hmem

/-- `strip` leaves a text without blanks as it is. -/
theorem stripChars_of_no_space {cs : List Char} (h : ∀ c ∈ cs, isSpace c = false) : stripChars cs = cs := by
  unfold stripChars
  rw [dropWhile_isSpace_of_head fun c hc => h c (List.mem_of_mem_head? hc),
    dropWhile_isSpace_of_head fun c hc => h c (List.mem_reverse.mp (List.mem_of_mem_head? hc)), List.reverse_reverse]

/-- What begins with a digit is no infinity and no NaN. -/
theorem isSpecial_of_digit {c : Char} (hc : c.isDigit = true) (cs : List Char) :
    isSpecial ((c :: cs).map Char.toLower) = false := by
  have hne : ∀ d : Char, d.isDigit = false → c ≠ d := fun d hd h => Bool.false_ne_true (hd.symm.trans (h ▸ hc))
  have hlower : c.toLower = c := by
    have hbounds := Char.isDigit_iff_toNat.mp hc
    refine dif_neg fun hupper => ?_
    have hlow : 'A'.toNat ≤ c.toNat := hupper.1
    simp only [Char.reduceToNat] at hbounds hlow
    omega
  rw [List.map_cons, hlower]
  simp [isSpecial, hne 'i' (by decide), hne 'n' (by decide), hne 's' (by decide)]

/-- ASCII characters are read as they are. -/
theorem InText.toAscii {c : Char} (h : InText c) : toAscii c = c := by
  have hlow : c.toNat < 128 := by
    rcases h with hdigit | hmem
    · have hbounds := Char.isDigit_iff_toNat.mp hdigit
      simp only [Char.reduceToNat] at hbounds
      omega
    · have hall : ∀ c ∈ ['.', '+', '-', 'E'], c.toNat < 128 := by decide
      exact hall c hmem
  exact if_pos hlow

/-- **The text begins with the sign, and has the digits and the exponent of the decimal behind it.** -/
theorem signOf_str (n : Numeral) :
    ∃ c cs, signOf n.str.toList = (n.negative, c :: cs) ∧ c.isDigit = true ∧ (∀ d ∈ n.str.toList, InText d) ∧
      partsOf (c :: cs) = some (n.coefficient, n.exponent) := by
  obtain ⟨whole, rest, htext, hne, hwhole, hrest, hparts⟩ := partsOf_str n
  obtain ⟨c, cs, rfl⟩ := List.exists_cons_of_ne_nil hne
  have hc : c.isDigit = true := hwhole c List.mem_cons_self
  rw [htext, String.toList_ofList]
  refine ⟨c, cs ++ rest, ?_, hc, ?_, hparts⟩
  · cases n.negative with
    | false => exact signOf_of_digit hc _
    | true => rfl
  · intro d hd
    rcases List.mem_append.mp hd with hd | hd
    · split_ifs at hd
      · obtain rfl := List.mem_singleton.mp hd
        exact .inr (by decide)
      · exact nomatch hd
    · exact (List.mem_append.mp hd).elim (fun hd => .inl (hwhole d hd)) (hrest d)

/-- A decimal is told by its text. -/
theorem str_inj {m n : Numeral} (h : m.str = n.str) : m = n := by
  obtain ⟨c, cs, hsign, -, -, hparts⟩ := signOf_str m
  obtain ⟨d, ds, hsign', -, -, hparts'⟩ := signOf_str n
  rw [h, hsign', Prod.mk.injEq] at hsign
  rw [← hsign.2, hparts', Option.some.injEq, Prod.mk.injEq] at hparts
  cases m
  cases n
  obtain ⟨rfl, -⟩ := hsign
  obtain ⟨rfl, rfl⟩ := hparts
  rfl

/-- **`Decimal(str(x))` is `x`.** -/
theorem ofText_str (n : FiniteDecimal) : ofText n.1.str = .finite n := by
  obtain ⟨c, cs, hsign, hc, hplain, hparts⟩ := signOf_str n.1
  have hread : asciiOf n.1.str = n.1.str.toList := by
    unfold asciiOf
    rw [stripChars_of_no_space fun d hd => (hplain d hd).plain.1,
      List.filter_eq_self.mpr fun d hd => decide_eq_true (hplain d hd).plain.2]
    exact (List.map_congr_left fun d hd => (hplain d hd).toAscii).trans (List.map_id _)
  unfold ofText
  rw [hread, hsign]
  dsimp only
  rw [isSpecial_of_digit hc, hparts]
  exact dif_pos n.2

theorem str_ne_empty (n : Numeral) : n.str ≠ "" := fun h => by
  obtain ⟨c, cs, hsign, -⟩ := signOf_str n
  rw [h] at hsign
  exact absurd (Prod.mk.inj hsign).2 nofun

end Numeral

/-! ### All decimals -/

/-- A `decimal.Decimal`. -/
inductive PyDecimal where
  /-- A finite number. -/
  | finite (n : FiniteDecimal)
  /-- An infinity or a NaN, as `str` writes it. -/
  | special (text : String)
  deriving DecidableEq

namespace PyDecimal

/-- `str`. -/
def str : PyDecimal → String
  | finite n => n.1.str
  | special text => text

/-- How `str` writes the infinity or the NaN that a text is read as. -/
def specialText (s : String) : String :=
  let (negative, cs) := Decimal.signOf (Decimal.asciiOf s)
  let lower := cs.map Char.toLower
  let payload (digits : List Char) : List Char := digits.dropWhile fun c => decide (c = '0')
  String.ofList ((if negative then ['-'] else []) ++
    if lower.head? = some 'i' then ['I', 'n', 'f', 'i', 'n', 'i', 't', 'y']
    else if lower.head? = some 's' then ['s', 'N', 'a', 'N'] ++ payload (lower.drop 4)
    else ['N', 'a', 'N'] ++ payload (lower.drop 3))

/-- `Decimal(s)`: `none` is `InvalidOperation`. -/
def ofText (s : String) : Option PyDecimal :=
  match Numeral.ofText s with
  | .invalid => none
  | .nonFinite => some (.special (specialText s))
  | .finite n => some (.finite n)

/-- The number. -/
def value? : PyDecimal → Option ℚ
  | finite n => some n.1.value
  | special _ => none

theorem ofText_str (n : FiniteDecimal) : ofText n.1.str = some (.finite n) := by
  unfold ofText
  rw [Numeral.ofText_str]

end PyDecimal

end StratTrader.Foundation
