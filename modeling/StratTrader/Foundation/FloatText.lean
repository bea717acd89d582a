import StratTrader.Foundation.Significant

/-!
# The text of a float

A float as the number it is, and the text that the format `:g` gives it: six significant digits,
without the zeros behind them.

## What is proved

* `blank_not_mem_generalText`: there is no blank in it.
* `numeralOf_generalText`: the text of a number of ordinary size is read as the number rounded to six
  digits.
* `thousandthsText_exact`: which numbers of thousandths have a text that is exact.

## Honest scope

A float is not negative here, and far from the least and the greatest there are.
-/

namespace StratTrader.Foundation

open Decimal (natOf scale numeralOf partsOf exponentOf)

/-- The float that is nearest to a number. -/
def float (x : ℚ) : ℚ := significant 2 53 x

/-- Without the zeros at the end. -/
def stripZeros (cs : List Char) : List Char := (cs.reverse.dropWhile fun c => decide (c = '0')).reverse

/-- Digits with the point behind the first `n`, unless only zeros follow it. -/
def pointed (digits : List Char) (n : ℕ) : List Char :=
  if stripZeros (digits.drop n) = [] then digits.take n else digits.take n ++ '.' :: stripZeros (digits.drop n)

/-- The sign and at least two digits of an exponent. -/
def exponentText (e : ℤ) : List Char :=
  let digits := Nat.toDigits 10 e.natAbs
  (if e < 0 then '-' else '+') :: (List.replicate (2 - digits.length) '0' ++ digits)

/-- `f"{x:g}"`. -/
def generalText (x : ℚ) : List Char :=
  if x = 0 then ['0']
  else
    let rounded := significant 10 6 x
    let e := Int.log 10 rounded
    let digits := Nat.toDigits 10 ⌊rounded / 10 ^ (e - 5)⌋₊
    if -4 ≤ e ∧ e < 6 then pointed (List.replicate (-e).toNat '0' ++ digits) ((max e 0).toNat + 1)
    else pointed digits 1 ++ 'e' :: exponentText e

/-! ### Reading digits -/

theorem natOf_append (cs ds : List Char) : natOf (cs ++ ds) = Nat.ofDigitChars 10 ds (natOf cs) :=
  List.foldl_append

theorem natOf_replicate_append (n : ℕ) (cs : List Char) : natOf (List.replicate n '0' ++ cs) = natOf cs := by
  have hzeros : natOf (List.replicate n '0') = 0 := Nat.ofDigitChars_replicate_zero.trans (Nat.mul_zero _)
  rw [natOf_append, hzeros]
  rfl

theorem natOf_append_replicate (cs : List Char) (n : ℕ) : natOf (cs ++ List.replicate n '0') = natOf cs * 10 ^ n := by
  rw [natOf_append, Nat.ofDigitChars_replicate_zero, Nat.mul_comm]

theorem natOf_toDigits (n : ℕ) : natOf (Nat.toDigits 10 n) = n := Nat.ofDigitChars_ten_toDigits

theorem natOf_concat (cs : List Char) (c : Char) : natOf (cs ++ [c]) = 10 * natOf cs + (c.toNat - '0'.toNat) :=
  natOf_append cs [c]

theorem digit_lt_ten {c : Char} (h : c.isDigit = true) : c.toNat - '0'.toNat < 10 := by
  have hbounds := Char.isDigit_iff_toNat.mp h
  simp only [Char.reduceToNat] at hbounds ⊢
  omega

/-- Digits write a number below a power of ten. -/
theorem natOf_lt {cs : List Char} (h : ∀ c ∈ cs, c.isDigit = true) : natOf cs < 10 ^ cs.length := by
  induction cs using List.reverseRecOn with
  | nil => exact Nat.one_pos
  | append_singleton cs c ih =>
    have hcs := ih fun d hd => h d (List.mem_append_left _ hd)
    have hc := digit_lt_ten (h c (List.mem_append_right _ (.head _)))
    rw [natOf_concat, List.length_append, List.length_singleton, pow_succ]
    omega

/-- As many digits write different numbers. -/
theorem natOf_inj {cs ds : List Char} (hcs : ∀ c ∈ cs, c.isDigit = true) (hds : ∀ d ∈ ds, d.isDigit = true)
    (hlen : cs.length = ds.length) (h : natOf cs = natOf ds) : cs = ds := by
  induction cs using List.reverseRecOn generalizing ds with
  | nil => exact (List.length_eq_zero_iff.mp hlen.symm).symm
  | append_singleton cs c ih =>
    rcases List.eq_nil_or_concat ds with rfl | ⟨ds, d, rfl⟩
    · rw [List.length_append] at hlen
      exact absurd hlen (Nat.succ_ne_zero _)
    · rw [List.concat_eq_append] at hds hlen h ⊢
      rw [List.length_append, List.length_append] at hlen
      rw [natOf_concat, natOf_concat] at h
      have hc := digit_lt_ten (hcs c (List.mem_append_right _ (.head _)))
      have hd := digit_lt_ten (hds d (List.mem_append_right _ (.head _)))
      have hrest := ih (fun x hx => hcs x (List.mem_append_left _ hx)) (fun x hx => hds x (List.mem_append_left _ hx))
        (Nat.add_right_cancel hlen) (by omega)
      have hcbounds := Char.isDigit_iff_toNat.mp (hcs c (List.mem_append_right _ (.head _)))
      have hdbounds := Char.isDigit_iff_toNat.mp (hds d (List.mem_append_right _ (.head _)))
      have hlast : c.toNat = d.toNat := by
        simp only [Char.reduceToNat] at h hcbounds hdbounds
        omega
      rw [hrest, Char.toNat_inj.mp hlast]

/-- What is taken off the end are zeros. -/
theorem stripZeros_spec (cs : List Char) : ∃ n, cs = stripZeros cs ++ List.replicate n '0' := by
  refine ⟨(cs.reverse.takeWhile fun c => decide (c = '0')).length, ?_⟩
  have hzeros : cs.reverse.takeWhile (fun c => decide (c = '0')) =
      List.replicate (cs.reverse.takeWhile fun c => decide (c = '0')).length '0' :=
    List.eq_replicate_of_mem fun c hc => by simpa using List.mem_takeWhile_imp hc
  have hsplit := List.takeWhile_append_dropWhile (p := fun c => decide (c = '0')) (l := cs.reverse)
  unfold stripZeros
  rw [← List.reverse_replicate, ← hzeros, ← List.reverse_append, hsplit, List.reverse_reverse]

theorem scale_neg (n k : ℕ) : scale n (0 - k) = n / 10 ^ k := by
  cases k with
  | zero =>
    rw [pow_zero, div_one]
    exact mul_one _
  | succ k => rfl

/-- Digits are read up to what is none. -/
theorem span_isDigit {w r : List Char} (hw : ∀ c ∈ w, c.isDigit = true) (hr : ∀ c ∈ r.head?, c.isDigit = false) :
    (w ++ r).span Char.isDigit = (w, r) := by
  rw [List.span_eq_takeWhile_dropWhile, List.takeWhile_append_of_pos hw, List.dropWhile_append_of_pos hw]
  cases r with
  | nil => rw [List.takeWhile_nil, List.append_nil, List.dropWhile_nil]
  | cons c cs =>
    have hc : ¬ c.isDigit = true := by
      rw [hr c rfl]
      exact Bool.false_ne_true
    rw [List.takeWhile_cons_of_neg hc, List.dropWhile_cons_of_neg hc, List.append_nil]

/-- Digits with a point are read as the digits over a power of ten. -/
theorem numeralOf_pointed {digits : List Char} (hdigits : ∀ c ∈ digits, c.isDigit = true) {n : ℕ} (hn : 0 < n)
    (hle : n ≤ digits.length) :
    numeralOf (pointed digits n) = some ((natOf digits : ℚ) / 10 ^ (digits.length - n)) := by
  obtain ⟨zeros, hzeros⟩ := stripZeros_spec (digits.drop n)
  obtain ⟨fraction, hfraction⟩ : ∃ f, stripZeros (digits.drop n) = f := ⟨_, rfl⟩
  rw [hfraction] at hzeros
  have hwhole : ∀ c ∈ digits.take n, c.isDigit = true := fun c hc => hdigits c (List.mem_of_mem_take hc)
  have hfraction' : ∀ c ∈ fraction, c.isDigit = true := fun c hc =>
    hdigits c (List.mem_of_mem_drop (by rw [hzeros]; exact List.mem_append_left _ hc))
  have hne : digits.take n ≠ [] := fun h => by
    have hlen := congrArg List.length h
    rw [List.length_take, List.length_nil] at hlen
    omega
  -- the zeros that are taken off count on both sides of the fraction line
  have hlen : digits.length - n = fraction.length + zeros := by
    rw [← List.length_drop, hzeros, List.length_append, List.length_replicate]
  have hvalue : (natOf digits : ℚ) / 10 ^ (digits.length - n) =
      natOf (digits.take n ++ fraction) / 10 ^ fraction.length := by
    have hsplit : digits = digits.take n ++ fraction ++ List.replicate zeros '0' := by
      rw [List.append_assoc, ← hzeros, List.take_append_drop]
    rw [hlen, pow_add]
    nth_rewrite 1 [hsplit]
    rw [natOf_append_replicate]
    push_cast
    rw [mul_div_mul_right _ _ (by positivity)]
  rw [hvalue, ← scale_neg]
  unfold pointed numeralOf partsOf
  rw [hfraction]
  have hnone : ∀ c ∈ ([] : List Char).head?, c.isDigit = false := nofun
  by_cases hempty : fraction = []
  · have hspan := span_isDigit hwhole hnone
    rw [List.append_nil] at hspan
    rw [if_pos hempty, hspan, hempty, List.append_nil]
    dsimp only
    rw [if_neg fun h => hne h.1, List.append_nil]
    rfl
  · have hspan := span_isDigit hwhole (r := '.' :: fraction) fun c hc => by cases hc; rfl
    have hspan' := span_isDigit hfraction' hnone
    rw [List.append_nil] at hspan'
    rw [if_neg hempty, hspan]
    simp only [hspan', hne, false_and, if_false]
    rfl

theorem mem_pointed {digits : List Char} {n : ℕ} {c : Char} (h : c ∈ pointed digits n) : c ∈ digits ∨ c = '.' := by
  have hstrip : ∀ c ∈ stripZeros (digits.drop n), c ∈ digits := fun c hc => by
    obtain ⟨zeros, hzeros⟩ := stripZeros_spec (digits.drop n)
    exact List.mem_of_mem_drop (by rw [hzeros]; exact List.mem_append_left _ hc)
  unfold pointed at h
  split_ifs at h
  · exact .inl (List.mem_of_mem_take h)
  · rcases List.mem_append.mp h with h | h
    · exact .inl (List.mem_of_mem_take h)
    · rcases List.mem_cons.mp h with h | h
      · exact .inr h
      · exact .inl (hstrip c h)

/-- The text of a float has no blank. -/
theorem blank_not_mem_generalText (x : ℚ) : ' ' ∉ generalText x := by
  have hdigits : ∀ n, ' ' ∉ Nat.toDigits 10 n := fun n h =>
    absurd (Nat.isDigit_of_mem_toDigits (by decide) (by decide) h) (by decide)
  have hzeros : ∀ n, ' ' ∉ List.replicate n '0' := fun n h => absurd (List.eq_of_mem_replicate h) (by decide)
  have hpointed : ∀ digits n, ' ' ∉ digits → ' ' ∉ pointed digits n := fun digits n hno h =>
    (mem_pointed h).elim hno (by decide)
  unfold generalText
  dsimp only
  split_ifs
  · decide
  · exact hpointed _ _ fun h => (List.mem_append.mp h).elim (hzeros _) (hdigits _)
  · intro h
    rcases List.mem_append.mp h with h | h
    · exact hpointed _ _ (hdigits _) h
    · unfold exponentText at h
      dsimp only at h
      rcases List.mem_cons.mp h with h | h
      · exact absurd h (by decide)
      · rcases List.mem_cons.mp h with h | h
        · split_ifs at h
          · exact absurd h (by decide)
          · exact absurd h (by decide)
        · exact (List.mem_append.mp h).elim (hzeros _) (hdigits _)

/-- **The text of a number of ordinary size is read as the number rounded to six digits.** -/
theorem numeralOf_generalText {x : ℚ} (hx : 0 < x) (hlow : -4 ≤ Int.log 10 (significant 10 6 x))
    (hhigh : Int.log 10 (significant 10 6 x) < 6) : numeralOf (generalText x) = some (significant 10 6 x) := by
  obtain ⟨m, k, hm, hm', hrounded⟩ := exists_digits_significant (b := 10) (p := 6) (by decide) (by decide) hx
  have hlog : Int.log 10 (significant 10 6 x) = k + 5 := by
    have h := log_of_digits (b := 10) (p := 6) (k := k) (by decide) hm hm'
    rw [← hrounded] at h
    rw [h]
    push_cast
    ring
  rw [hlog] at hlow hhigh
  have hdigits : ⌊significant 10 6 x / (10 : ℚ) ^ (k + 5 - 5)⌋₊ = m := by
    rw [hrounded, add_sub_cancel_right, Nat.cast_ofNat, mul_div_cancel_right₀ _ (by positivity), Nat.floor_natCast]
  have hlen : (Nat.toDigits 10 m).length = 6 := by
    refine le_antisymm ((Nat.length_toDigits_le_iff (by decide) (by decide)).mpr hm') ?_
    by_contra hless
    have hle : (Nat.toDigits 10 m).length ≤ 5 := by omega
    have hlt := (Nat.length_toDigits_le_iff (by decide) (by decide)).mp hle
    omega
  unfold generalText
  rw [if_neg hx.ne']
  dsimp only
  rw [hlog, hdigits, if_pos ⟨hlow, hhigh⟩, numeralOf_pointed, natOf_replicate_append, natOf_toDigits, hrounded,
    List.length_append, List.length_replicate, hlen]
  · obtain ⟨j, hj⟩ := Int.eq_ofNat_of_zero_le (show 0 ≤ -k by omega)
    have hplaces : (-(k + 5)).toNat + 6 - ((max (k + 5) 0).toNat + 1) = j := by omega
    rw [hplaces, ← neg_neg k, hj, zpow_neg, Nat.cast_ofNat, zpow_natCast, div_eq_mul_inv]
  · intro c hc
    rcases List.mem_append.mp hc with hc | hc
    · rw [List.eq_of_mem_replicate hc]
      rfl
    · exact Nat.isDigit_of_mem_toDigits (by decide) (by decide) hc
  · exact Nat.succ_pos _
  · rw [List.length_append, List.length_replicate, hlen]
    omega

/-! ### Thousandths -/

/-- No more than six of the digits of a number are significant. -/
def SixDigits (n : ℕ) : Prop := 10 ^ (Nat.log 10 n - 5) ∣ n

/-- A number of no more than six significant digits has just six, in its place. -/
theorem SixDigits.exists {n : ℕ} (hn : n ≠ 0) (h : SixDigits n) :
    ∃ m : ℕ, 10 ^ 5 ≤ m ∧ m < 10 ^ 6 ∧ (n : ℚ) = m * 10 ^ ((Nat.log 10 n : ℤ) - 5) := by
  have hlow := Nat.pow_log_le_self 10 hn
  have hhigh := Nat.lt_pow_succ_log_self (b := 10) (by decide) n
  rcases le_total 5 (Nat.log 10 n) with hle | hle
  · obtain ⟨m, hm⟩ := h
    have hsplit : 10 ^ Nat.log 10 n = 10 ^ (Nat.log 10 n - 5) * 10 ^ 5 := by rw [← pow_add, Nat.sub_add_cancel hle]
    rw [pow_succ, hsplit] at hhigh
    rw [hsplit] at hlow
    have hpos : 0 < 10 ^ (Nat.log 10 n - 5) := pow_pos (by decide) _
    refine ⟨m, ?_, ?_, ?_⟩
    · refine Nat.le_of_mul_le_mul_left ?_ hpos
      rwa [← hm]
    · refine Nat.lt_of_mul_lt_mul_left (a := 10 ^ (Nat.log 10 n - 5)) ?_
      rw [← hm]
      linarith
    · rw [← Nat.cast_ofNat (R := ℤ), ← Nat.cast_sub hle, zpow_natCast]
      exact_mod_cast hm.trans (Nat.mul_comm _ _)
  · have hsplit : 10 ^ 5 = 10 ^ Nat.log 10 n * 10 ^ (5 - Nat.log 10 n) := by rw [← pow_add, Nat.add_sub_cancel' hle]
    have hpos : 0 < 10 ^ (5 - Nat.log 10 n) := pow_pos (by decide) _
    refine ⟨n * 10 ^ (5 - Nat.log 10 n), ?_, ?_, ?_⟩
    · rw [hsplit]
      exact Nat.mul_le_mul_right _ hlow
    · rw [pow_succ] at hhigh
      linarith [Nat.mul_lt_mul_of_pos_right hhigh hpos]
    · rw [← neg_sub, ← Nat.cast_ofNat (R := ℤ), ← Nat.cast_sub hle, zpow_neg, zpow_natCast]
      push_cast
      field_simp

/-- A number that six digits write, in any place, has no more than six that are significant. -/
theorem sixDigits_of_eq {n m : ℕ} {k : ℤ} (hm : m < 10 ^ 6) (h : (n : ℚ) = m * 10 ^ k) : SixDigits n := by
  rcases eq_or_ne n 0 with rfl | hn
  · exact dvd_zero _
  unfold SixDigits
  rcases Int.eq_nat_or_neg k with ⟨j, rfl | rfl⟩
  · rw [zpow_natCast] at h
    have hmul : n = m * 10 ^ j := by exact_mod_cast h
    have hlt : n < 10 ^ (6 + j) := by
      rw [hmul, pow_add]
      exact Nat.mul_lt_mul_of_pos_right hm (pow_pos (by decide) j)
    have hlog := Nat.log_lt_of_lt_pow hn hlt
    exact (pow_dvd_pow 10 (by omega)).trans (hmul ▸ Nat.dvd_mul_left _ _)
  · rw [zpow_neg, zpow_natCast, ← div_eq_mul_inv, eq_div_iff (by positivity)] at h
    have hmul : n * 10 ^ j = m := by exact_mod_cast h
    have hlt : n < 10 ^ 6 := lt_of_le_of_lt (hmul ▸ Nat.le_mul_of_pos_right n (pow_pos (by decide) j)) hm
    have hlog := Nat.log_lt_of_lt_pow hn hlt
    rw [Nat.sub_eq_zero_of_le (by omega), pow_zero]
    exact one_dvd n

/-- The text of a number of thousandths. -/
def thousandthsText (n : ℕ) : List Char := generalText (float (n / 1000))

/-- **The text of a number of thousandths below a hundred million is exact** exactly if no more than six of its digits
are significant. -/
theorem thousandthsText_exact {n : ℕ} (hn : n < 10 ^ 8) :
    numeralOf (thousandthsText n) = some ((n : ℚ) / 1000) ↔ SixDigits n := by
  rcases eq_or_ne n 0 with rfl | hzero
  · exact iff_of_true (by decide +kernel) (dvd_zero _)
  obtain ⟨x, hx⟩ : ∃ x, (n : ℚ) / 1000 = x := ⟨_, rfl⟩
  have hxlow : 1 / 1000 ≤ x := by
    rw [← hx]
    exact div_le_div_of_nonneg_right (by exact_mod_cast Nat.pos_of_ne_zero hzero) (by norm_num)
  have hxhigh : x < 10 ^ 5 := by
    rw [← hx, div_lt_iff₀ (by norm_num)]
    have hcast : (n : ℚ) < ((10 ^ 8 : ℕ) : ℚ) := by exact_mod_cast hn
    refine hcast.trans_le ?_
    norm_num
  have hxpos : 0 < x := lt_of_lt_of_le (by norm_num) hxlow
  -- the float, and the float rounded to six digits, are as close as their places allow
  obtain ⟨f, hf⟩ : ∃ f, float x = f := ⟨_, rfl⟩
  have hfloat : |f - x| ≤ x / 2 ^ 53 := by
    rw [← hf]
    have herror := (significant_error (b := 2) (by decide) 53 x).trans
      (div_le_div_of_nonneg_right (lastPlace_le (b := 2) (by decide) 53 hxpos) (by norm_num))
    refine herror.trans (le_of_eq ?_)
    norm_num
    ring
  obtain ⟨hfbelow, hfabove⟩ := abs_le.mp hfloat
  have hfpos : 0 < f := by linarith
  have hround : |significant 10 6 f - f| ≤ f / 10 ^ 5 := by
    have herror := (significant_error (b := 10) (by decide) 6 f).trans
      (div_le_div_of_nonneg_right (lastPlace_le (b := 10) (by decide) 6 hfpos) (by norm_num))
    refine herror.trans ?_
    norm_num
    linarith
  obtain ⟨hrbelow, hrabove⟩ := abs_le.mp hround
  have hrpos : 0 < significant 10 6 f := by linarith
  have hlow : -4 ≤ Int.log 10 (significant 10 6 f) := by
    refine (Int.zpow_le_iff_le_log (by decide) hrpos).mp ?_
    norm_num
    linarith
  have hhigh : Int.log 10 (significant 10 6 f) < 6 := by
    refine (Int.lt_zpow_iff_log_lt (by decide) hrpos).mp ?_
    norm_num
    linarith
  unfold thousandthsText
  rw [hx, hf, numeralOf_generalText hfpos hlow hhigh, Option.some.injEq]
  constructor
  · intro hexact
    obtain ⟨m, k, -, hm, hdigits⟩ := exists_digits_significant (b := 10) (p := 6) (by decide) (by decide) hfpos
    refine sixDigits_of_eq (k := k + 3) hm ?_
    rw [zpow_add₀ (by norm_num), ← mul_assoc]
    rw [hexact, Nat.cast_ofNat] at hdigits
    rw [← hdigits, ← hx]
    norm_num
  · intro hsix
    obtain ⟨m, hm, hm', hdigits⟩ := hsix.exists hzero
    have hexact : x = m * ((10 : ℕ) : ℚ) ^ ((Nat.log 10 n : ℤ) - 8) := by
      rw [← hx, hdigits, show (Nat.log 10 n : ℤ) - 5 = (Nat.log 10 n : ℤ) - 8 + 3 by ring, zpow_add₀ (by norm_num)]
      norm_num
      ring
    have hplace : (0 : ℚ) < ((10 : ℕ) : ℚ) ^ ((Nat.log 10 n : ℤ) - 8) := zpow_pos (by norm_num) _
    have hm'' : (m : ℚ) < 10 ^ 6 := by exact_mod_cast hm'
    rw [hexact]
    refine significant_of_near (by decide) hm hm' ?_
    rw [← hexact]
    refine hfloat.trans_lt ?_
    have hbound := mul_lt_mul_of_pos_right hm'' hplace
    rw [← hexact] at hbound
    rw [div_lt_div_iff₀ (by norm_num) (by norm_num)]
    norm_num at hbound ⊢
    linarith

end StratTrader.Foundation
