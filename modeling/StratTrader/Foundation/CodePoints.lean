import Mathlib.Data.List.Chain

/-!
# The characters of a Python string

A `str` of Python is a list of code points, and a surrogate is one of them: a text may hold a high
surrogate with a low one behind it. A format that writes the code units of 16 bits cannot tell these
two from the one code point that they stand for, and reads them as that one.

## What is proved

* `join_flatMap_units`: the code units of a text are read as the text with its surrogates joined.
* `join_eq_self_iff`: a text stays as it is exactly if no high surrogate of it has a low one behind it.
* `whole_ofString`: this holds of every text of Unicode scalar values.
-/

namespace StratTrader.Foundation

/-- A code point. -/
abbrev CodePoint := Fin 0x110000

/-- A `str`. -/
abbrev PyText := List CodePoint

namespace CodePoint

/-- `chr`. -/
def chr (n : ℕ) : CodePoint := Fin.ofNat 0x110000 n

/-- A high surrogate. -/
def High (p : CodePoint) : Prop := 0xD800 ≤ p.val ∧ p.val ≤ 0xDBFF

/-- A low surrogate. -/
def Low (p : CodePoint) : Prop := 0xDC00 ≤ p.val ∧ p.val ≤ 0xDFFF

/-- A high and a low surrogate. -/
def Pair (p q : CodePoint) : Prop := High p ∧ Low q

instance decidableHigh (p : CodePoint) : Decidable (High p) :=
  inferInstanceAs (Decidable (0xD800 ≤ p.val ∧ p.val ≤ 0xDBFF))

instance decidableLow (p : CodePoint) : Decidable (Low p) :=
  inferInstanceAs (Decidable (0xDC00 ≤ p.val ∧ p.val ≤ 0xDFFF))

instance decidablePair (p q : CodePoint) : Decidable (Pair p q) := inferInstanceAs (Decidable (High p ∧ Low q))

/-- The code point that a high and a low surrogate stand for. -/
def combine (high low : CodePoint) : CodePoint :=
  chr (0x10000 + (high.val - 0xD800) * 0x400 + (low.val - 0xDC00))

/-- The code units of 16 bits. -/
def units (p : CodePoint) : PyText :=
  if p.val < 0x10000 then [p]
  else [chr (0xD800 + (p.val - 0x10000) / 0x400), chr (0xDC00 + (p.val - 0x10000) % 0x400)]

/-- The code point of a Unicode scalar value. -/
def ofChar (c : Char) : CodePoint := chr c.toNat

/-- The Unicode scalar value, unless it is a surrogate. -/
def char? (p : CodePoint) : Option Char := if High p ∨ Low p then none else some (Char.ofNat p.val)

theorem chr_val {n : ℕ} (h : n < 0x110000) : (chr n).val = n := Nat.mod_eq_of_lt h

theorem ofChar_val (c : Char) : (ofChar c).val = c.toNat := by
  refine chr_val ?_
  rcases c.valid with hlow | ⟨-, hhigh⟩
  · exact lt_trans hlow (by decide)
  · exact hhigh

theorem ofChar_not_surrogate (c : Char) : ¬ (High (ofChar c) ∨ Low (ofChar c)) := by
  have hvalid : c.toNat < 0xD800 ∨ 0xDFFF < c.toNat ∧ c.toNat < 0x110000 := c.valid
  unfold High Low
  rw [ofChar_val]
  omega

theorem char?_ofChar (c : Char) : char? (ofChar c) = some c := by
  unfold char?
  rw [if_neg (ofChar_not_surrogate c), ofChar_val, Char.ofNat_toNat]

theorem char?_eq_some {p : CodePoint} {c : Char} (h : char? p = some c) : p = ofChar c := by
  unfold char? at h
  split_ifs at h with hsurrogate
  cases h
  refine Fin.ext ?_
  have hvalid : Nat.isValidChar p.val := by
    have hlt := p.isLt
    unfold High Low at hsurrogate
    unfold Nat.isValidChar
    omega
  have hchar : Char.ofNat p.val = Char.ofNatAux p.val hvalid := dif_pos hvalid
  rw [ofChar_val, hchar]
  rfl

theorem units_of_lt {p : CodePoint} (h : p.val < 0x10000) : units p = [p] := if_pos h

/-- A code point beyond 16 bits is a pair of surrogates. -/
theorem units_of_ge {p : CodePoint} (h : 0x10000 ≤ p.val) :
    ∃ high low, units p = [high, low] ∧ Pair high low ∧ combine high low = p := by
  have hlt := p.isLt
  obtain ⟨k, hk⟩ := Nat.exists_eq_add_of_le h
  have hhigh : (chr (0xD800 + (p.val - 0x10000) / 0x400)).val = 0xD800 + k / 0x400 := by
    rw [chr_val (by omega), hk, Nat.add_sub_cancel_left]
  have hlow : (chr (0xDC00 + (p.val - 0x10000) % 0x400)).val = 0xDC00 + k % 0x400 := by
    rw [chr_val (by omega), hk, Nat.add_sub_cancel_left]
  refine ⟨_, _, if_neg (by omega), ⟨?_, ?_⟩, Fin.ext ?_⟩
  · unfold High
    rw [hhigh]
    omega
  · unfold Low
    rw [hlow]
    omega
  · unfold combine
    rw [hhigh, hlow, chr_val (by omega)]
    omega

/-- A code unit has 16 bits. -/
theorem units_lt {p u : CodePoint} (h : u ∈ units p) : u.val < 0x10000 := by
  rcases lt_or_ge p.val 0x10000 with hlt | hge
  · rw [units_of_lt hlt, List.mem_singleton] at h
    exact h ▸ hlt
  · obtain ⟨high, low, hunits, ⟨hhigh, hlow⟩, -⟩ := units_of_ge hge
    rw [hunits] at h
    rcases List.mem_cons.mp h with rfl | h
    · exact lt_of_le_of_lt hhigh.2 (by decide)
    · rw [List.mem_singleton.mp h]
      exact lt_of_le_of_lt hlow.2 (by decide)

end CodePoint

namespace PyText

open CodePoint

/-- The text with every high surrogate and the low one behind it joined, from the left. -/
def join : PyText → PyText
  | p :: q :: t => if Pair p q then combine p q :: join t else p :: join (q :: t)
  | t => t

/-- No high surrogate has a low one behind it. -/
def Whole (t : PyText) : Prop := t.IsChain fun p q => ¬ Pair p q

/-- A text of Unicode scalar values. -/
def ofString (s : String) : PyText := s.toList.map ofChar

/-- The text as one of Unicode scalar values, unless it holds a surrogate. -/
def string? (t : PyText) : Option String := (t.mapM char?).map String.ofList

instance decidableWhole (t : PyText) : Decidable (Whole t) :=
  inferInstanceAs (Decidable (t.IsChain fun p q => ¬ Pair p q))

/-! ### Joining -/

theorem join_pair {p q : CodePoint} (h : Pair p q) (t : PyText) : join (p :: q :: t) = combine p q :: join t := by
  conv_lhs => unfold join
  rw [if_pos h]

theorem join_cons {p : CodePoint} {t : PyText} (h : ∀ q ∈ t.head?, ¬ Pair p q) : join (p :: t) = p :: join t := by
  cases t with
  | nil => rfl
  | cons q t =>
    conv_lhs => unfold join
    rw [if_neg (h q rfl)]

theorem length_join_le (t : PyText) : (join t).length ≤ t.length := by
  induction t using join.induct with
  | case1 p q t hpair ih =>
    rw [join_pair hpair, List.length_cons, List.length_cons, List.length_cons]
    omega
  | case2 p q t hpair ih =>
    rw [join_cons fun r hr => by cases hr; exact hpair, List.length_cons, List.length_cons]
    exact Nat.succ_le_succ ih
  | case3 t hshort =>
    unfold join
    split
    · exact absurd rfl (hshort _ _ _)
    · exact le_rfl

theorem join_eq_nil {t : PyText} : join t = [] ↔ t = [] := by
  unfold join
  split
  · refine iff_of_false ?_ (List.cons_ne_nil _ _)
    split
    · exact List.cons_ne_nil _ _
    · exact List.cons_ne_nil _ _
  · exact Iff.rfl

/-- **A text stays as it is exactly if no high surrogate of it has a low one behind it.** -/
theorem join_eq_self_iff (t : PyText) : join t = t ↔ Whole t := by
  induction t using join.induct with
  | case1 p q t hpair ih =>
    -- joining makes the text shorter
    refine iff_of_false (fun h => ?_) fun h => (List.isChain_cons_cons.mp h).1 hpair
    have hlen := congrArg List.length h
    have hle := length_join_le t
    rw [join_pair hpair, List.length_cons, List.length_cons, List.length_cons] at hlen
    omega
  | case2 p q t hpair ih =>
    rw [join_cons fun r hr => by cases hr; exact hpair, List.cons.injEq, ih]
    exact ⟨fun h => List.isChain_cons_cons.mpr ⟨hpair, h.2⟩, fun h => ⟨rfl, (List.isChain_cons_cons.mp h).2⟩⟩
  | case3 t hshort =>
    cases t with
    | nil => exact iff_of_true rfl .nil
    | cons p t =>
      cases t with
      | nil => exact iff_of_true rfl (.singleton p)
      | cons q t => exact absurd rfl (hshort p q t)

/-! ### Code units -/

theorem join_units_append {p : CodePoint} {t : PyText} (h : ∀ q ∈ t.head?, ¬ Pair p q) :
    join (units p ++ t) = p :: join t := by
  rcases lt_or_ge p.val 0x10000 with hlt | hge
  · rw [units_of_lt hlt]
    exact join_cons h
  · obtain ⟨high, low, hunits, hpair, hcombine⟩ := units_of_ge hge
    rw [hunits, ← hcombine]
    exact join_pair hpair t

/-- The first code unit is a low surrogate only if the first code point is. -/
theorem low_of_head_units {p q : CodePoint} {t : PyText} (hq : q ∈ ((p :: t).flatMap units).head?) (hlow : Low q) :
    Low p := by
  rw [List.flatMap_cons] at hq
  rcases lt_or_ge p.val 0x10000 with hlt | hge
  · rw [units_of_lt hlt] at hq
    cases hq
    exact hlow
  · obtain ⟨high, low, hunits, ⟨hhigh, -⟩, -⟩ := units_of_ge hge
    rw [hunits] at hq
    cases hq
    unfold High at hhigh
    unfold Low at hlow
    omega

/-- **The code units of a text are read as the text with its surrogates joined.** -/
theorem join_flatMap_units (t : PyText) : join (t.flatMap units) = join t := by
  induction t using join.induct with
  | case1 p q t hpair ih =>
    have hp : p.val < 0x10000 := lt_of_le_of_lt hpair.1.2 (by decide)
    have hq : q.val < 0x10000 := lt_of_le_of_lt hpair.2.2 (by decide)
    rw [List.flatMap_cons, List.flatMap_cons, units_of_lt hp, units_of_lt hq, join_pair hpair, ← ih]
    exact join_pair hpair _
  | case2 p q t hpair ih =>
    rw [List.flatMap_cons, join_units_append fun r hr hr' => hpair ⟨hr'.1, low_of_head_units hr hr'.2⟩, ih]
    exact (join_cons fun r hr => by cases hr; exact hpair).symm
  | case3 t hshort =>
    cases t with
    | nil => rfl
    | cons p t =>
      cases t with
      | nil => exact join_units_append nofun
      | cons q t => exact absurd rfl (hshort p q t)

example : join [0xD83D, 0xD83D, 0xDE00, 0xDE00] = [0xD83D, 0x1F600, 0xDE00] := by decide

/-! ### Texts of Unicode scalar values -/

/-- **No surrogates are joined in a text of Unicode scalar values.** -/
theorem whole_ofString (s : String) : Whole (ofString s) := by
  refine List.Pairwise.isChain (List.pairwise_map.mpr (List.pairwise_of_forall fun c d hpair => ?_))
  exact ofChar_not_surrogate c (.inl hpair.1)

theorem string?_ofString (s : String) : string? (ofString s) = some s := by
  have hchars : ∀ cs : List Char, (cs.map ofChar).mapM char? = some cs := by
    intro cs
    induction cs with
    | nil => rfl
    | cons c cs ih =>
      rw [List.map_cons, List.mapM_cons, char?_ofChar, ih]
      rfl
  unfold string? ofString
  rw [hchars, Option.map_some, String.ofList_toList]

/-- A text without a surrogate is one of Unicode scalar values. -/
theorem eq_ofString_of_string? {t : PyText} {s : String} (h : string? t = some s) : t = ofString s := by
  have hchars : ∀ (t : PyText) (cs : List Char), t.mapM char? = some cs → t = cs.map ofChar := by
    intro t
    induction t with
    | nil =>
      intro cs h
      cases h
      rfl
    | cons p t ih =>
      intro cs h
      rw [List.mapM_cons] at h
      obtain ⟨c, hc, h⟩ := Option.bind_eq_some_iff.mp h
      obtain ⟨rest, hrest, h⟩ := Option.bind_eq_some_iff.mp h
      cases h
      rw [List.map_cons, ← ih rest hrest, ← char?_eq_some hc]
  obtain ⟨cs, hcs, rfl⟩ := Option.map_eq_some_iff.mp h
  unfold ofString
  rw [String.toList_ofList]
  exact hchars t cs hcs

theorem ofString_inj {s t : String} : ofString s = ofString t ↔ s = t := by
  refine ⟨fun h => ?_, congrArg ofString⟩
  have hread := congrArg string? h
  rwa [string?_ofString, string?_ofString, Option.some.injEq] at hread

@[simp] theorem join_ofString (s : String) : join (ofString s) = ofString s :=
  (join_eq_self_iff _).mpr (whole_ofString s)

end PyText

end StratTrader.Foundation
