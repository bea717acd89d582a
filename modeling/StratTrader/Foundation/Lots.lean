import Mathlib.Algebra.Order.Floor.Ring
import Mathlib.Algebra.Order.Field.Basic

/-!
# Quantities under ceilings

A quantity that is scaled, cut down to several ceilings and rounded down to a multiple of a lot,
over any ordered field with a floor.

## What is proved

* `floorTo_le`, `floorTo_mono`: rounding down to a lot keeps every ceiling and the order.
* `Terms.le_scaled`, `Terms.le_base`: the scaled quantity and the first ceiling bound what is left
  of it; so do the other ceilings.
* `Terms.quantity_mono`: a quantity that is positive does not sink when nothing that it is made of
  does.
-/

namespace StratTrader.Foundation

/-! ### Ceilings -/

section
variable {K : Type*} [LinearOrder K]

/-- A quantity under a ceiling, if there is one. -/
def capped (ceiling : Option K) (x : K) : K :=
  match ceiling with
  | none => x
  | some c => min x c

theorem capped_le (ceiling : Option K) (x : K) : capped ceiling x ≤ x := by
  cases ceiling with
  | none => exact le_rfl
  | some c => exact min_le_left x c

theorem capped_le_ceiling {ceiling : Option K} {c : K} (h : ceiling = some c) (x : K) : capped ceiling x ≤ c := by
  rw [h]
  exact min_le_right x c

variable [Zero K]

/-- A ceiling is no lower than another, where that leaves anything. -/
def NotBelow (ceiling' ceiling : Option K) : Prop :=
  ∀ c', ceiling' = some c' → ∃ c, ceiling = some c ∧ (0 < c → c ≤ c')

theorem NotBelow.refl (ceiling : Option K) : NotBelow ceiling ceiling := fun c h => ⟨c, h, fun _ => le_rfl⟩

/-- A quantity that is left under a ceiling does not sink when neither it nor the ceiling does. -/
theorem capped_mono {ceiling ceiling' : Option K} {x y : K} (hleft : 0 < capped ceiling x) (hx : x ≤ y)
    (hceiling : NotBelow ceiling' ceiling) : capped ceiling x ≤ capped ceiling' y := by
  cases hceiling' : ceiling' with
  | none => exact (capped_le ceiling x).trans hx
  | some c' =>
    obtain ⟨c, hc, hle⟩ := hceiling c' hceiling'
    rw [hc] at hleft ⊢
    exact min_le_min hx (hle (hleft.trans_le (min_le_right x c)))

end

/-! ### Lots -/

section
variable {K : Type*} [Field K] [LinearOrder K] [FloorRing K]

/-- The greatest multiple of a lot up to a number. -/
def floorTo (lot x : K) : K := ⌊x / lot⌋ * lot

variable [IsStrictOrderedRing K] {lot x y : K}

theorem floorTo_le (hlot : 0 < lot) : floorTo lot x ≤ x := by
  unfold floorTo
  rw [← le_div_iff₀ hlot]
  exact Int.floor_le _

theorem floorTo_mono (hlot : 0 < lot) (h : x ≤ y) : floorTo lot x ≤ floorTo lot y := by
  unfold floorTo
  have hdiv : x / lot ≤ y / lot := div_le_div_of_nonneg_right h hlot.le
  exact mul_le_mul_of_nonneg_right (Int.cast_le.mpr (Int.floor_mono hdiv)) hlot.le

end

/-! ### What a quantity is made of -/

/-- What a quantity is made of. -/
structure Terms (K : Type*) [Field K] [LinearOrder K] where
  /-- The quantity to begin with. -/
  raw : K
  /-- The ceiling that holds before and after it is scaled. -/
  base : K
  /-- What it is scaled by. -/
  factor : K
  /-- That is positive. -/
  factor_pos : 0 < factor
  /-- The ceiling behind that. -/
  next : Option K
  /-- The last ceiling. -/
  last : Option K

namespace Terms

section
variable {K : Type*} [Field K] [LinearOrder K] (t : Terms K)

/-- The quantity before it is rounded. -/
def amount : K := capped t.last (capped t.next (min (min t.raw t.base * t.factor) t.base))

/-- The quantity. -/
def quantity [FloorRing K] (lot : K) : K := floorTo lot t.amount

/-- None of what the first quantity is made of is more than what the second is, where it leaves anything. -/
structure Below (t t' : Terms K) : Prop where
  /-- The quantity to begin with. -/
  raw : 0 < t.raw → t.raw ≤ t'.raw
  /-- The first ceiling. -/
  base : 0 < t.base → t.base ≤ t'.base
  /-- The factor. -/
  factor : t.factor ≤ t'.factor
  /-- The ceiling behind it. -/
  next : NotBelow t'.next t.next
  /-- The last ceiling. -/
  last : NotBelow t'.last t.last

theorem amount_le_scaled : t.amount ≤ min t.raw t.base * t.factor :=
  (capped_le _ _).trans ((capped_le _ _).trans (min_le_left _ _))

theorem amount_le_base : t.amount ≤ t.base :=
  (capped_le _ _).trans ((capped_le _ _).trans (min_le_right _ _))

theorem amount_le_next {c : K} (h : t.next = some c) : t.amount ≤ c :=
  (capped_le _ _).trans (capped_le_ceiling h _)

theorem amount_le_last {c : K} (h : t.last = some c) : t.amount ≤ c := capped_le_ceiling h _

end

section
variable {K : Type*} [Field K] [LinearOrder K] [IsStrictOrderedRing K] {t t' : Terms K}

/-- Where anything is left, there was something to begin with, and under the first ceiling. -/
theorem pos_of_amount_pos (h : 0 < t.amount) : 0 < t.raw ∧ 0 < t.base := by
  have hscaled := h.trans_le t.amount_le_scaled
  have hmin : 0 < min t.raw t.base := (mul_pos_iff_of_pos_right t.factor_pos).mp hscaled
  exact lt_min_iff.mp hmin

/-- **What is left does not sink when nothing that it is made of does.** -/
theorem amount_mono (h : t.Below t') (hpos : 0 < t.amount) : t.amount ≤ t'.amount := by
  obtain ⟨hraw, hbase⟩ := pos_of_amount_pos hpos
  have hmin : min t.raw t.base ≤ min t'.raw t'.base := min_le_min (h.raw hraw) (h.base hbase)
  have hscaled : min t.raw t.base * t.factor ≤ min t'.raw t'.base * t'.factor :=
    mul_le_mul hmin h.factor t.factor_pos.le ((lt_min hraw hbase).le.trans hmin)
  have hcut : min (min t.raw t.base * t.factor) t.base ≤ min (min t'.raw t'.base * t'.factor) t'.base :=
    min_le_min hscaled (h.base hbase)
  have hnext : 0 < capped t.next (min (min t.raw t.base * t.factor) t.base) := hpos.trans_le (capped_le _ _)
  exact capped_mono hpos (capped_mono hnext hcut h.next) h.last

/-- **Nor does what is left of it in lots.** -/
theorem quantity_mono [FloorRing K] {lot : K} (hlot : 0 < lot) (h : t.Below t') (hpos : 0 < t.quantity lot) :
    t.quantity lot ≤ t'.quantity lot :=
  floorTo_mono hlot (amount_mono h (hpos.trans_le (floorTo_le hlot)))

end

end Terms

end StratTrader.Foundation
