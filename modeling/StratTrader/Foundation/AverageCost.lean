import Mathlib.Algebra.Order.Field.Basic
import Mathlib.Algebra.BigOperators.Group.List.Basic
import Mathlib.Tactic.Linarith
import Mathlib.Tactic.FieldSimp
import Mathlib.Tactic.Ring

/-!
# Average cost

A holding of one thing, of any sign, with the average cost of its units, and what a fill makes of
it: over any ordered field. A fill is a signed quantity and a price.

## What is proved

* `Holding.Fill.between`: the average lies between two of the prices that the holding was bought at.
* `Holding.Fill.cash`: what a fill costs is what it leaves at cost, less what was held at cost, less
  what it realises.
-/

namespace StratTrader.Foundation

/-- A holding. -/
@[ext]
structure Holding (K : Type*) where
  /-- The units, negative for a short holding. -/
  qty : K
  /-- The average cost of a unit. -/
  avg : K

namespace Holding

section
variable {K : Type*} [Field K] [LinearOrder K]

/-- What a fill of `d` units at the price `p` makes of a holding. -/
inductive Fill (h : Holding K) (d p : K) : Holding K → Prop where
  /-- Nothing was held. -/
  | opens (hflat : h.qty = 0) : Fill h d p ⟨d, p⟩
  /-- The holding grows: the average is weighted. -/
  | adds (hside : 0 < h.qty * d) : Fill h d p ⟨h.qty + d, (h.avg * |h.qty| + p * |d|) / |h.qty + d|⟩
  /-- The holding shrinks. -/
  | reduces (hagainst : h.qty * d < 0) (hleft : 0 < h.qty * (h.qty + d)) : Fill h d p ⟨h.qty + d, h.avg⟩
  /-- The holding is closed. -/
  | closes (hheld : h.qty ≠ 0) (hnet : h.qty + d = 0) : Fill h d p ⟨0, 0⟩
  /-- The holding changes its sign. -/
  | flips (hcross : h.qty * (h.qty + d) < 0) : Fill h d p ⟨h.qty + d, p⟩

/-- The units of a holding that a fill closes, with the sign of the holding. -/
def closed (qty d : K) : K :=
  if 0 < qty ∧ d < 0 then min qty (-d) else if qty < 0 ∧ 0 < d then -min (-qty) d else 0

/-- The prices of the fills in the direction of the holding since it was last flat or of the other sign. -/
def prices (qty d p : K) (before : List K) : List K :=
  if qty + d = 0 then []
  else if 0 < (qty + d) * d then if 0 < qty * d then before ++ [p] else [p]
  else before

/-- A cost between two prices. -/
def Between (prices : List K) (x : K) : Prop := ∃ lo ∈ prices, ∃ hi ∈ prices, lo ≤ x ∧ x ≤ hi

theorem closed_of_flat (d : K) : closed 0 d = 0 := by
  unfold closed
  rw [if_neg fun hs => lt_irrefl _ hs.1, if_neg fun hs => lt_irrefl _ hs.1]

theorem Fill.qty {h h' : Holding K} {d p : K} (hfill : h.Fill d p h') : h'.qty = h.qty + d := by
  cases hfill with
  | opens hflat => rw [hflat, zero_add]
  | adds _ => rfl
  | reduces _ _ => rfl
  | closes _ hnet => exact hnet.symm
  | flips _ => rfl

/-- The holding behind a fill. -/
def fill (h : Holding K) (d p : K) : Holding K where
  qty := h.qty + d
  avg :=
    if h.qty + d = 0 then 0
    else if 0 < h.qty * d then (h.avg * |h.qty| + p * |d|) / |h.qty + d|
    else if 0 < h.qty * (h.qty + d) then h.avg
    else p

/-- A fill of nothing. -/
theorem fill_of_flat {h : Holding K} (hflat : h.qty = 0) {d : K} (hd : d ≠ 0) (p : K) : h.fill d p = ⟨d, p⟩ := by
  unfold fill
  rw [hflat, zero_add, zero_mul, if_neg hd, if_neg (lt_irrefl _), if_neg (lt_irrefl _)]

/-- What the average was of nothing makes no difference. -/
theorem fill_congr {h k : Holding K} (hqty : k.qty = h.qty) (havg : h.qty ≠ 0 → k.avg = h.avg) (d p : K) :
    k.fill d p = h.fill d p := by
  unfold fill
  rw [hqty]
  by_cases hflat : h.qty = 0
  · rw [hflat, zero_mul, zero_mul, if_neg (lt_irrefl _), if_neg (lt_irrefl _), if_neg (lt_irrefl _),
      if_neg (lt_irrefl _)]
  · rw [havg hflat]

/-- The holding behind a run of fills, each a signed quantity and a price. -/
def after (h : Holding K) : List (K × K) → Holding K
  | [] => h
  | l :: ls => (h.fill l.1 l.2).after ls

/-- The prices of a run. -/
def pricesAfter (qty : K) (before : List K) : List (K × K) → List K
  | [] => before
  | l :: ls => pricesAfter (qty + l.1) (prices qty l.1 l.2 before) ls

/-- What a run realises: each unit that is closed, at the price of the fill less the average it was held at. -/
def realised (h : Holding K) : List (K × K) → K
  | [] => 0
  | l :: ls => closed h.qty l.1 * (l.2 - h.avg) + (h.fill l.1 l.2).realised ls

theorem after_append (h : Holding K) (ls ms : List (K × K)) : h.after (ls ++ ms) = (h.after ls).after ms := by
  induction ls generalizing h with
  | nil => rfl
  | cons l ls ih => exact ih _

/-- Two holdings that agree, but for the average of nothing, do so behind a run. -/
theorem after_congr {h k : Holding K} (hqty : k.qty = h.qty) (havg : h.qty ≠ 0 → k.avg = h.avg) (legs : List (K × K)) :
    (k.after legs).qty = (h.after legs).qty ∧ ((h.after legs).qty ≠ 0 → (k.after legs).avg = (h.after legs).avg) := by
  cases legs with
  | nil => exact ⟨hqty, havg⟩
  | cons l ls =>
    unfold after
    rw [fill_congr hqty havg]
    exact ⟨rfl, fun _ => rfl⟩

end

/-! ### Signs -/

section
variable {K : Type*} [Field K] [LinearOrder K] [IsStrictOrderedRing K]

theorem closed_of_side {q d : K} (h : 0 < q * d) : closed q d = 0 := by
  unfold closed
  rw [if_neg fun hs => absurd h (mul_neg_of_pos_of_neg hs.1 hs.2).le.not_gt,
    if_neg fun hs => absurd h (mul_neg_of_neg_of_pos hs.1 hs.2).le.not_gt]

/-- A fill against the holding that does not cross zero closes what it is of. -/
theorem closed_of_left {q d : K} (hagainst : q * d < 0) (hleft : 0 ≤ q * (q + d)) : closed q d = -d := by
  unfold closed
  rcases mul_neg_iff.mp hagainst with ⟨hq, hd⟩ | ⟨hq, hd⟩
  · have hnet : 0 ≤ q + d := nonneg_of_mul_nonneg_right hleft hq
    rw [if_pos ⟨hq, hd⟩]
    exact min_eq_right (by linarith)
  · have hnet : q + d ≤ 0 := nonpos_of_mul_nonneg_right hleft hq
    rw [if_neg fun hs => hq.not_gt hs.1, if_pos ⟨hq, hd⟩]
    rw [min_eq_right (by linarith)]

/-- A fill that crosses zero closes all that was held. -/
theorem closed_of_cross {q d : K} (hcross : q * (q + d) < 0) : closed q d = q := by
  unfold closed
  rcases mul_neg_iff.mp hcross with ⟨hq, hnet⟩ | ⟨hq, hnet⟩
  · rw [if_pos ⟨hq, by linarith⟩]
    exact min_eq_left (by linarith)
  · rw [if_neg fun hs => hq.not_gt hs.1, if_pos ⟨hq, by linarith⟩]
    rw [min_eq_left (by linarith), neg_neg]

/-- Quantities of one sign add up in size. -/
theorem abs_add_of_side {q d : K} (h : 0 < q * d) : |q + d| = |q| + |d| := by
  rcases mul_pos_iff.mp h with ⟨hq, hd⟩ | ⟨hq, hd⟩
  · rw [abs_of_pos hq, abs_of_pos hd, abs_of_pos (add_pos hq hd)]
  · rw [abs_of_neg hq, abs_of_neg hd, abs_of_neg (add_neg hq hd), neg_add]

/-- A weighted average of two quantities of one sign, taken as often as both. -/
theorem weighted_mul {q d x y : K} (h : 0 < q * d) :
    (q + d) * ((x * |q| + y * |d|) / |q + d|) = q * x + d * y := by
  rcases mul_pos_iff.mp h with ⟨hq, hd⟩ | ⟨hq, hd⟩
  · have hnet : q + d ≠ 0 := (add_pos hq hd).ne'
    rw [abs_of_pos hq, abs_of_pos hd, abs_of_pos (add_pos hq hd)]
    field_simp
  · have hnet : q + d ≠ 0 := (add_neg hq hd).ne
    rw [abs_of_neg hq, abs_of_neg hd, abs_of_neg (add_neg hq hd)]
    field_simp
    ring

theorem le_weighted {q d x y lo : K} (h : 0 < q * d) (hx : lo ≤ x) (hy : lo ≤ y) :
    lo ≤ (x * |q| + y * |d|) / |q + d| := by
  have hnet : 0 < |q + d| := abs_pos.mpr fun hzero => by
    have hd : d = -q := by linarith
    rw [hd, mul_neg] at h
    linarith [mul_self_nonneg q]
  rw [le_div_iff₀ hnet, abs_add_of_side h, mul_add]
  exact add_le_add (mul_le_mul_of_nonneg_right hx (abs_nonneg q)) (mul_le_mul_of_nonneg_right hy (abs_nonneg d))

theorem weighted_le {q d x y hi : K} (h : 0 < q * d) (hx : x ≤ hi) (hy : y ≤ hi) :
    (x * |q| + y * |d|) / |q + d| ≤ hi := by
  have hle := le_weighted h (neg_le_neg hx) (neg_le_neg hy)
  rw [neg_mul, neg_mul, ← neg_add, neg_div] at hle
  exact neg_le_neg_iff.mp hle

/-! ### A fill -/

variable {h h' : Holding K} {d p : K}

/-- Behind a fill nothing is left at a cost if no units are. -/
theorem Fill.avg_of_flat (hd : d ≠ 0) (hfill : h.Fill d p h') (hflat : h'.qty = 0) : h'.avg = 0 := by
  cases hfill with
  | opens _ => exact absurd hflat hd
  | adds hside =>
    have hnet : 0 < h.qty * (h.qty + d) := by linarith [mul_self_nonneg h.qty, mul_add h.qty h.qty d]
    exact absurd hflat (right_ne_zero_of_mul hnet.ne')
  | reduces _ hleft => exact absurd hflat (right_ne_zero_of_mul hleft.ne')
  | closes _ _ => rfl
  | flips hcross => exact absurd hflat (right_ne_zero_of_mul hcross.ne)

/-- **The average stays between two of the prices.** -/
theorem Fill.between (hd : d ≠ 0) (hfill : h.Fill d p h') {before : List K} (hbefore : h.qty ≠ 0 → Between before h.avg)
    (hheld : h'.qty ≠ 0) : Between (prices h.qty d p before) h'.avg := by
  unfold prices
  rw [if_neg (hfill.qty ▸ hheld)]
  cases hfill with
  | opens hflat =>
    rw [hflat, zero_add, zero_mul, if_pos (mul_self_pos.mpr hd), if_neg (lt_irrefl _)]
    exact ⟨p, .head _, p, .head _, le_rfl, le_rfl⟩
  | adds hside =>
    have hsame : 0 < (h.qty + d) * d := by linarith [mul_self_nonneg d, add_mul h.qty d d]
    rw [if_pos hsame, if_pos hside]
    obtain ⟨lo, hlo, hi, hhi, hle, hle'⟩ := hbefore (left_ne_zero_of_mul hside.ne')
    -- the smaller of the old bound and the new price is a price too
    have hmem : ∀ x ∈ before, min x p ∈ before ++ [p] ∧ max x p ∈ before ++ [p] := fun x hx => by
      have hx' : x ∈ before ++ [p] := List.mem_append_left _ hx
      have hp : p ∈ before ++ [p] := List.mem_append_right _ (.head _)
      exact ⟨by rcases min_choice x p with h | h <;> rwa [h], by rcases max_choice x p with h | h <;> rwa [h]⟩
    exact ⟨min lo p, (hmem lo hlo).1, max hi p, (hmem hi hhi).2,
      le_weighted hside ((min_le_left lo p).trans hle) (min_le_right lo p),
      weighted_le hside (hle'.trans (le_max_left hi p)) (le_max_right hi p)⟩
  | reduces hagainst hleft =>
    have hother : ¬ 0 < (h.qty + d) * d := by
      rcases mul_neg_iff.mp hagainst with ⟨hq, hd⟩ | ⟨hq, hd⟩
      · exact (mul_neg_of_pos_of_neg (pos_of_mul_pos_right hleft hq.le) hd).not_gt
      · exact (mul_neg_of_neg_of_pos (neg_of_mul_pos_right hleft hq.le) hd).not_gt
    rw [if_neg hother]
    exact hbefore (left_ne_zero_of_mul hleft.ne')
  | closes _ _ => exact absurd rfl hheld
  | flips hcross =>
    have hagainst : h.qty * d < 0 := by linarith [mul_self_nonneg h.qty, mul_add h.qty h.qty d]
    have hsame : 0 < (h.qty + d) * d := by
      rcases mul_neg_iff.mp hcross with ⟨hq, hnet⟩ | ⟨hq, hnet⟩
      · exact mul_pos_of_neg_of_neg hnet (by linarith)
      · exact mul_pos hnet (by linarith)
    rw [if_pos hsame, if_neg hagainst.not_gt]
    exact ⟨p, .head _, p, .head _, le_rfl, le_rfl⟩

/-- **What a fill costs.** -/
theorem Fill.cash (hfill : h.Fill d p h') :
    -(d * p) = closed h.qty d * (p - h.avg) - (h'.qty * h'.avg - h.qty * h.avg) := by
  cases hfill with
  | opens hflat =>
    rw [hflat, closed_of_flat]
    ring
  | adds hside =>
    rw [closed_of_side hside, weighted_mul hside]
    ring
  | reduces hagainst hleft =>
    rw [closed_of_left hagainst hleft.le]
    ring
  | closes hheld hnet =>
    have hd : d = -h.qty := by linarith
    have hagainst : h.qty * d < 0 := by
      rw [hd, mul_neg]
      exact neg_neg_of_pos (mul_self_pos.mpr hheld)
    rw [closed_of_left hagainst (by rw [hnet, mul_zero]), hd]
    ring
  | flips hcross =>
    rw [closed_of_cross hcross]
    ring

/-- A fill that leaves less, on the same side, leaves the average. -/
theorem Fill.avg_of_less (hfill : h.Fill d p h') (hside : 0 < h.qty * h'.qty) (hless : |h'.qty| < |h.qty|) :
    h'.avg = h.avg := by
  cases hfill with
  | opens hflat => exact absurd hside (by rw [hflat, zero_mul]; exact lt_irrefl _)
  | adds hsame =>
    rw [abs_add_of_side hsame] at hless
    linarith [abs_nonneg d]
  | reduces _ _ => rfl
  | closes _ _ => exact absurd hside (by rw [mul_zero]; exact lt_irrefl _)
  | flips hcross => exact absurd hside hcross.not_gt

/-- **A fill leaves a holding.** -/
theorem fill_spec (h : Holding K) (p : K) (hd : d ≠ 0) : h.Fill d p (h.fill d p) := by
  by_cases hflat : h.qty = 0
  · rw [fill_of_flat hflat hd]
    exact .opens hflat
  unfold fill
  by_cases hnet : h.qty + d = 0
  · rw [hnet, if_pos rfl]
    exact .closes hflat hnet
  rw [if_neg hnet]
  rcases lt_or_gt_of_ne (mul_ne_zero hflat hd) with hagainst | hside
  · rw [if_neg hagainst.not_gt]
    rcases lt_or_gt_of_ne (mul_ne_zero hflat hnet) with hcross | hleft
    · rw [if_neg hcross.not_gt]
      exact .flips hcross
    · rw [if_pos hleft]
      exact .reduces hagainst hleft
  · rw [if_pos hside]
    exact .adds hside

/-! ### A run of fills -/

variable {legs : List (K × K)}

theorem avg_after_of_flat (hlegs : ∀ l ∈ legs, l.1 ≠ 0) (hsome : legs ≠ [] ∨ h.avg = 0)
    (hflat : (h.after legs).qty = 0) : (h.after legs).avg = 0 := by
  rcases List.eq_nil_or_concat legs with rfl | ⟨init, l, rfl⟩
  · exact hsome.resolve_left fun hne => hne rfl
  · rw [List.concat_eq_append, after_append] at hflat ⊢
    have hl : l.1 ≠ 0 := hlegs l (by rw [List.concat_eq_append]; exact List.mem_append_right _ (.head _))
    exact (fill_spec _ l.2 hl).avg_of_flat hl hflat

theorem between_after (hlegs : ∀ l ∈ legs, l.1 ≠ 0) {before : List K} (hbefore : h.qty ≠ 0 → Between before h.avg) :
    (h.after legs).qty ≠ 0 → Between (pricesAfter h.qty before legs) (h.after legs).avg := by
  induction legs generalizing h before with
  | nil => exact hbefore
  | cons l ls ih =>
    have hl : l.1 ≠ 0 := hlegs l (.head _)
    exact ih (fun m hm => hlegs m (.tail _ hm)) ((fill_spec h l.2 hl).between hl hbefore)

/-- **The cash of a run** is what it realises, less what is held at its end at cost and was not at its start. -/
theorem cash_after (hlegs : ∀ l ∈ legs, l.1 ≠ 0) : (legs.map fun l => -(l.1 * l.2)).sum =
    h.realised legs - ((h.after legs).qty * (h.after legs).avg - h.qty * h.avg) := by
  induction legs generalizing h with
  | nil =>
    rw [List.map_nil, List.sum_nil]
    exact (sub_eq_zero.mpr (sub_self _).symm).symm
  | cons l ls ih =>
    have hfill := (fill_spec h l.2 (hlegs l (.head _))).cash
    have hrest := @ih (h.fill l.1 l.2) fun m hm => hlegs m (.tail _ hm)
    rw [List.map_cons, List.sum_cons, hfill, hrest]
    rw [realised, after]
    ring

end

end Holding

end StratTrader.Foundation
