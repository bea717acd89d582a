import Mathlib.Algebra.Order.Ring.Defs
import Mathlib.Algebra.BigOperators.Group.List.Basic
import Mathlib.Data.List.Induction
import Mathlib.Tactic.Linarith

/-!
# Tallies of amounts that carry a running total

A source makes a sequence of positive amounts and reports each together with the
total up to and including it. A counter receives the reports in any order and any
number of times. It drops a report it has seen, adds the amount of one it has not,
and in both cases takes the report's total when that is larger.

What a counter ends with is told for reports with any totals, also such that are not
those of the amounts (`sum_run_le_iff`): a total, and the amounts not seen behind it.

The two rules agree only when the reports arrive in order. `sum_eq_iff` says so
exactly: the counter ends with the total if and only if the reports were first
delivered in the order in which they were made; otherwise it ends above it
(`total_lt_sum`). The argument is a potential: the counter's sum plus the amounts
not yet seen never decreases (`potential_mono`), starts at the total, and rises above
it the first time a report overtakes another.
-/

namespace StratTrader.Foundation

universe u v

/-! ### First deliveries -/

/-- The first deliveries of a list with one more element. -/
theorem eraseDups_concat {ι : Type u} [DecidableEq ι] (l : List ι) (i : ι) :
    (l ++ [i]).eraseDups = if i ∈ l then l.eraseDups else l.eraseDups ++ [i] := by
  rw [List.eraseDups_append]
  by_cases h : i ∈ l <;> simp [List.removeAll, h, List.eraseDups_cons]

theorem mem_eraseDups_iff {ι : Type u} [DecidableEq ι] {l : List ι} {i : ι} :
    i ∈ l.eraseDups ↔ i ∈ l := by
  induction l using List.reverseRecOn with
  | nil => simp
  | append_singleton l j ih =>
    rw [eraseDups_concat]
    split_ifs with h
    · rw [ih, List.mem_append, List.mem_singleton]
      exact ⟨Or.inl, fun hi => hi.elim id fun e => e ▸ h⟩
    · simp [ih]

/-- A beginning of a mapped list is a mapped beginning. -/
theorem prefix_concat_map {β : Type u} {γ : Type v} {f : β → γ} {p : List γ} {r : γ} {ds : List β}
    (h : p ++ [r] <+: ds.map f) : ∃ q d, q ++ [d] <+: ds ∧ q.map f = p ∧ f d = r := by
  obtain ⟨s, hs⟩ := h
  obtain ⟨l, rest, rfl, hl, -⟩ := List.map_eq_append_iff.mp hs.symm
  obtain ⟨q, last, rfl, hq, hlast⟩ := List.map_eq_append_iff.mp hl
  obtain ⟨d, rfl, hd⟩ := List.map_eq_singleton_iff.mp hlast
  exact ⟨q, d, List.prefix_append _ _, hq, hd⟩

/-! ### The counter -/

/-- A report of an amount, with the total up to and including it. -/
structure Report (ι : Type u) (α : Type v) where
  /-- Which amount this is. -/
  id : ι
  /-- The amount. -/
  amount : α
  /-- The total so far. -/
  total : α

/-- A counter: the reports seen, in the order of their first delivery, and the sum. -/
structure Tally (ι : Type u) (α : Type v) where
  /-- The reports seen. -/
  seen : List ι
  /-- The sum. -/
  sum : α

variable {ι : Type u} {α : Type v} [DecidableEq ι] [CommRing α] [LinearOrder α]

namespace Tally

/-- Receive a report. -/
def count (t : Tally ι α) (r : Report ι α) : Tally ι α :=
  if r.id ∈ t.seen then ⟨t.seen, max t.sum r.total⟩
  else ⟨t.seen ++ [r.id], max (t.sum + r.amount) r.total⟩

/-- Receive reports one after the other. -/
def run (ds : List (Report ι α)) : Tally ι α := ds.foldl count ⟨[], 0⟩

theorem run_concat (ds : List (Report ι α)) (d : Report ι α) :
    run (ds ++ [d]) = (run ds).count d := by
  simp [run]

/-- What is seen is what was delivered, in the order of first delivery. -/
theorem seen_run (ds : List (Report ι α)) : (run ds).seen = (ds.map Report.id).eraseDups := by
  induction ds using List.reverseRecOn with
  | nil => simp [run]
  | append_singleton ds d ih =>
    rw [run_concat, List.map_append, List.map_singleton, eraseDups_concat]
    unfold count
    rw [ih]
    simp only [mem_eraseDups_iff]
    split_ifs <;> rfl

end Tally

/-! ### The source -/

/-- The total of a list of amounts. -/
def amountOf (xs : List (ι × α)) : α := (xs.map Prod.snd).sum

omit [DecidableEq ι] [LinearOrder α] in
@[simp] theorem amountOf_nil : amountOf ([] : List (ι × α)) = 0 := rfl

omit [DecidableEq ι] [LinearOrder α] in
@[simp] theorem amountOf_cons (x : ι × α) (xs : List (ι × α)) :
    amountOf (x :: xs) = x.2 + amountOf xs := by
  simp [amountOf]

omit [DecidableEq ι] [LinearOrder α] in
@[simp] theorem amountOf_append (xs ys : List (ι × α)) :
    amountOf (xs ++ ys) = amountOf xs + amountOf ys := by
  simp [amountOf]

/-- The reports of the amounts `xs` when the total so far is `acc`. -/
def reportsFrom : α → List (ι × α) → List (Report ι α)
  | _, [] => []
  | acc, x :: xs => ⟨x.1, x.2, acc + x.2⟩ :: reportsFrom (acc + x.2) xs

omit [DecidableEq ι] [LinearOrder α] in
/-- A report is made after the amounts before it, and carries their total and its own. -/
theorem mem_reportsFrom {acc : α} {xs : List (ι × α)} {r : Report ι α} :
    r ∈ reportsFrom acc xs ↔
      ∃ l x u, xs = l ++ x :: u ∧ r = ⟨x.1, x.2, acc + amountOf l + x.2⟩ := by
  induction xs generalizing acc with
  | nil => simp [reportsFrom]
  | cons y ys ih =>
    simp only [reportsFrom, List.mem_cons, ih]
    constructor
    · rintro (rfl | ⟨l, x, u, rfl, rfl⟩)
      · exact ⟨[], y, ys, rfl, by simp⟩
      · exact ⟨y :: l, x, u, rfl, by simp [add_assoc]⟩
    · rintro ⟨l, x, u, h, rfl⟩
      cases l with
      | nil =>
        obtain ⟨rfl, rfl⟩ := List.cons.inj h
        exact Or.inl (by simp)
      | cons z l =>
        obtain ⟨rfl, rfl⟩ := List.cons.inj h
        exact Or.inr ⟨l, x, u, rfl, by simp [add_assoc]⟩

/-- The amounts not yet seen. -/
def unseen (xs : List (ι × α)) (seen : List ι) : α :=
  amountOf (xs.filter fun x => decide (x.1 ∉ seen))

omit [LinearOrder α] in
theorem unseen_eq_zero {xs : List (ι × α)} {seen : List ι} (h : ∀ x ∈ xs, x.1 ∈ seen) :
    unseen xs seen = 0 := by
  have : xs.filter (fun x => decide (x.1 ∉ seen)) = [] := by
    simpa [List.filter_eq_nil_iff] using fun a b hx => h (a, b) hx
  rw [unseen, this, amountOf_nil]

omit [LinearOrder α] in
/-- Once an amount is seen it leaves the unseen ones, and no other does. -/
theorem unseen_concat {xs : List (ι × α)} (hnd : (xs.map Prod.fst).Nodup) {x : ι × α} (hx : x ∈ xs)
    {seen : List ι} (hs : x.1 ∉ seen) : unseen xs seen = x.2 + unseen xs (seen ++ [x.1]) := by
  induction xs with
  | nil => cases hx
  | cons y ys ih =>
    rw [List.map_cons, List.nodup_cons] at hnd
    rcases List.mem_cons.mp hx with rfl | hx
    · have hrest : unseen ys seen = unseen ys (seen ++ [x.1]) := by
        unfold unseen
        congr 1
        apply List.filter_congr
        intro z hz
        have : z.1 ≠ x.1 := fun e => hnd.1 (e ▸ List.mem_map_of_mem hz)
        simp [this]
      have h1 : unseen (x :: ys) seen = x.2 + unseen ys seen := by simp [unseen, hs]
      have h2 : unseen (x :: ys) (seen ++ [x.1]) = unseen ys (seen ++ [x.1]) := by simp [unseen]
      rw [h1, h2, hrest]
    · have hne : y.1 ≠ x.1 := fun e => hnd.1 (e ▸ List.mem_map_of_mem hx)
      have := ih hnd.2 hx
      by_cases hy : y.1 ∈ seen
      · simpa [unseen, hy] using this
      · have h1 : unseen (y :: ys) seen = y.2 + unseen ys seen := by simp [unseen, hy]
        have h2 : unseen (y :: ys) (seen ++ [x.1]) = y.2 + unseen ys (seen ++ [x.1]) := by
          simp [unseen, hy, hne]
        rw [h1, h2, this, add_left_comm]

/-! ### The potential -/

section
variable [IsStrictOrderedRing α] {xs : List (ι × α)}

omit [LinearOrder α] [IsStrictOrderedRing α] in
theorem unseen_congr {seen seen' : List ι} (h : ∀ i, i ∈ seen ↔ i ∈ seen') : unseen xs seen = unseen xs seen' := by
  unfold unseen
  simp only [h]

/-- What the amounts must satisfy: distinct, and positive. -/
structure Amounts (xs : List (ι × α)) : Prop where
  nodup : (xs.map Prod.fst).Nodup
  pos : ∀ x ∈ xs, 0 < x.2

omit [DecidableEq ι] in
theorem Amounts.amountOf_nonneg (h : Amounts xs) (ys : List (ι × α)) (hy : ∀ y ∈ ys, y ∈ xs) :
    0 ≤ amountOf ys := by
  induction ys with
  | nil => simp
  | cons y ys ih =>
    have h1 := h.pos y (hy y List.mem_cons_self)
    have h2 := ih fun z hz => hy z (List.mem_cons_of_mem _ hz)
    rw [amountOf_cons]
    linarith

omit [DecidableEq ι] in
theorem Amounts.amountOf_pos (h : Amounts xs) (ys : List (ι × α)) (hy : ∀ y ∈ ys, y ∈ xs)
    (hne : ys ≠ []) : 0 < amountOf ys := by
  cases ys with
  | nil => exact absurd rfl hne
  | cons y ys =>
    have h1 := h.pos y (hy y List.mem_cons_self)
    have h2 := h.amountOf_nonneg ys fun z hz => hy z (List.mem_cons_of_mem _ hz)
    rw [amountOf_cons]
    linarith

/-- The counter's sum and the amounts not yet seen. -/
def potential (xs : List (ι × α)) (t : Tally ι α) : α := t.sum + unseen xs t.seen

/-- A report raises the potential to its total and the amounts not seen behind it. -/
theorem potential_count (hnd : (xs.map Prod.fst).Nodup) {r : Report ι α} (hr : (r.id, r.amount) ∈ xs) (t : Tally ι α) :
    potential xs (t.count r) = max (potential xs t) (r.total + unseen xs (t.count r).seen) := by
  unfold potential Tally.count
  split_ifs with hs
  · exact (max_add_add_right _ _ _).symm
  · rw [unseen_concat hnd hr hs, ← add_assoc]
    exact (max_add_add_right _ _ _).symm

/-- **The highest the potential gets.** -/
theorem potential_run_le_iff (hnd : (xs.map Prod.fst).Nodup) {ds : List (Report ι α)}
    (hds : ∀ d ∈ ds, (d.id, d.amount) ∈ xs) (bound : α) :
    potential xs (Tally.run ds) ≤ bound ↔
      amountOf xs ≤ bound ∧ ∀ p d, p ++ [d] <+: ds → d.total + unseen xs ((p ++ [d]).map Report.id) ≤ bound := by
  induction ds using List.reverseRecOn with
  | nil =>
    have hstart : potential xs (Tally.run ([] : List (Report ι α))) = amountOf xs := by
      simp [potential, Tally.run, unseen]
    rw [hstart]
    exact ⟨fun h => ⟨h, fun p d hp => absurd (List.prefix_nil.mp hp) (by simp)⟩, fun h => h.1⟩
  | append_singleton ds d ih =>
    have hseen : unseen xs ((Tally.run ds).count d).seen = unseen xs ((ds ++ [d]).map Report.id) := by
      rw [← Tally.run_concat, Tally.seen_run]
      exact unseen_congr fun i => mem_eraseDups_iff
    rw [Tally.run_concat, potential_count hnd (hds d (by simp)), max_le_iff, hseen,
      ih fun e he => hds e (List.mem_append_left _ he), and_assoc]
    refine and_congr_right fun _ => ⟨?_, fun h => ⟨fun p e hp => h p e (hp.trans (List.prefix_append _ _)), ?_⟩⟩
    · rintro ⟨hbefore, hlast⟩ p e hp
      -- the last delivery, or one before it
      rcases List.prefix_concat_iff.mp hp with heq | hp
      · obtain ⟨rfl, rfl⟩ := List.append_singleton_inj.mp heq
        exact hlast
      · exact hbefore p e hp
    · exact h ds d List.prefix_rfl

/-- **What the counter ends with** when every amount has been reported. -/
theorem sum_run_le_iff (hnd : (xs.map Prod.fst).Nodup) {ds : List (Report ι α)}
    (hds : ∀ d ∈ ds, (d.id, d.amount) ∈ xs) (hall : ∀ x ∈ xs, x.1 ∈ ds.map Report.id) (bound : α) :
    (Tally.run ds).sum ≤ bound ↔
      amountOf xs ≤ bound ∧ ∀ p d, p ++ [d] <+: ds → d.total + unseen xs ((p ++ [d]).map Report.id) ≤ bound := by
  have hzero : unseen xs (Tally.run ds).seen = 0 := by
    refine unseen_eq_zero fun x hx => ?_
    rw [Tally.seen_run, mem_eraseDups_iff]
    exact hall x hx
  rw [← potential_run_le_iff hnd hds, potential, hzero, add_zero]

/-- A report raises the sum, to its total at least. -/
theorem Tally.le_count {r : Report ι α} (hr : 0 ≤ r.amount) (t : Tally ι α) :
    t.sum ≤ (t.count r).sum ∧ r.total ≤ (t.count r).sum := by
  unfold Tally.count
  split_ifs
  · exact ⟨le_max_left _ _, le_max_right _ _⟩
  · exact ⟨(le_add_of_nonneg_right hr).trans (le_max_left _ _), le_max_right _ _⟩

/-- The sum does not fall. -/
theorem Tally.sum_run_mono {p ds : List (Report ι α)} (hds : ∀ d ∈ ds, 0 ≤ d.amount) (hp : p <+: ds) :
    (Tally.run p).sum ≤ (Tally.run ds).sum := by
  induction ds using List.reverseRecOn with
  | nil => rw [List.prefix_nil.mp hp]
  | append_singleton ds d ih =>
    rcases List.prefix_concat_iff.mp hp with rfl | hp
    · exact le_rfl
    · rw [Tally.run_concat]
      exact (ih (fun e he => hds e (List.mem_append_left _ he)) hp).trans (Tally.le_count (hds d (by simp)) _).1

/-- No total that has been reported is above the sum. -/
theorem Tally.total_le_sum_run {ds : List (Report ι α)} (hds : ∀ d ∈ ds, 0 ≤ d.amount) {d : Report ι α} (hd : d ∈ ds) :
    d.total ≤ (Tally.run ds).sum := by
  obtain ⟨p, q, rfl⟩ := List.append_of_mem hd
  have hstep := (Tally.le_count (hds d hd) (Tally.run p)).2
  rw [← Tally.run_concat] at hstep
  exact hstep.trans (Tally.sum_run_mono hds ⟨q, (List.append_cons p d q).symm⟩)

/-- Receiving a report of the source never lowers the potential. -/
theorem potential_mono (h : Amounts xs) {r : Report ι α} (hr : r ∈ reportsFrom 0 xs)
    (t : Tally ι α) : potential xs t ≤ potential xs (t.count r) := by
  obtain ⟨l, x, u, hxs, rfl⟩ := mem_reportsFrom.mp hr
  have hx : x ∈ xs := by rw [hxs]; exact List.mem_append_right _ List.mem_cons_self
  unfold potential Tally.count
  simp only
  split_ifs with hs
  · have := le_max_left t.sum (0 + amountOf l + x.2)
    linarith
  · rw [unseen_concat h.nodup hx hs]
    have := le_max_left (t.sum + x.2) (0 + amountOf l + x.2)
    linarith

/-- The counter has received the reports of an initial part of the amounts, in order. -/
def InOrder (xs : List (ι × α)) (t : Tally ι α) : Prop :=
  ∃ s v, xs = s ++ v ∧ t.seen = s.map Prod.fst ∧ t.sum = amountOf s

/-- A report has overtaken another: the potential has risen above the total. -/
def Overtaken (xs : List (ι × α)) (t : Tally ι α) : Prop :=
  amountOf xs < potential xs t ∧ ¬ t.seen <+: xs.map Prod.fst

omit [LinearOrder α] [IsStrictOrderedRing α] in
theorem unseen_of_prefix {s v : List (ι × α)} (hnd : ((s ++ v).map Prod.fst).Nodup) :
    unseen (s ++ v) (s.map Prod.fst) = amountOf v := by
  rw [List.map_append, List.nodup_append] at hnd
  have hs : s.filter (fun x => decide (x.1 ∉ s.map Prod.fst)) = [] := by
    apply List.filter_eq_nil_iff.mpr
    intro x hx
    simpa using ⟨x.2, hx⟩
  have hv : v.filter (fun x => decide (x.1 ∉ s.map Prod.fst)) = v := by
    apply List.filter_eq_self.mpr
    intro x hx
    rw [decide_eq_true_eq]
    exact fun hm => hnd.2.2 _ hm _ (List.mem_map_of_mem hx) rfl
  rw [unseen, List.filter_append, hs, hv, List.nil_append]

omit [IsStrictOrderedRing α] in
theorem seen_prefix_count (t : Tally ι α) (r : Report ι α) : t.seen <+: (t.count r).seen := by
  unfold Tally.count
  split_ifs
  · exact List.prefix_rfl
  · exact List.prefix_append _ _

omit [DecidableEq ι] [CommRing α] [LinearOrder α] [IsStrictOrderedRing α] in
/-- With distinct amounts, an amount stands at one place only. -/
theorem split_unique {l u s v : List (ι × α)} {x : ι × α} (hnd : ((l ++ x :: u).map Prod.fst).Nodup)
    (h : l ++ x :: u = s ++ x :: v) : l = s := by
  induction l generalizing s with
  | nil =>
    cases s with
    | nil => rfl
    | cons y s =>
      obtain ⟨rfl, rfl⟩ := List.cons.inj h
      simp at hnd
  | cons z l ih =>
    cases s with
    | nil =>
      obtain ⟨rfl, rfl⟩ := List.cons.inj h
      simp at hnd
    | cons y s =>
      obtain rfl := (List.cons.inj h).1
      rw [List.cons_append, List.map_cons, List.nodup_cons] at hnd
      rw [ih hnd.2 (List.cons.inj h).2]

/-- A report that has been seen changes nothing: its total is at most the sum. -/
theorem count_seen (h : Amounts xs) {t : Tally ι α} {l u v : List (ι × α)} {x : ι × α}
    (hxs : xs = (l ++ x :: u) ++ v) (hseen : t.seen = (l ++ x :: u).map Prod.fst)
    (hsum : t.sum = amountOf (l ++ x :: u)) : t.count ⟨x.1, x.2, amountOf l + x.2⟩ = t := by
  have hmem : x.1 ∈ t.seen := by rw [hseen]; simp
  have hnn := h.amountOf_nonneg u fun y hy => by rw [hxs]; simp [hy]
  have hle : amountOf l + x.2 ≤ t.sum := by
    rw [hsum, amountOf_append, amountOf_cons]
    linarith
  simp only [Tally.count, if_pos hmem, max_eq_left hle]

/-- A report that leaves the gap `g` overtakes: the potential counts the gap twice. -/
theorem overtaken_of_gap (h : Amounts xs) {t : Tally ι α} {s g u : List (ι × α)} {x : ι × α}
    (hxs : xs = s ++ (g ++ x :: u)) (hg : g ≠ []) (hx1 : x.1 ∉ s.map Prod.fst)
    (hcount : t.count ⟨x.1, x.2, amountOf (s ++ g) + x.2⟩ =
      ⟨s.map Prod.fst ++ [x.1], max (amountOf s + x.2) (amountOf (s ++ g) + x.2)⟩) :
    Overtaken xs (t.count ⟨x.1, x.2, amountOf (s ++ g) + x.2⟩) := by
  have hnd := h.nodup
  rw [hcount]
  refine ⟨?_, ?_⟩
  · have hpos := h.amountOf_pos g (fun y hy => by rw [hxs]; simp [hy]) hg
    have hun : unseen xs (s.map Prod.fst) = amountOf (g ++ x :: u) := by
      rw [hxs]
      exact unseen_of_prefix (hxs ▸ hnd)
    rw [unseen_concat hnd (by rw [hxs]; simp) hx1, amountOf_append, amountOf_cons] at hun
    have hmax := le_max_right (amountOf s + x.2) (amountOf (s ++ g) + x.2)
    rw [amountOf_append] at hmax
    unfold potential
    rw [hxs, amountOf_append, amountOf_append, amountOf_cons, ← hxs]
    simp only [amountOf_append]
    linarith
  · -- the first of the gap stands where the report's identifier would have to
    obtain ⟨a, g, rfl⟩ := List.exists_cons_of_ne_nil hg
    rintro ⟨w, hw⟩
    rw [hxs, List.map_append, List.append_assoc, List.append_right_inj] at hw
    have hax : a.1 = x.1 := by simpa using (List.cons.inj hw).1.symm
    rw [hxs, List.map_append, List.nodup_append] at hnd
    have := hnd.2.1
    simp [hax] at this

/-- A report that arrives in order keeps the order, a repeated one changes nothing, and
one that leaves a gap overtakes. -/
theorem InOrder.count (h : Amounts xs) {r : Report ι α} (hr : r ∈ reportsFrom 0 xs)
    {t : Tally ι α} (ht : InOrder xs t) : InOrder xs (t.count r) ∨ Overtaken xs (t.count r) := by
  obtain ⟨s, v, hxs, hseen, hsum⟩ := ht
  obtain ⟨l, x, u, hsplit, rfl⟩ := mem_reportsFrom.mp hr
  have hnd := h.nodup
  have hx : x ∈ s ++ v := by rw [← hxs, hsplit]; simp
  rw [zero_add]
  by_cases hxs' : x ∈ s
  · obtain ⟨l', u', rfl⟩ := List.append_of_mem hxs'
    have he : l ++ x :: u = l' ++ x :: (u' ++ v) := by rw [← hsplit, hxs]; simp
    obtain rfl : l = l' := split_unique (hsplit ▸ hnd) he
    rw [count_seen h hxs hseen hsum]
    exact Or.inl ⟨_, v, hxs, hseen, hsum⟩
  · -- new: the amounts before it that are not yet seen are the gap
    have hxv : x ∈ v := (List.mem_append.mp hx).resolve_left hxs'
    obtain ⟨g, u', rfl⟩ := List.append_of_mem hxv
    have he : l ++ x :: u = (s ++ g) ++ x :: u' := by rw [← hsplit, hxs]; simp
    obtain rfl : l = s ++ g := split_unique (hsplit ▸ hnd) he
    have hx1 : x.1 ∉ s.map Prod.fst := by
      intro hm
      rw [hxs, List.map_append, List.nodup_append] at hnd
      exact hnd.2.2 _ hm x.1 (by simp) rfl
    have hcount : t.count ⟨x.1, x.2, amountOf (s ++ g) + x.2⟩ =
        ⟨s.map Prod.fst ++ [x.1], max (amountOf s + x.2) (amountOf (s ++ g) + x.2)⟩ := by
      simp only [Tally.count, hseen, if_neg hx1, hsum]
    by_cases hg : g = []
    · subst hg
      rw [hcount]
      exact Or.inl ⟨s ++ [x], u', by rw [hxs]; simp, by simp, by simp⟩
    · exact Or.inr (overtaken_of_gap h hxs hg hx1 hcount)

/-- Once a report has overtaken another the tally stays overtaken. -/
theorem Overtaken.count (h : Amounts xs) {r : Report ι α} (hr : r ∈ reportsFrom 0 xs)
    {t : Tally ι α} (ht : Overtaken xs t) : Overtaken xs (t.count r) :=
  ⟨ht.1.trans_le (potential_mono h hr t), fun hp => ht.2 ((seen_prefix_count t r).trans hp)⟩

theorem inOrder_or_overtaken (h : Amounts xs) {ds : List (Report ι α)}
    (hds : ∀ d ∈ ds, d ∈ reportsFrom 0 xs) :
    InOrder xs (Tally.run ds) ∨ Overtaken xs (Tally.run ds) := by
  induction ds using List.reverseRecOn with
  | nil => exact Or.inl ⟨[], xs, rfl, rfl, rfl⟩
  | append_singleton ds d ih =>
    have hd := hds d (List.mem_append_right _ (List.mem_singleton_self d))
    rw [Tally.run_concat]
    rcases ih fun e he => hds e (List.mem_append_left _ he) with ih | ih
    · exact ih.count h hd
    · exact Or.inr (ih.count h hd)

/-- The sum is right as long as the first deliveries are in order. -/
theorem inOrder_of_prefix (h : Amounts xs) {ds : List (Report ι α)}
    (hds : ∀ d ∈ ds, d ∈ reportsFrom 0 xs)
    (hp : (ds.map Report.id).eraseDups <+: xs.map Prod.fst) : InOrder xs (Tally.run ds) := by
  refine (inOrder_or_overtaken h hds).resolve_right fun ho => ho.2 ?_
  rw [Tally.seen_run]
  exact hp

theorem eraseDups_prefix {l m : List ι} (h : l <+: m) : l.eraseDups <+: m.eraseDups := by
  obtain ⟨w, rfl⟩ := h
  rw [List.eraseDups_append]
  exact List.prefix_append _ _

/-- **In order, the sum never exceeds the total.** -/
theorem sum_le_of_inOrder (h : Amounts xs) {ds : List (Report ι α)}
    (hds : ∀ d ∈ ds, d ∈ reportsFrom 0 xs)
    (hp : (ds.map Report.id).eraseDups = xs.map Prod.fst) {p : List (Report ι α)} (hpre : p <+: ds) :
    (Tally.run p).sum ≤ amountOf xs := by
  have hpm : (p.map Report.id).eraseDups <+: xs.map Prod.fst :=
    hp ▸ eraseDups_prefix (hpre.map Report.id)
  obtain ⟨s, v, hxs, -, hsum⟩ :=
    inOrder_of_prefix h (fun d hd => hds d (hpre.subset hd)) hpm
  have hnn := h.amountOf_nonneg v fun y hy => by rw [hxs]; exact List.mem_append_right _ hy
  rw [hsum, hxs, amountOf_append]
  linarith

omit [IsStrictOrderedRing α] in
/-- When every report has been delivered, the potential is the sum. -/
theorem potential_of_all {ds : List (Report ι α)} (hall : ∀ r ∈ reportsFrom 0 xs, r ∈ ds) :
    potential xs (Tally.run ds) = (Tally.run ds).sum := by
  unfold potential
  rw [unseen_eq_zero, add_zero]
  intro x hx
  obtain ⟨l, u, hxs⟩ := List.append_of_mem hx
  have := hall _ (mem_reportsFrom.mpr ⟨l, x, u, hxs, rfl⟩)
  rw [Tally.seen_run, mem_eraseDups_iff]
  exact List.mem_map.mpr ⟨_, this, rfl⟩

/-- **Out of order, the counter ends above the total.** -/
theorem total_lt_sum (h : Amounts xs) {ds : List (Report ι α)}
    (hds : ∀ d ∈ ds, d ∈ reportsFrom 0 xs) (hall : ∀ r ∈ reportsFrom 0 xs, r ∈ ds)
    (hp : (ds.map Report.id).eraseDups ≠ xs.map Prod.fst) :
    amountOf xs < (Tally.run ds).sum := by
  rcases inOrder_or_overtaken h hds with ⟨s, v, hxs, hseen, -⟩ | ho
  · -- all is seen, so the initial part is the whole
    exfalso
    cases v with
    | nil =>
      rw [Tally.seen_run, ← List.append_nil s, ← hxs] at hseen
      exact hp hseen
    | cons x u =>
      have hx := hall _ (mem_reportsFrom.mpr ⟨s, x, u, hxs, rfl⟩)
      have hm : x.1 ∈ (Tally.run ds).seen := by
        rw [Tally.seen_run, mem_eraseDups_iff]
        exact List.mem_map.mpr ⟨_, hx, rfl⟩
      have hnd := h.nodup
      rw [hxs, List.map_append, List.nodup_append] at hnd
      exact hnd.2.2 _ (hseen ▸ hm) x.1 (by simp) rfl
  · rw [← potential_of_all hall]
    exact ho.1

/-- **The exact condition**: the counter ends with the total if and only if the first
deliveries were in order. -/
theorem sum_eq_iff (h : Amounts xs) {ds : List (Report ι α)}
    (hds : ∀ d ∈ ds, d ∈ reportsFrom 0 xs) (hall : ∀ r ∈ reportsFrom 0 xs, r ∈ ds) :
    (Tally.run ds).sum = amountOf xs ↔ (ds.map Report.id).eraseDups = xs.map Prod.fst := by
  constructor
  · intro hs
    by_contra hp
    exact (total_lt_sum h hds hall hp).ne' hs
  · intro hp
    refine le_antisymm (sum_le_of_inOrder h hds hp List.prefix_rfl) ?_
    have hm := inOrder_of_prefix h hds (hp ▸ List.prefix_rfl)
    obtain ⟨s, v, hxs, hseen, hsum⟩ := hm
    have hv : v = [] := by
      rw [Tally.seen_run, hp, hxs, List.map_append, List.append_right_eq_self] at hseen
      exact List.map_eq_nil_iff.mp hseen
    rw [hsum, hxs, hv, List.append_nil]

end

end StratTrader.Foundation
