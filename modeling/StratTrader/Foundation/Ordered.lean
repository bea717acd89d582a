import Mathlib.Data.List.Nodup
import Mathlib.Data.List.TakeDrop
import Mathlib.Data.List.Sort
import Mathlib.Order.OrderDual

/-!
# Rows in the order of their stamps

What a query with an `ORDER BY` gives. Where no two rows have the same stamp it is told by which rows there are, in
whatever order they are stored, and the newest rows, read from the other end, are the last ones.
-/

namespace StratTrader.Foundation

variable {α : Type*} {τ : Type*} [LinearOrder τ] {stamp : α → τ} {rows rows' : List α}

/-- The rows, the earliest first; rows with one stamp stay as they are. -/
def orderBy (stamp : α → τ) (rows : List α) : List α := rows.insertionSort fun a b => stamp a ≤ stamp b

/-- The rows, the latest first. -/
def orderByDesc (stamp : α → τ) (rows : List α) : List α := orderBy (fun a => OrderDual.toDual (stamp a)) rows

theorem orderBy_perm : (orderBy stamp rows).Perm rows := List.perm_insertionSort _ rows

@[simp] theorem mem_orderBy {a : α} : a ∈ orderBy stamp rows ↔ a ∈ rows := orderBy_perm.mem_iff

@[simp] theorem length_orderBy : (orderBy stamp rows).length = rows.length := orderBy_perm.length_eq

theorem orderBy_le : (orderBy stamp rows).Pairwise fun a b => stamp a ≤ stamp b := by
  have : IsTrans α fun a b => stamp a ≤ stamp b := ⟨fun _ _ _ => le_trans⟩
  have : Std.Total fun a b => stamp a ≤ stamp b := ⟨fun _ _ => le_total _ _⟩
  exact List.pairwise_insertionSort _ rows

theorem orderByDesc_le : (orderByDesc stamp rows).Pairwise fun a b => stamp b ≤ stamp a :=
  (orderBy_le : (orderBy (fun a => OrderDual.toDual (stamp a)) rows).Pairwise _)

/-- Rows with different stamps are in strict order. -/
theorem orderBy_lt (hnodup : (rows.map stamp).Nodup) :
    (orderBy stamp rows).Pairwise fun a b => stamp a < stamp b := by
  have hne : (orderBy stamp rows).Pairwise fun a b => stamp a ≠ stamp b := by
    have hmap : ((orderBy stamp rows).map stamp).Nodup := (orderBy_perm.map stamp).nodup_iff.mpr hnodup
    exact List.pairwise_map.mp hmap
  exact (orderBy_le.and hne).imp fun h => lt_of_le_of_ne h.1 h.2

/-- Rows in strict order are told by which there are. -/
theorem eq_of_pairwise_lt (hrows : rows.Pairwise fun a b => stamp a < stamp b)
    (hrows' : rows'.Pairwise fun a b => stamp a < stamp b) (hmem : ∀ a, a ∈ rows ↔ a ∈ rows') : rows = rows' := by
  have hperm : rows.Perm rows' :=
    (List.perm_ext_iff_of_nodup (hrows.imp fun h => ne_of_apply_ne stamp h.ne)
      (hrows'.imp fun h => ne_of_apply_ne stamp h.ne)).mpr hmem
  exact hperm.eq_of_pairwise (fun a b _ _ hab hba => absurd (hab.trans hba) (lt_irrefl _)) hrows hrows'

/-- **A query in order** is told by which rows there are. -/
theorem orderBy_congr (hrows : (rows.map stamp).Nodup) (hrows' : (rows'.map stamp).Nodup)
    (hmem : ∀ a, a ∈ rows ↔ a ∈ rows') : orderBy stamp rows = orderBy stamp rows' :=
  eq_of_pairwise_lt (orderBy_lt hrows) (orderBy_lt hrows') fun a => by rw [mem_orderBy, mem_orderBy, hmem]

theorem orderBy_eq_self (h : rows.Pairwise fun a b => stamp a < stamp b) : orderBy stamp rows = rows :=
  (h.imp fun hlt => hlt.le).insertionSort_eq

/-- **What comes first** is the earliest row, and of those with one stamp the first. -/
theorem orderBy_head {a : α} {rest : List α} (h : orderBy stamp rows = a :: rest) :
    ∃ before after, rows = before ++ a :: after ∧ (∀ b ∈ before, stamp a < stamp b) ∧
      ∀ b ∈ after, stamp a ≤ stamp b := by
  induction rows generalizing a rest with
  | nil => cases h
  | cons b rows ih =>
    have hcons : orderBy stamp (b :: rows) = (orderBy stamp rows).orderedInsert (fun a b => stamp a ≤ stamp b) b := rfl
    rw [hcons] at h
    cases hrest : orderBy stamp rows with
    | nil =>
      have hnil : rows = [] := by
        have hlength : (orderBy stamp rows).length = rows.length := length_orderBy
        rw [hrest] at hlength
        exact List.length_eq_zero_iff.mp hlength.symm
      rw [hrest, List.orderedInsert_nil] at h
      cases h
      rw [hnil]
      exact ⟨[], [], rfl, (fun d hd => nomatch hd), (fun d hd => nomatch hd)⟩
    | cons c cs =>
      obtain ⟨before, after, hrows, hbefore, hafter⟩ := ih hrest
      rw [hrest, List.orderedInsert_cons] at h
      split_ifs at h with hle
      · cases h
        refine ⟨[], rows, rfl, (fun d hd => nomatch hd), fun d hd => hle.trans ?_⟩
        rw [hrows] at hd
        rcases List.mem_append.mp hd with hd | hd
        · exact (hbefore d hd).le
        · rcases List.mem_cons.mp hd with rfl | hd
          · exact le_rfl
          · exact hafter d hd
      · cases h
        refine ⟨b :: before, after, by rw [hrows, List.cons_append], fun d hd => ?_, hafter⟩
        rcases List.mem_cons.mp hd with rfl | hd
        · exact not_le.mp hle
        · exact hbefore d hd

/-- The other end first is the order backwards. -/
theorem orderByDesc_eq_reverse (hnodup : (rows.map stamp).Nodup) :
    orderByDesc stamp rows = (orderBy stamp rows).reverse := by
  have hdual : (rows.map fun a => OrderDual.toDual (stamp a)).Nodup := hnodup
  have hlt : (orderByDesc stamp rows).reverse.Pairwise fun a b => stamp a < stamp b :=
    List.pairwise_reverse.mpr (orderBy_lt hdual)
  have hmem : ∀ a, a ∈ (orderByDesc stamp rows).reverse ↔ a ∈ orderBy stamp rows := by
    intro a
    rw [List.mem_reverse, orderByDesc, mem_orderBy, mem_orderBy]
  rw [← eq_of_pairwise_lt hlt (orderBy_lt hnodup) hmem, List.reverse_reverse]

/-- **The newest so many rows**, put back into order, are the last ones of the order. -/
theorem newest_eq_drop (hnodup : (rows.map stamp).Nodup) (n : ℕ) :
    ((orderByDesc stamp rows).take n).reverse = (orderBy stamp rows).drop ((orderBy stamp rows).length - n) := by
  rw [orderByDesc_eq_reverse hnodup, List.take_reverse, List.reverse_reverse]

/-- The rows before a limit are the first ones of the order. -/
theorem filter_lt_eq_take (h : rows.Pairwise fun a b => stamp a < stamp b) (limit : τ) :
    rows.filter (fun a => decide (stamp a < limit)) =
      rows.take (rows.filter fun a => decide (stamp a < limit)).length := by
  induction rows with
  | nil => rfl
  | cons a rows ih =>
    obtain ⟨hfirst, hrest⟩ := List.pairwise_cons.mp h
    by_cases ha : stamp a < limit
    · rw [List.filter_cons_of_pos (by simpa using ha), List.length_cons, List.take_succ_cons, ← ih hrest]
    · have hnone : rows.filter (fun b => decide (stamp b < limit)) = [] := by
        refine List.filter_eq_nil_iff.mpr fun b hb hlt => ha ?_
        exact (hfirst b hb).trans (of_decide_eq_true hlt)
      rw [List.filter_cons_of_neg (by simpa using ha), hnone]
      rfl

/-- The others are not. -/
theorem limit_le_of_mem_drop (h : rows.Pairwise fun a b => stamp a < stamp b) {limit : τ} {a : α}
    (ha : a ∈ rows.drop (rows.filter fun a => decide (stamp a < limit)).length) : limit ≤ stamp a := by
  induction rows with
  | nil => cases ha
  | cons b rows ih =>
    obtain ⟨hfirst, hrest⟩ := List.pairwise_cons.mp h
    by_cases hb : stamp b < limit
    · rw [List.filter_cons_of_pos (by simpa using hb), List.length_cons, List.drop_succ_cons] at ha
      exact ih hrest ha
    · have hlimit := not_lt.mp hb
      rcases List.mem_cons.mp (List.mem_of_mem_drop ha) with rfl | hrow
      · exact hlimit
      · exact hlimit.trans (hfirst a hrow).le

end StratTrader.Foundation
