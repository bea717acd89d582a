import Mathlib.Data.List.Forall2
import Mathlib.Data.List.Induction

/-!
# Hash chains

Rows of which each names the digest of the row before, and carries a digest of its own that
the digest before and the row determine.

## What is proved

* `linked_append`: a chain is cut anywhere into two, the second of which starts from the last
  digest of the first.
* `Linked.same`: where a digest tells what it was made of, and none is the one the chain starts
  from, chains that end in the same digest hold the same rows.
* `Linked.self_ne_head`: nor does a row then have the digest that it goes on from.
-/

namespace StratTrader.Foundation

/-- How the rows of a chain are bound to digests. -/
structure Chain (ρ δ : Type*) where
  /-- The digest of the row before, as the row names it. -/
  prev : ρ → δ
  /-- The digest of the row, as the row names it. -/
  self : ρ → δ
  /-- With this digest before it, the row has this one. -/
  Seals : δ → ρ → δ → Prop

namespace Chain

variable {ρ δ : Type*} (C : Chain ρ δ)

/-- The rows form a chain that starts from the digest. -/
def Linked : δ → List ρ → Prop
  | _, [] => True
  | d, row :: rows => C.prev row = d ∧ C.Seals d row (C.self row) ∧ Linked (C.self row) rows

/-- The last digest of rows that start from a digest. -/
def head : δ → List ρ → δ
  | d, [] => d
  | _, row :: rows => head (C.self row) rows

variable {C} {d : δ} {rows rows' : List ρ}

theorem head_append : C.head d (rows ++ rows') = C.head (C.head d rows) rows' := by
  induction rows generalizing d with
  | nil => rfl
  | cons row rows ih => exact ih

/-- The last digest is the one of the last row. -/
theorem head_concat (row : ρ) : C.head d (rows ++ [row]) = C.self row := by
  rw [head_append]
  rfl

/-- **A chain can be cut anywhere.** -/
theorem linked_append : C.Linked d (rows ++ rows') ↔ C.Linked d rows ∧ C.Linked (C.head d rows) rows' := by
  induction rows generalizing d with
  | nil => exact ⟨fun h => ⟨trivial, h⟩, fun h => h.2⟩
  | cons row rows ih =>
    rw [List.cons_append, Linked, ih, Linked, head]
    constructor
    · rintro ⟨hprev, hself, hrows, hrest⟩
      exact ⟨⟨hprev, hself, hrows⟩, hrest⟩
    · rintro ⟨⟨hprev, hself, hrows⟩, hrest⟩
      exact ⟨hprev, hself, hrows, hrest⟩

/-- A row that is added goes on from the last digest. -/
theorem linked_concat (row : ρ) : C.Linked d (rows ++ [row]) ↔
    C.Linked d rows ∧ C.prev row = C.head d rows ∧ C.Seals (C.head d rows) row (C.self row) := by
  rw [linked_append]
  exact and_congr_right fun _ => ⟨fun h => ⟨h.1, h.2.1⟩, fun h => ⟨h.1, h.2, trivial⟩⟩

/-- Every row of a chain has the digest that follows from the one it names. -/
theorem Linked.seals (h : C.Linked d rows) : ∀ row ∈ rows, C.Seals (C.prev row) row (C.self row) := by
  induction rows generalizing d with
  | nil => intro row hrow; cases hrow
  | cons first rows ih =>
    obtain ⟨hprev, hseals, hrest⟩ := h
    intro row hrow
    rcases List.mem_cons.mp hrow with rfl | hrow
    · rw [hprev]
      exact hseals
    · exact ih hrest row hrow

/-- The last digest of rows is that of rows with the same digests. -/
theorem head_congr (h : rows.map C.self = rows'.map C.self) : C.head d rows = C.head d rows' := by
  induction rows generalizing d rows' with
  | nil =>
    cases rows' with
    | nil => rfl
    | cons row' rows' => cases h
  | cons row rows ih =>
    cases rows' with
    | nil => cases h
    | cons row' rows' =>
      obtain ⟨hself, hrest⟩ := List.cons.inj h
      rw [head, head, hself, ih hrest]

/-- Among the rows of two chains, a digest tells what it was made of. -/
def Tells (C : Chain ρ δ) (Same : ρ → ρ → Prop) (rows rows' : List ρ) : Prop :=
  ∀ row ∈ rows, ∀ row' ∈ rows', C.Seals (C.prev row) row (C.self row) →
    C.Seals (C.prev row') row' (C.self row') → C.self row = C.self row' → C.prev row = C.prev row' ∧ Same row row'

theorem Tells.imp {Same Same' : ρ → ρ → Prop} (h : C.Tells Same rows rows') (himp : ∀ row row', Same row row' → Same' row row') :
    C.Tells Same' rows rows' := fun row hrow row' hrow' hseals hseals' hself =>
  (h row hrow row' hrow' hseals hseals' hself).imp_right (himp row row')

theorem Tells.mono {Same : ρ → ρ → Prop} {all all' : List ρ} (h : C.Tells Same all all')
    (hsub : rows ⊆ all) (hsub' : rows' ⊆ all') : C.Tells Same rows rows' :=
  fun row hrow row' hrow' => h row (hsub hrow) row' (hsub' hrow')

/-- **Chains that end in the same digest hold the same rows**, and as many. -/
theorem Linked.same {Same : ρ → ρ → Prop} (h : C.Linked d rows) (h' : C.Linked d rows')
    (hhead : C.head d rows = C.head d rows') (htells : C.Tells Same rows rows')
    (hstart : ∀ row ∈ rows, C.self row ≠ d) (hstart' : ∀ row ∈ rows', C.self row ≠ d) :
    List.Forall₂ Same rows rows' := by
  -- from the last rows back to the first
  induction rows using List.reverseRecOn generalizing rows' with
  | nil =>
    rcases List.eq_nil_or_concat rows' with rfl | ⟨front, last, rfl⟩
    · exact List.Forall₂.nil
    · rw [List.concat_eq_append, head_concat] at hhead
      exact absurd hhead.symm (hstart' last (by simp))
  | append_singleton front last ih =>
    rcases List.eq_nil_or_concat rows' with rfl | ⟨front', last', rfl⟩
    · rw [head_concat] at hhead
      exact absurd hhead (hstart last (by simp))
    · rw [List.concat_eq_append] at *
      rw [head_concat, head_concat] at hhead
      obtain ⟨hfront, hprev, hseals⟩ := (linked_concat last).mp h
      obtain ⟨hfront', hprev', hseals'⟩ := (linked_concat last').mp h'
      rw [← hprev] at hseals
      rw [← hprev'] at hseals'
      obtain ⟨hsamePrev, hsame⟩ := htells last (by simp) last' (by simp) hseals hseals' hhead
      have hheads : C.head d front = C.head d front' := by rw [← hprev, hsamePrev, hprev']
      have hbefore : List.Forall₂ Same front front' :=
        ih hfront hfront' hheads (htells.mono (by simp) (by simp))
          (fun row hrow => hstart row (by simp [hrow])) (fun row hrow => hstart' row (by simp [hrow]))
      exact List.rel_append hbefore (List.Forall₂.cons hsame List.Forall₂.nil)

/-- So no row has the digest that it goes on from. -/
theorem Linked.self_ne_head {row : ρ} (h : C.Linked d (rows ++ [row]))
    (htells : C.Tells (fun _ _ => True) (rows ++ [row]) (rows ++ [row])) (hstart : ∀ other ∈ rows ++ [row], C.self other ≠ d) :
    C.self row ≠ C.head d rows := by
  intro hself
  have hfront : C.Linked d rows := ((linked_concat row).mp h).1
  -- otherwise the chain would end as it does without the row
  have hsame := hfront.same h (by rw [head_concat, hself]) (htells.mono (by simp) (List.Subset.refl _))
    (fun other hother => hstart other (by simp [hother])) hstart
  have hlength := List.Forall₂.length_eq hsame
  simp at hlength

end Chain

end StratTrader.Foundation
