import Mathlib.Order.Lattice

/-!
# Loops that do not look ahead

A loop counts a clock up and keeps a state. What it publishes is a table with a cell for every
tick, and a log whose entries carry the time of the tick at which they were made. Where a step
changes the cell of its own tick only, and stamps what it logs with the time of that tick, all
that is published up to a tick is there as soon as that tick is over.

Two loops whose steps are the same up to a tick have then published the same up to it, whatever
their later steps do.

## What is proved

* `iterate_congr`: the steps up to a tick determine the state behind it.
* `Publishes.cell_iterate`, `Publishes.log_iterate`: what is published up to a tick stays.
* `Publishes.agree`: two loops with the same steps up to a tick publish the same up to it.
-/

namespace StratTrader.Foundation

variable {σ ο β τ : Type*}

/-- The state behind the first ticks. -/
def iterate (step : ℕ → σ → σ) (s : σ) : ℕ → σ
  | 0 => s
  | n + 1 => step n (iterate step s n)

theorem iterate_congr {step step' : ℕ → σ → σ} {n : ℕ} (h : ∀ i < n, step i = step' i) (s : σ) :
    iterate step s n = iterate step' s n := by
  induction n with
  | zero => rfl
  | succ n ih =>
    have hstep : step n = step' n := h n (Nat.lt_succ_self n)
    have hrest := ih fun i hi => h i (Nat.lt_succ_of_lt hi)
    unfold iterate
    rw [hstep, hrest]

/-- What a step does to the table and to the log. -/
structure Published (cell : σ → ℕ → β) (log : σ → List ο) (stamp : ο → τ) (i : ℕ) (time : τ) (s t : σ) : Prop where
  /-- The other cells stay. -/
  cells : ∀ j, j ≠ i → cell t j = cell s j
  /-- The log grows by entries of this time. -/
  entries : ∃ new, log t = log s ++ new ∧ ∀ x ∈ new, stamp x = time

namespace Published

variable {cell : σ → ℕ → β} {log : σ → List ο} {stamp : ο → τ} {i : ℕ} {time : τ} {s t u : σ}

/-- Nothing is published where the table and the log stay. -/
theorem of_eq (hcells : cell t = cell s) (hlog : log t = log s) : Published cell log stamp i time s t :=
  ⟨fun j _ => congrFun hcells j, [], hlog.trans (List.append_nil _).symm, fun _ h => nomatch h⟩

theorem trans (h : Published cell log stamp i time s t) (h' : Published cell log stamp i time t u) :
    Published cell log stamp i time s u := by
  obtain ⟨new, hnew, hstamps⟩ := h.entries
  obtain ⟨new', hnew', hstamps'⟩ := h'.entries
  refine ⟨fun j hj => (h'.cells j hj).trans (h.cells j hj), new ++ new', ?_, ?_⟩
  · rw [hnew', hnew, List.append_assoc]
  · intro x hx
    rcases List.mem_append.mp hx with hx | hx
    · exact hstamps x hx
    · exact hstamps' x hx

end Published

/-- Each of the first ticks publishes for itself only. -/
def Publishes (cell : σ → ℕ → β) (log : σ → List ο) (stamp : ο → τ) (clock : ℕ → τ) (step : ℕ → σ → σ) (n : ℕ) :
    Prop := ∀ i < n, ∀ s, Published cell log stamp i (clock i) s (step i s)

namespace Publishes

variable {cell : σ → ℕ → β} {log : σ → List ο} {stamp : ο → τ} {clock : ℕ → τ} {step step' : ℕ → σ → σ} {n i : ℕ}
  {s : σ}

/-- A cell is final behind its tick. -/
theorem cell_iterate (h : Publishes cell log stamp clock step n) (hi : i < n) :
    cell (iterate step s n) i = cell (iterate step s (i + 1)) i := by
  induction n with
  | zero => exact absurd hi (Nat.not_lt_zero i)
  | succ n ih =>
    rcases Nat.lt_succ_iff_lt_or_eq.mp hi with hlt | rfl
    · have hrest := ih (fun j hj => h j (Nat.lt_succ_of_lt hj)) hlt
      exact ((h n (Nat.lt_succ_self n) _).cells i (Nat.ne_of_lt hlt)).trans hrest
    · rfl

/-- What has been logged stays. -/
theorem log_grows (h : Publishes cell log stamp clock step n) (hi : i ≤ n) :
    log (iterate step s i) <+: log (iterate step s n) := by
  induction n with
  | zero =>
    obtain rfl := Nat.le_zero.mp hi
    exact List.prefix_rfl
  | succ n ih =>
    rcases Nat.lt_or_eq_of_le hi with hlt | rfl
    · obtain ⟨new, hnew, -⟩ := (h n (Nat.lt_succ_self n) (iterate step s n)).entries
      have hrest := ih (fun j hj => h j (Nat.lt_succ_of_lt hj)) (Nat.le_of_lt_succ hlt)
      exact hrest.trans ⟨new, hnew.symm⟩
    · exact List.prefix_rfl

variable [LinearOrder τ]

/-- Up to a tick, the log has no entry of a later time. -/
theorem stamp_le (h : Publishes cell log stamp clock step n) (hclock : ∀ i j, i < j → j < n → clock i < clock j)
    (h0 : log s = []) (hi : i < n) : ∀ x ∈ log (iterate step s (i + 1)), stamp x ≤ clock i := by
  induction i with
  | zero =>
    obtain ⟨new, hnew, hstamps⟩ := (h 0 hi s).entries
    rw [h0, List.nil_append] at hnew
    intro x hx
    unfold iterate iterate at hx
    rw [hnew] at hx
    exact (hstamps x hx).le
  | succ i ih =>
    obtain ⟨new, hnew, hstamps⟩ := (h (i + 1) hi (iterate step s (i + 1))).entries
    intro x hx
    unfold iterate at hx
    rw [hnew] at hx
    rcases List.mem_append.mp hx with hx | hx
    · exact (ih (Nat.lt_of_succ_lt hi) x hx).trans (hclock i (i + 1) (Nat.lt_succ_self i) hi).le
    · exact (hstamps x hx).le

/-- The entries up to the time of a tick are those that were there behind it. -/
theorem log_iterate (h : Publishes cell log stamp clock step n) (hclock : ∀ i j, i < j → j < n → clock i < clock j)
    (h0 : log s = []) (hi : i < n) :
    (log (iterate step s n)).filter (fun x => decide (stamp x ≤ clock i)) = log (iterate step s (i + 1)) := by
  induction n with
  | zero => exact absurd hi (Nat.not_lt_zero i)
  | succ n ih =>
    rcases Nat.lt_succ_iff_lt_or_eq.mp hi with hlt | rfl
    · have hrest := ih (fun j hj => h j (Nat.lt_succ_of_lt hj))
        (fun j k hjk hk => hclock j k hjk (Nat.lt_succ_of_lt hk)) hlt
      obtain ⟨new, hnew, hstamps⟩ := (h n (Nat.lt_succ_self n) (iterate step s n)).entries
      -- what the last tick logs is too late
      have hlate : new.filter (fun x => decide (stamp x ≤ clock i)) = [] := by
        rw [List.filter_eq_nil_iff]
        intro x hx
        rw [hstamps x hx, decide_eq_true_eq]
        exact (hclock i n hlt (Nat.lt_succ_self n)).not_ge
      calc (log (step n (iterate step s n))).filter (fun x => decide (stamp x ≤ clock i))
          = (log (iterate step s n)).filter (fun x => decide (stamp x ≤ clock i)) ++ [] := by
            rw [hnew, List.filter_append, hlate]
        _ = log (iterate step s (i + 1)) := by rw [List.append_nil, hrest]
    · refine List.filter_eq_self.mpr fun x hx => ?_
      exact decide_eq_true (h.stamp_le hclock h0 hi x hx)

/-- **Two loops with the same steps up to a tick publish the same up to it.** -/
theorem agree (h : Publishes cell log stamp clock step n) (h' : Publishes cell log stamp clock step' n)
    (hclock : ∀ i j, i < j → j < n → clock i < clock j) (h0 : log s = []) {t : ℕ} (ht : t < n)
    (hsteps : ∀ i ≤ t, step i = step' i) :
    (∀ i ≤ t, cell (iterate step s n) i = cell (iterate step' s n) i) ∧
      (log (iterate step s n)).filter (fun x => decide (stamp x ≤ clock t)) =
        (log (iterate step' s n)).filter (fun x => decide (stamp x ≤ clock t)) := by
  have hstate : ∀ i ≤ t, iterate step s (i + 1) = iterate step' s (i + 1) := fun i hi =>
    iterate_congr (fun j hj => hsteps j (Nat.le_trans (Nat.le_of_lt_succ hj) hi)) s
  refine ⟨fun i hi => ?_, ?_⟩
  · have hin : i < n := Nat.lt_of_le_of_lt hi ht
    rw [h.cell_iterate hin, h'.cell_iterate hin, hstate i hi]
  · rw [h.log_iterate hclock h0 ht, h'.log_iterate hclock h0 ht, hstate t (Nat.le_refl t)]

end Publishes

end StratTrader.Foundation
