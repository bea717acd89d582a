/-!
# Writes that are interrupted

Writes that are committed one by one, until one of them fails: what was written before it stays. Which one fails, and
how, is a plan.

## What is proved

* `writeAll_of_none`: where the plan has no failure, everything is written.
* `writeAll_of_some`: what is there behind a failure.
-/

namespace StratTrader.Foundation

universe u v w

variable {σ : Type u} {ω : Type v} {φ : Type w} {write : σ → ω → σ} {plan : Nat → Option φ}

/-- Some writes from the `i`-th one on, until one fails. -/
def writeAll (write : σ → ω → σ) (plan : Nat → Option φ) : Nat → List ω → σ → σ × Option φ
  | _, [], s => (s, none)
  | i, x :: xs, s =>
    match plan i with
    | some failure => (s, some failure)
    | none => writeAll write plan (i + 1) xs (write s x)

/-- Without a failure, everything is written. -/
theorem writeAll_of_none {i : Nat} {xs : List ω} (h : ∀ k < xs.length, plan (i + k) = none) (s : σ) :
    writeAll write plan i xs s = (xs.foldl write s, none) := by
  induction xs generalizing i s with
  | nil => rfl
  | cons x xs ih =>
    have hfirst : plan i = none := h 0 (Nat.succ_pos _)
    have hrest : ∀ k < xs.length, plan (i + 1 + k) = none := by
      intro k hk
      rw [Nat.add_assoc, Nat.add_comm 1 k]
      exact h (k + 1) (Nat.succ_lt_succ hk)
    rw [writeAll, hfirst]
    exact ih hrest (write s x)

/-- Behind the first failure, what comes before it is written. -/
theorem writeAll_of_some {i k : Nat} {xs : List ω} {failure : φ} (hk : k < xs.length)
    (hbefore : ∀ j < k, plan (i + j) = none) (hfails : plan (i + k) = some failure) (s : σ) :
    writeAll write plan i xs s = ((xs.take k).foldl write s, some failure) := by
  induction xs generalizing i k s with
  | nil => cases hk
  | cons x xs ih =>
    cases k with
    | zero =>
      have hfirst : plan i = some failure := hfails
      rw [writeAll, hfirst]
      rfl
    | succ k =>
      have hfirst : plan i = none := hbefore 0 (Nat.succ_pos _)
      have hshift (j : Nat) : i + 1 + j = i + (j + 1) := by omega
      rw [writeAll, hfirst]
      refine ih (Nat.lt_of_succ_lt_succ hk) (fun j hj => ?_) ?_ (write s x)
      · rw [hshift]
        exact hbefore (j + 1) (Nat.succ_lt_succ hj)
      · rw [hshift]
        exact hfails

/-- The plan has no failure for some steps, or a first one. -/
theorem exists_first_failure (plan : Nat → Option φ) (n : Nat) :
    (∀ k < n, plan k = none) ∨ ∃ k < n, ∃ failure, plan k = some failure ∧ ∀ j < k, plan j = none := by
  induction n with
  | zero => exact .inl nofun
  | succ n ih =>
    obtain hnone | ⟨k, hk, hfirst⟩ := ih
    · cases hplan : plan n with
      | none =>
        refine .inl fun k hk => ?_
        obtain hlt | rfl := Nat.lt_or_eq_of_le (Nat.le_of_lt_succ hk)
        · exact hnone k hlt
        · exact hplan
      | some failure => exact .inr ⟨n, Nat.lt_succ_self n, failure, hplan, hnone⟩
    · exact .inr ⟨k, Nat.lt_succ_of_lt hk, hfirst⟩

end StratTrader.Foundation
