import Mathlib.Algebra.BigOperators.Group.List.Basic
import Mathlib.Algebra.Field.Basic

/-!
# Compounding

A value that grows by one factor after another, and the factors from each value of a list to the next. What is
left of the factors of a list of values is the last value over the first.

## What is proved

* `getElem?_running`, `length_running`: the value behind so many factors.
* `running_step`: each value is the one before times its factor.
* `prod_growths`: the factors of a list telescope.
-/

namespace StratTrader.Foundation

universe u

/-! ### Running products -/

section
variable {M : Type u} [Monoid M]

/-- The values behind each factor, from a value on. -/
def running (c : M) : List M → List M
  | [] => []
  | x :: xs => c * x :: running (c * x) xs

@[simp] theorem length_running (c : M) (xs : List M) : (running c xs).length = xs.length := by
  induction xs generalizing c with
  | nil => rfl
  | cons x xs ih => exact congrArg Nat.succ (ih (c * x))

/-- The value behind so many factors. -/
theorem getElem?_running (c : M) (xs : List M) {n : ℕ} (hn : n < xs.length) :
    (running c xs)[n]? = some (c * (xs.take (n + 1)).prod) := by
  induction xs generalizing c n with
  | nil => exact absurd hn (Nat.not_lt_zero n)
  | cons x xs ih =>
    cases n with
    | zero => simp [running]
    | succ n =>
      rw [List.length_cons] at hn
      have hrest := ih (c * x) (n := n) (by omega)
      rw [List.take_succ_cons, List.prod_cons, ← mul_assoc]
      exact hrest

/-- The value before a factor. -/
def valueBefore (c : M) (values : List M) (n : ℕ) : M := if n = 0 then c else values.getD (n - 1) c

/-- The value before a factor is what the factors before it come to. -/
theorem valueBefore_running (c : M) (xs : List M) {n : ℕ} (hn : n ≤ xs.length) :
    valueBefore c (running c xs) n = c * (xs.take n).prod := by
  unfold valueBefore
  cases n with
  | zero => simp
  | succ n =>
    rw [if_neg (Nat.succ_ne_zero n), Nat.succ_sub_one, List.getD_eq_getElem?_getD, getElem?_running c xs hn]
    rfl

/-- **Each value is the one before times its factor.** -/
theorem running_step (c : M) (xs : List M) {n : ℕ} {x : M} (hx : xs[n]? = some x) :
    (running c xs)[n]? = some (valueBefore c (running c xs) n * x) := by
  obtain ⟨hn, rfl⟩ := List.getElem?_eq_some_iff.mp hx
  rw [getElem?_running c xs hn, valueBefore_running c xs hn.le, List.prod_take_succ, mul_assoc]

end

/-- A factor on every value is one on the first. -/
theorem running_mul {N : Type u} [CommMonoid N] (c d : N) (xs : List N) :
    (running c xs).map (· * d) = running (c * d) xs := by
  induction xs generalizing c with
  | nil => rfl
  | cons x xs ih =>
    unfold running
    rw [List.map_cons, ih, mul_right_comm]

/-! ### Growth -/

section
variable {K : Type u} [Field K]

/-- The factors from each value to the next. -/
def growths (values : List K) : List K := List.zipWith (fun a b => b / a) values values.tail

/-- **The factors telescope.** -/
theorem prod_growths {a b : K} {values : List K} (hne : ∀ v ∈ a :: values, v ≠ 0)
    (hlast : (a :: values).getLast? = some b) : (growths (a :: values)).prod = b / a := by
  induction values generalizing a with
  | nil =>
    cases hlast
    exact (div_self (hne a List.mem_cons_self)).symm
  | cons v values ih =>
    have ha : a ≠ 0 := hne a List.mem_cons_self
    obtain ⟨hv, -⟩ := List.forall_mem_cons.mp (List.forall_mem_cons.mp hne).2
    rw [List.getLast?_cons_cons] at hlast
    have hrest := ih (List.forall_mem_cons.mp hne).2 hlast
    have hcons : growths (a :: v :: values) = v / a :: growths (v :: values) := rfl
    rw [hcons, List.prod_cons, hrest, mul_comm, div_mul_div_cancel₀ hv]

end

end StratTrader.Foundation
