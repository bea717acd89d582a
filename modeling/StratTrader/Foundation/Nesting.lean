import Mathlib.Data.List.Basic

/-!
# Elements that are opened and closed

A sequence of marks that open elements and close them. The elements that are open are a stack: a mark closes the one
that was opened last. The walk along the marks tells every element that was opened together with those around it.

## What is proved

* `walk_append`: marks are walked one sequence after another.
* `walk_closings`: what closes the elements of a stack from its top leaves those below.
* `WalksTo.append`, `WalksTo.unique`: two walks, one after the other, are one; and a walk goes one way.
-/

namespace StratTrader.Foundation

universe u

variable {ν : Type u}

/-- What a mark does. -/
inductive Mark (ν : Type u) where
  /-- It opens an element. -/
  | opening (name : ν)
  /-- It closes one. -/
  | closing (name : ν)
  deriving DecidableEq

/-- An element, as it was opened. -/
structure Element (ν : Type u) where
  /-- Its name. -/
  name : ν
  /-- The names of the elements around it, the innermost first. -/
  around : List ν
  deriving DecidableEq

variable [DecidableEq ν]

/-- The elements that marks open in turn, and those that they leave open, unless one closes what was not opened last. -/
def walk : List ν → List (Mark ν) → Option (List (Element ν) × List ν)
  | stack, [] => some ([], stack)
  | stack, .opening name :: marks => (walk (name :: stack) marks).map fun r => (⟨name, stack⟩ :: r.1, r.2)
  | top :: stack, .closing name :: marks => if name = top then walk stack marks else none
  | [], .closing _ :: _ => none

/-- From one stack, marks open some elements and lead to another stack. -/
def WalksTo (stack : List ν) (marks : List (Mark ν)) (elements : List (Element ν)) (after : List ν) : Prop :=
  walk stack marks = some (elements, after)

instance instDecidableWalksTo (stack : List ν) (marks : List (Mark ν)) (elements : List (Element ν)) (after : List ν) :
    Decidable (WalksTo stack marks elements after) :=
  inferInstanceAs (Decidable (_ = _))

variable {stack middle after : List ν} {marks : List (Mark ν)} {elements : List (Element ν)}

theorem walksTo_nil : WalksTo stack [] elements after ↔ elements = [] ∧ after = stack := by
  rw [WalksTo, walk, Option.some.injEq, Prod.mk.injEq]
  exact and_congr eq_comm eq_comm

theorem WalksTo.opening (name : ν) (h : WalksTo (name :: stack) marks elements after) :
    WalksTo stack (.opening name :: marks) (⟨name, stack⟩ :: elements) after := by
  have hwalk : walk (name :: stack) marks = some (elements, after) := h
  rw [WalksTo, walk, hwalk]
  rfl

theorem WalksTo.closing (name : ν) (h : WalksTo stack marks elements after) :
    WalksTo (name :: stack) (.closing name :: marks) elements after := by
  rw [WalksTo, walk, if_pos rfl]
  exact h

/-- Marks are walked one sequence after another. -/
theorem walk_append (stack : List ν) (marks more : List (Mark ν)) :
    walk stack (marks ++ more) = (walk stack marks).bind fun r => (walk r.2 more).map fun r' => (r.1 ++ r'.1, r'.2) := by
  induction marks generalizing stack with
  | nil =>
    rw [List.nil_append, walk, Option.bind_some]
    exact (Option.map_id' (x := walk stack more)).symm
  | cons mark marks ih =>
    cases mark with
    | opening name =>
      rw [List.cons_append, walk, ih, walk]
      cases walk (name :: stack) marks with
      | none => rfl
      | some r =>
        rw [Option.bind_some, Option.map_map, Option.map_some, Option.bind_some]
        rfl
    | closing name =>
      cases stack with
      | nil => rfl
      | cons top stack =>
        rw [List.cons_append, walk, walk]
        split_ifs
        · exact ih stack
        · rfl

/-- Two walks, one after the other. -/
theorem WalksTo.append {more : List (Mark ν)} {others : List (Element ν)} (h : WalksTo stack marks elements middle)
    (hmore : WalksTo middle more others after) : WalksTo stack (marks ++ more) (elements ++ others) after := by
  have hfirst : walk stack marks = some (elements, middle) := h
  have hrest : walk middle more = some (others, after) := hmore
  rw [WalksTo, walk_append, hfirst, Option.bind_some, hrest]
  rfl

/-- What closes the elements on the top of a stack leaves those below. -/
theorem walk_closings (top : List ν) : WalksTo (top ++ stack) (top.map Mark.closing) [] stack := by
  induction top with
  | nil => rfl
  | cons name top ih => exact .closing name ih

/-- A walk goes one way. -/
theorem WalksTo.unique {others : List (Element ν)} {after' : List ν} (h : WalksTo stack marks elements after)
    (h' : WalksTo stack marks others after') : elements = others ∧ after = after' := by
  have heq : some (elements, after) = some (others, after') := h.symm.trans h'
  cases heq
  exact ⟨rfl, rfl⟩

end StratTrader.Foundation
