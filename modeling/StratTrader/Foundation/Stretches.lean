import Mathlib.Data.List.Basic

/-!
# The stretches of a list

A list is cut into the stretches of the elements with a property, each as long as it can be. Together they have all
the elements with the property, each in its place.
-/

namespace StratTrader.Foundation

variable {α : Type*} (p : α → Bool)

/-- A stretch that is open, unless it is empty. -/
def closed (cur : List α) : List (List α) := if cur.isEmpty then [] else [cur]

@[simp] theorem closed_nil : closed ([] : List α) = [] := rfl

@[simp] theorem flatten_closed (cur : List α) : (closed cur).flatten = cur := by
  cases cur with
  | nil => rfl
  | cons a l => exact List.append_nil _

theorem mem_closed {cur s : List α} : s ∈ closed cur ↔ s = cur ∧ cur ≠ [] := by
  cases cur with
  | nil => simp [closed]
  | cons a l => simp [closed]

/-- The stretches of a list, the first of which is open already. -/
def stretchesFrom : List α → List α → List (List α)
  | cur, [] => closed cur
  | cur, a :: l => if p a then stretchesFrom (cur ++ [a]) l else closed cur ++ stretchesFrom [] l

/-- The stretches of a list. -/
def stretches (l : List α) : List (List α) := stretchesFrom p [] l

/-- A stretch of a list: it cannot be made longer. -/
structure IsStretch (l s : List α) : Prop where
  /-- It has an element. -/
  ne_nil : s ≠ []
  /-- All of its elements have the property. -/
  all : ∀ a ∈ s, p a = true
  /-- It lies within the list, between elements that have not. -/
  within : ∃ before after, l = before ++ s ++ after ∧ (∀ a ∈ before.getLast?, p a = false) ∧
    ∀ a ∈ after.head?, p a = false

variable {p}

theorem flatten_stretchesFrom (cur l : List α) : (stretchesFrom p cur l).flatten = cur ++ l.filter p := by
  induction l generalizing cur with
  | nil => rw [stretchesFrom, flatten_closed, List.filter_nil, List.append_nil]
  | cons a l ih =>
    unfold stretchesFrom
    cases ha : p a with
    | true => rw [if_pos rfl, ih, List.filter_cons_of_pos ha, List.append_assoc, List.singleton_append]
    | false =>
      rw [if_neg Bool.false_ne_true, List.flatten_append, flatten_closed, ih, List.nil_append,
        List.filter_cons_of_neg (by simp [ha])]

/-- **Together the stretches** are the elements with the property. -/
theorem flatten_stretches (l : List α) : (stretches p l).flatten = l.filter p := flatten_stretchesFrom [] l

/-- What lies in front of the open stretch, and does not make it longer, changes nothing. -/
theorem isStretch_of_mem_stretchesFrom (before cur : List α) {l s : List α} (hbefore : ∀ a ∈ before.getLast?, p a = false)
    (hcur : ∀ a ∈ cur, p a = true) (hs : s ∈ stretchesFrom p cur l) : IsStretch p (before ++ cur ++ l) s := by
  induction l generalizing before cur with
  | nil =>
    obtain ⟨rfl, hne⟩ := mem_closed.mp hs
    exact ⟨hne, hcur, before, [], by rw [List.append_nil], hbefore, fun a ha => nomatch ha⟩
  | cons a l ih =>
    unfold stretchesFrom at hs
    cases ha : p a with
    | true =>
      rw [ha, if_pos rfl] at hs
      have hall : ∀ b ∈ cur ++ [a], p b = true := by
        intro b hb
        rcases List.mem_append.mp hb with hb | hb
        · exact hcur b hb
        · rwa [List.mem_singleton.mp hb]
      have hrest := ih before (cur ++ [a]) hbefore hall hs
      rwa [← List.append_assoc, List.append_assoc, List.singleton_append] at hrest
    | false =>
      rw [ha, if_neg Bool.false_ne_true] at hs
      rcases List.mem_append.mp hs with hs | hs
      · obtain ⟨rfl, hne⟩ := mem_closed.mp hs
        exact ⟨hne, hcur, before, a :: l, rfl, hbefore, by simpa using ha⟩
      · have hrest := ih (before ++ cur ++ [a]) [] (by simpa using ha) (fun b hb => nomatch hb) hs
        rwa [List.append_nil, List.append_assoc, List.singleton_append] at hrest

/-- **Each stretch** is one. -/
theorem isStretch_of_mem {l s : List α} (hs : s ∈ stretches p l) : IsStretch p l s :=
  isStretch_of_mem_stretchesFrom [] [] (fun _ h => nomatch h) (fun _ h => nomatch h) hs

end StratTrader.Foundation
