import Mathlib.Data.List.Count
import Mathlib.Data.List.Infix

/-!
# The lines of a text

A text is cut at each separator. A part of a text that has none is on one line of it, and which one that is is told by
the separators before the part.

## What is proved

* `splitOn_lines`, `exists_lines`: a text is cut into the lines that make it, of which none has a separator.
* `onLine`: a part of a text is on the line whose number is told by the separators before it.
* `onLine_of_splitOn`: so is a line of a part of a text.
* `cons_ended_isInfix_iff`: between separators, lines are found in a text exactly where they stand in a row in it.
-/

namespace StratTrader.Foundation

universe u

variable {α : Type u}

/-- Lines, each with its end. -/
def ended (x : α) (ls : List (List α)) : List α := ls.flatMap fun l => l ++ [x]

/-- Lines, each behind the end of the one before it. -/
def begun (x : α) (ls : List (List α)) : List α := ls.flatMap fun l => x :: l

variable {x : α} {l : List α} {ls : List (List α)}

theorem ended_cons : ended x (l :: ls) = l ++ x :: ended x ls := by
  unfold ended
  rw [List.flatMap_cons, List.append_assoc, List.singleton_append]

theorem begun_cons : begun x (l :: ls) = x :: (l ++ begun x ls) := List.flatMap_cons

/-- A text is lines with their ends, and the last one. -/
theorem exists_ended (x : α) (s : List α) :
    ∃ earlier last, (∀ l ∈ earlier, x ∉ l) ∧ x ∉ last ∧ s = ended x earlier ++ last := by
  induction s with
  | nil => exact ⟨[], [], List.forall_mem_nil _, List.not_mem_nil, rfl⟩
  | cons c s ih =>
    obtain ⟨earlier, last, hearlier, hlast, rfl⟩ := ih
    rcases eq_or_ne x c with rfl | hne
    · exact ⟨[] :: earlier, last, List.forall_mem_cons.mpr ⟨List.not_mem_nil, hearlier⟩, hlast, by
        rw [ended_cons, List.nil_append, List.cons_append]⟩
    · cases earlier with
      | nil => exact ⟨[], c :: last, hearlier, List.not_mem_cons_of_ne_of_not_mem hne hlast, rfl⟩
      | cons first earlier =>
        obtain ⟨hfirst, hrest⟩ := List.forall_mem_cons.mp hearlier
        exact ⟨(c :: first) :: earlier, last,
          List.forall_mem_cons.mpr ⟨List.not_mem_cons_of_ne_of_not_mem hne hfirst, hrest⟩, hlast, by
            rw [ended_cons, ended_cons, List.cons_append, List.cons_append]⟩

/-- A text is the first line, and the others behind the end of the one before. -/
theorem exists_begun (x : α) (s : List α) :
    ∃ first later, x ∉ first ∧ (∀ l ∈ later, x ∉ l) ∧ s = first ++ begun x later := by
  induction s with
  | nil => exact ⟨[], [], List.not_mem_nil, List.forall_mem_nil _, rfl⟩
  | cons c s ih =>
    obtain ⟨first, later, hfirst, hlater, rfl⟩ := ih
    rcases eq_or_ne x c with rfl | hne
    · exact ⟨[], first :: later, List.not_mem_nil, List.forall_mem_cons.mpr ⟨hfirst, hlater⟩, begun_cons.symm⟩
    · exact ⟨c :: first, later, List.not_mem_cons_of_ne_of_not_mem hne hfirst, hlater, rfl⟩

/-! ### Lines in a row -/

theorem ended_append (x : α) (ls ms : List (List α)) : ended x (ls ++ ms) = ended x ls ++ ended x ms :=
  List.flatMap_append

theorem begun_append_singleton (x : α) (ls : List (List α)) : begun x ls ++ [x] = x :: ended x ls := by
  induction ls with
  | nil => rfl
  | cons l ls ih => rw [begun_cons, ended_cons, List.cons_append, List.append_assoc, ih]

/-- What comes before the first of two separators is told by the text. -/
theorem append_cons_unique {a b r r' : List α} (ha : x ∉ a) (hb : x ∉ b) (h : a ++ x :: r = b ++ x :: r') :
    a = b ∧ r = r' := by
  rcases List.append_eq_append_iff.mp h with ⟨rest, rfl, hr⟩ | ⟨rest, rfl, hr⟩
  all_goals
    cases rest with
    | nil => exact ⟨by simp, by simpa [eq_comm] using (List.cons.inj hr).2⟩
    | cons d rest =>
      obtain ⟨rfl, -⟩ := List.cons.inj hr
      simp at ha hb

theorem ended_isPrefix {ws vs : List (List α)} (hws : ∀ w ∈ ws, x ∉ w) (hvs : ∀ v ∈ vs, x ∉ v)
    (h : ended x ws <+: ended x vs) : ws <+: vs := by
  induction ws generalizing vs with
  | nil => exact List.nil_prefix
  | cons w ws ih =>
    obtain ⟨hw, hrest⟩ := List.forall_mem_cons.mp hws
    obtain ⟨t, ht⟩ := h
    cases vs with
    | nil =>
      rw [ended_cons, List.append_assoc] at ht
      cases w <;> cases ht
    | cons v vs =>
      obtain ⟨hv, hrest'⟩ := List.forall_mem_cons.mp hvs
      rw [ended_cons, ended_cons, List.append_assoc, List.cons_append] at ht
      obtain ⟨rfl, hends⟩ := append_cons_unique hw hv ht
      exact (List.prefix_cons_inj w).mpr (ih hrest hrest' ⟨t, hends⟩)

/-- **Between separators, lines are found** exactly where they stand in a row. -/
theorem cons_ended_isInfix_iff {ws vs : List (List α)} (hws : ∀ w ∈ ws, x ∉ w) (hvs : ∀ v ∈ vs, x ∉ v) :
    x :: ended x ws <:+: x :: ended x vs ↔ ws <:+: vs := by
  constructor
  · rintro ⟨p, q, h⟩
    induction vs generalizing p with
    | nil =>
      cases p with
      | nil =>
        have hprefix : ended x ws <+: ended x [] := ⟨q, (List.cons.inj h).2⟩
        exact (ended_isPrefix hws hvs hprefix).isInfix
      | cons c p =>
        have hlength := congrArg List.length h
        simp [ended] at hlength
    | cons v vs ih =>
      obtain ⟨hv, hrest⟩ := List.forall_mem_cons.mp hvs
      cases p with
      | nil =>
        have hprefix : ended x ws <+: ended x (v :: vs) := ⟨q, (List.cons.inj h).2⟩
        exact (ended_isPrefix hws hvs hprefix).isInfix
      | cons c p =>
        -- the separator that is found is behind the first line
        have htail : p ++ x :: (ended x ws ++ q) = v ++ x :: ended x vs := by
          rw [ended_cons] at h
          simpa using (List.cons.inj h).2
        rcases List.append_eq_append_iff.mp htail with ⟨d, rfl, hd⟩ | ⟨d, rfl, hd⟩
        · cases d with
          | nil => exact List.infix_cons (ih hrest [] (by simpa using hd))
          | cons e d =>
            obtain ⟨rfl, -⟩ := List.cons.inj hd
            exact absurd (List.mem_append_right p List.mem_cons_self) hv
        · exact List.infix_cons (ih hrest d (by simpa using hd.symm))
  · rintro ⟨a, b, rfl⟩
    refine ⟨begun x a, ended x b, ?_⟩
    rw [ended_append, ended_append, ← List.cons_append, ← List.cons_append, ← begun_append_singleton x a]
    simp only [List.append_assoc, List.singleton_append]

/-! ### Cutting a text -/

variable [BEq α] [LawfulBEq α] {s part : List α} {earlier later : List (List α)}

theorem count_ended (h : ∀ l ∈ ls, x ∉ l) : (ended x ls).count x = ls.length := by
  induction ls with
  | nil => rfl
  | cons l ls ih =>
    obtain ⟨hl, hrest⟩ := List.forall_mem_cons.mp h
    rw [ended_cons, List.count_append, List.count_eq_zero_of_not_mem hl, List.count_cons_self, ih hrest,
      List.length_cons, Nat.zero_add]

/-- **Lines are cut where they end.** -/
theorem splitOn_lines (hearlier : ∀ l ∈ earlier, x ∉ l) (hl : x ∉ l) (hlater : ∀ l ∈ later, x ∉ l) :
    (ended x earlier ++ l ++ begun x later).splitOn x = earlier ++ l :: later := by
  induction earlier with
  | nil =>
    have hrest : (l ++ begun x later).splitOn x = l :: later := by
      induction later generalizing l with
      | nil => exact (congrArg _ (List.append_nil l)).trans (List.splitOn_eq_singleton hl)
      | cons l' later ih =>
        obtain ⟨hl', hlater'⟩ := List.forall_mem_cons.mp hlater
        rw [begun_cons, List.splitOn_append_cons_self_of_not_mem hl, ih hl' hlater']
    exact hrest
  | cons first earlier ih =>
    obtain ⟨hfirst, hrest⟩ := List.forall_mem_cons.mp hearlier
    rw [ended_cons, List.append_assoc, List.append_assoc, List.cons_append,
      List.splitOn_append_cons_self_of_not_mem hfirst, ← List.append_assoc, ih hrest, List.cons_append]

theorem splitOn_first {first : List α} {rest : List (List α)} (hfirst : x ∉ first) (hrest : ∀ l ∈ rest, x ∉ l) :
    (first ++ begun x rest).splitOn x = first :: rest :=
  splitOn_lines (List.forall_mem_nil _) hfirst hrest

theorem not_mem_of_mem_splitOn (s : List α) : ∀ l ∈ s.splitOn x, x ∉ l := by
  obtain ⟨first, rest, hfirst, hrest, rfl⟩ := exists_begun x s
  rw [splitOn_first hfirst hrest]
  exact List.forall_mem_cons.mpr ⟨hfirst, hrest⟩

/-- The lines of a text, with their ends, are the text with an end. -/
theorem ended_splitOn (s : List α) : ended x (s.splitOn x) = s ++ [x] := by
  obtain ⟨first, rest, hfirst, hrest, rfl⟩ := exists_begun x s
  rw [splitOn_first hfirst hrest, ended_cons, List.append_assoc, begun_append_singleton]

/-- A line of a text, between those before it and behind it. -/
theorem lines_of_splitOn (h : s.splitOn x = earlier ++ l :: later) :
    (∀ l ∈ earlier, x ∉ l) ∧ x ∉ l ∧ (∀ l ∈ later, x ∉ l) ∧ s = ended x earlier ++ l ++ begun x later := by
  obtain ⟨first, rest, hfirst, hrest, rfl⟩ := exists_begun x s
  have hall : ∀ l ∈ first :: rest, x ∉ l := List.forall_mem_cons.mpr ⟨hfirst, hrest⟩
  have hsplit : first :: rest = earlier ++ l :: later :=
    (splitOn_lines (List.forall_mem_nil _) hfirst hrest).symm.trans h
  rw [hsplit] at hall
  obtain ⟨hearlier, hbehind⟩ := List.forall_mem_append.mp hall
  obtain ⟨hl, hlater⟩ := List.forall_mem_cons.mp hbehind
  refine ⟨hearlier, hl, hlater, ?_⟩
  calc first ++ begun x rest = [x].intercalate ((first ++ begun x rest).splitOn x) := (List.intercalate_splitOn x).symm
    _ = [x].intercalate ((ended x earlier ++ l ++ begun x later).splitOn x) := by
      rw [h, splitOn_lines hearlier hl hlater]
    _ = ended x earlier ++ l ++ begun x later := List.intercalate_splitOn x

/-- A part of a text is on its line of a number: the lines before it and behind it, and what is before and behind the
part on its own. -/
def OnLine (x : α) (text : List α) (n : ℕ) (before part behind : List α) : Prop :=
  ∃ earlier pre post later, text.splitOn x = earlier ++ (pre ++ part ++ post) :: later ∧ earlier.length + 1 = n ∧
    before = ended x earlier ++ pre ∧ behind = post ++ begun x later

/-- **A part of a text without a separator** is on the line whose number is told by the separators before it. -/
theorem onLine (before behind : List α) (hpart : x ∉ part) :
    OnLine x (before ++ part ++ behind) (before.count x + 1) before part behind := by
  obtain ⟨earlier, pre, hearlier, hpre, rfl⟩ := exists_ended x before
  obtain ⟨post, later, hpost, hlater, rfl⟩ := exists_begun x behind
  refine ⟨earlier, pre, post, later, ?_, ?_, rfl, rfl⟩
  · have hline : x ∉ pre ++ part ++ post := by
      simp only [List.mem_append, not_or]
      exact ⟨⟨hpre, hpart⟩, hpost⟩
    rw [← splitOn_lines hearlier hline hlater]
    simp only [List.append_assoc]
  · rw [List.count_append, count_ended hearlier, List.count_eq_zero_of_not_mem hpre, Nat.add_zero]

/-- **A line of a part of a text** is on the line whose number is told by the separators before the part and by its
number there. -/
theorem onLine_of_splitOn (before behind : List α) {body : List α} (h : body.splitOn x = earlier ++ l :: later) :
    OnLine x (before ++ body ++ behind) (before.count x + 1 + earlier.length) (before ++ ended x earlier) l
      (begun x later ++ behind) := by
  obtain ⟨hearlier, hl, -, rfl⟩ := lines_of_splitOn h
  have hline := onLine (before ++ ended x earlier) (begun x later ++ behind) hl
  rw [List.count_append, count_ended hearlier, Nat.add_right_comm] at hline
  simpa only [List.append_assoc] using hline

end StratTrader.Foundation
