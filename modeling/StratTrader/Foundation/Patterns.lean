import Mathlib.Data.List.DropRight
import Mathlib.Data.List.Forall2
import Mathlib.Data.List.Infix

/-!
# Patterns without backtracking

What a scanner does with the text that is left: eat a literal, look for the first occurrence of one,
replace every match of a pattern from the left to the right, and trim. Whether a character is that of a
literal is a parameter, so that literals may be read in upper and in lower case.

## What is proved

* `eat_eq_some`, `upTo_eq_some`: what is eaten is a literal, and the rest is what is left.
* `upTo_first`, `upTo_append`: the occurrence that is found is the first one, and what cannot begin one is
  passed over.
* `eat_cons_of_append`, `upTo_eq`: an occurrence is not across what cannot be in it, and the one before which there is
  none is found.
* `trimBy_idem`, `trimBy_isInfix`: trimming twice is trimming once, and what is left is a part.
* `flatMap_injective`: a text whose characters are coded, no code beginning with another, can be told from its code.
-/

namespace StratTrader.Foundation

universe u

variable {α : Type u}

-- decided over the characters of the text, and not over all there are
instance instDecidableForallMemText (s : List Char) (p : Char → Prop) [DecidablePred p] :
    Decidable (∀ c ∈ s, p c) :=
  List.decidableBAll p s

/-! ### Literals -/

section
variable (same : α → α → Bool)

/-- Eat a literal: what is left behind it. -/
def eat : List α → List α → Option (List α)
  | [], s => some s
  | _ :: _, [] => none
  | p :: ps, c :: cs => if same p c then eat ps cs else none

/-- A text that is read as a literal. -/
def Spells (p m : List α) : Prop := List.Forall₂ (fun a b => same a b = true) p m

variable {same} {p s r m : List α}

/-- What is eaten spells the literal. -/
theorem eat_eq_some : eat same p s = some r ↔ ∃ m, Spells same p m ∧ s = m ++ r := by
  induction p generalizing s with
  | nil =>
    constructor
    · intro h
      cases h
      exact ⟨[], .nil, rfl⟩
    · rintro ⟨m, hm, rfl⟩
      cases hm
      rfl
  | cons p ps ih =>
    cases s with
    | nil =>
      refine ⟨fun h => (nomatch h), ?_⟩
      rintro ⟨m, hm, heq⟩
      cases hm
      cases heq
    | cons c cs =>
      unfold eat
      constructor
      · intro h
        split_ifs at h with hc
        obtain ⟨m, hm, rfl⟩ := ih.mp h
        exact ⟨c :: m, .cons hc hm, rfl⟩
      · rintro ⟨m, hm, heq⟩
        cases hm with
        | cons hc hrest =>
          cases heq
          rw [if_pos hc]
          exact ih.mpr ⟨_, hrest, rfl⟩

/-- A literal is eaten one character after another. -/
theorem eat_cons_eq_some {q : α} :
    eat same (q :: p) s = some r ↔ ∃ c cs, s = c :: cs ∧ same q c = true ∧ eat same p cs = some r := by
  cases s with
  | nil =>
    refine ⟨fun h => (nomatch h), ?_⟩
    rintro ⟨c, cs, heq, -⟩
    cases heq
  | cons c cs =>
    rw [eat]
    constructor
    · intro h
      split_ifs at h with hc
      exact ⟨c, cs, rfl, hc, h⟩
    · rintro ⟨c', cs', heq, hc, h⟩
      cases heq
      rwa [if_pos hc]

theorem Spells.length_eq (h : Spells same p m) : m.length = p.length := (List.Forall₂.length_eq h).symm

/-- What is the same as no character of a literal is not in what spells it. -/
theorem Spells.not_mem {c : α} (h : Spells same p m) (hc : ∀ q ∈ p, same q c = false) : c ∉ m := by
  induction h with
  | nil => exact List.not_mem_nil
  | cons hsame _ ih =>
    obtain ⟨hfirst, hrest⟩ := List.forall_mem_cons.mp hc
    refine List.not_mem_cons_of_ne_of_not_mem ?_ (ih hrest)
    rintro rfl
    rw [hfirst] at hsame
    cases hsame

/-- Behind a literal less is left. -/
theorem length_of_eat (h : eat same p s = some r) : s.length = p.length + r.length := by
  obtain ⟨m, hm, rfl⟩ := eat_eq_some.mp h
  rw [List.length_append, hm.length_eq]

/-- What is left is told by how much was eaten. -/
theorem drop_of_eat (h : eat same p s = some r) : r = s.drop p.length := by
  obtain ⟨m, hm, rfl⟩ := eat_eq_some.mp h
  rw [← hm.length_eq, List.drop_left]

/-- A literal that is eaten is also eaten where more characters are the same. -/
theorem eat_mono {same' : α → α → Bool} (hsame : ∀ a b, same a b = true → same' a b = true)
    (h : eat same p s = some r) : eat same' p s = some r := by
  obtain ⟨m, hm, hs⟩ := eat_eq_some.mp h
  exact eat_eq_some.mpr ⟨m, hm.imp fun a b => hsame a b, hs⟩

/-- A literal that does not go on with some character ends before it. -/
theorem eat_of_append {c : α} {cs : List α} (hc : ∀ q ∈ p, same q c = false) (h : eat same p (s ++ c :: cs) = some r) :
    ∃ r', eat same p s = some r' ∧ r = r' ++ c :: cs := by
  induction p generalizing s with
  | nil =>
    cases h
    exact ⟨s, rfl, rfl⟩
  | cons q qs ih =>
    obtain ⟨hq, hqs⟩ := List.forall_mem_cons.mp hc
    cases s with
    | nil =>
      obtain ⟨d, ds, heq, hsame, -⟩ := eat_cons_eq_some.mp h
      cases heq
      rw [hq] at hsame
      cases hsame
    | cons d s =>
      obtain ⟨d', ds, heq, hsame, hrest⟩ := eat_cons_eq_some.mp h
      cases heq
      obtain ⟨r', hr', rfl⟩ := ih hqs hrest
      exact ⟨r', eat_cons_eq_some.mpr ⟨d, s, rfl, hsame, hr'⟩, rfl⟩

/-- So does one that only begins with it, but for the place where it begins. -/
theorem eat_cons_of_append {q c : α} {cs : List α} (hc : ∀ q' ∈ p, same q' c = false) (hs : s ≠ [])
    (h : eat same (q :: p) (s ++ c :: cs) = some r) : ∃ r', eat same (q :: p) s = some r' ∧ r = r' ++ c :: cs := by
  cases s with
  | nil => exact absurd rfl hs
  | cons d s =>
    obtain ⟨d', ds, heq, hsame, hrest⟩ := eat_cons_eq_some.mp h
    cases heq
    obtain ⟨r', hr', rfl⟩ := eat_of_append hc hrest
    exact ⟨r', eat_cons_eq_some.mpr ⟨d, s, rfl, hsame, hr'⟩, rfl⟩

/-- Behind its beginning, what spells a literal spells what is behind the beginning of the literal. -/
theorem Spells.exists_of_append {q c : α} {x y : List α} (h : Spells same (q :: p) (x ++ c :: y)) (hx : x ≠ []) :
    ∃ q' ∈ p, same q' c = true := by
  cases x with
  | nil => exact absurd rfl hx
  | cons d x =>
    obtain ⟨-, hrest⟩ := List.forall₂_cons.mp h
    by_contra hno
    push Not at hno
    exact Spells.not_mem hrest (fun q' hq' => Bool.eq_false_iff.mpr (hno q' hq'))
      (List.mem_append_right _ List.mem_cons_self)

theorem suffix_of_eat (h : eat same p s = some r) : r <:+ s := by
  obtain ⟨m, -, rfl⟩ := eat_eq_some.mp h
  exact List.suffix_append m r

variable (same)

/-- The text before the first occurrence of a literal, and behind it. -/
def upTo (p : List α) : List α → Option (List α × List α)
  | [] => (eat same p []).map fun r => ([], r)
  | c :: cs =>
    match eat same p (c :: cs) with
    | some r => some ([], r)
    | none => (upTo p cs).map fun (a, r) => (c :: a, r)

variable {same} {a : List α}

/-- An occurrence is found where there is one. -/
theorem upTo_eq_some (h : upTo same p s = some (a, r)) : ∃ m, Spells same p m ∧ s = a ++ m ++ r := by
  induction s generalizing a with
  | nil =>
    obtain ⟨r', hr, heq⟩ := Option.map_eq_some_iff.mp h
    cases heq
    obtain ⟨m, hm, hs⟩ := eat_eq_some.mp hr
    exact ⟨m, hm, hs⟩
  | cons c cs ih =>
    unfold upTo at h
    cases heat : eat same p (c :: cs) with
    | some r' =>
      rw [heat] at h
      cases h
      obtain ⟨m, hm, hs⟩ := eat_eq_some.mp heat
      exact ⟨m, hm, hs⟩
    | none =>
      rw [heat] at h
      obtain ⟨⟨a', r'⟩, hrest, heq⟩ := Option.map_eq_some_iff.mp h
      cases heq
      obtain ⟨m, hm, rfl⟩ := ih hrest
      exact ⟨m, hm, rfl⟩

/-- What cannot begin an occurrence is passed over. -/
theorem upTo_append {q : α} {qs b : List α} (hb : ∀ c ∈ b, same q c = false) :
    upTo same (q :: qs) (b ++ s) = (upTo same (q :: qs) s).map fun (a, r) => (b ++ a, r) := by
  induction b with
  | nil => exact Option.map_id'.symm
  | cons c b ih =>
    obtain ⟨hc, hrest⟩ := List.forall_mem_cons.mp hb
    have heat : eat same (q :: qs) (c :: (b ++ s)) = none := by
      unfold eat
      rw [hc]
      rfl
    rw [List.cons_append, upTo, heat]
    dsimp only
    rw [ih hrest, Option.map_map]
    rfl

/-- The occurrence is the first one. -/
theorem upTo_first {x m y : List α} (hm : Spells same p m) (hs : s = x ++ m ++ y) :
    ∃ a r, upTo same p s = some (a, r) ∧ a.length ≤ x.length := by
  induction x generalizing s with
  | nil =>
    have heat : eat same p s = some y := eat_eq_some.mpr ⟨m, hm, hs⟩
    cases s with
    | nil => exact ⟨[], y, by unfold upTo; rw [heat]; rfl, Nat.le_refl _⟩
    | cons c cs => exact ⟨[], y, by unfold upTo; rw [heat], Nat.le_refl _⟩
  | cons c x ih =>
    subst hs
    obtain ⟨a, r, hfound, hle⟩ := ih rfl
    rw [List.append_assoc, List.cons_append]
    unfold upTo
    cases heat : eat same p (c :: (x ++ (m ++ y))) with
    | some r' => exact ⟨[], r', rfl, Nat.zero_le _⟩
    | none =>
      rw [← List.append_assoc, hfound]
      exact ⟨c :: a, r, rfl, Nat.succ_le_succ hle⟩

/-- An occurrence before which there is none is the one that is found. -/
theorem upTo_eq {m : List α} (hm : Spells same p m) (hfree : ∀ b d, a = b ++ d → d ≠ [] → eat same p (d ++ m ++ r) = none) :
    upTo same p (a ++ m ++ r) = some (a, r) := by
  induction a with
  | nil =>
    have heat : eat same p (m ++ r) = some r := eat_eq_some.mpr ⟨m, hm, rfl⟩
    rw [List.nil_append]
    cases hmr : m ++ r with
    | nil =>
      rw [hmr] at heat
      unfold upTo
      rw [heat]
      rfl
    | cons c cs =>
      rw [hmr] at heat
      unfold upTo
      rw [heat]
  | cons c a ih =>
    have hc : eat same p (c :: (a ++ m ++ r)) = none := hfree [] (c :: a) rfl (List.cons_ne_nil _ _)
    have hrest := ih fun b d hbd hd => hfree (c :: b) d (by rw [hbd]; rfl) hd
    change upTo same p (c :: (a ++ m ++ r)) = _
    unfold upTo
    rw [hc]
    dsimp only
    rw [hrest]
    rfl

end

/-! ### Replacing -/

/-- A pattern with a replacement: of a text that begins with a match, the replacement and what is left. -/
abbrev Rewrite (α : Type u) := List α → Option (List α × List α)

/-- Replace every match, from the left to the right, in so many turns. -/
def replaceFor (m : Rewrite α) : ℕ → List α → List α
  | 0, s => s
  | _ + 1, [] => []
  | n + 1, c :: cs =>
    match m (c :: cs) with
    | some (out, rest) => out ++ replaceFor m n rest
    | none => c :: replaceFor m n cs

/-- `s.replace(pattern, replacement)` of a global pattern. -/
def replaceAll (m : Rewrite α) (s : List α) : List α := replaceFor m s.length s

/-! ### Trimming -/

/-- `s.trim()`. -/
def trimBy (blank : α → Bool) (s : List α) : List α := (s.dropWhile blank).rdropWhile blank

theorem trimBy_isInfix (blank : α → Bool) (s : List α) : trimBy blank s <:+: s :=
  ((List.rdropWhile_prefix blank _).isInfix).trans (List.dropWhile_suffix blank).isInfix

theorem trimBy_idem (blank : α → Bool) (s : List α) : trimBy blank (trimBy blank s) = trimBy blank s := by
  unfold trimBy
  generalize hd : s.dropWhile blank = d
  have hfirst : (d.rdropWhile blank).dropWhile blank = d.rdropWhile blank := by
    cases hr : d.rdropWhile blank with
    | nil => rfl
    | cons c cs =>
      obtain ⟨t, ht⟩ := List.rdropWhile_prefix blank d
      rw [hr] at ht
      have hc : blank c = false := by
        have hhead := List.head?_dropWhile_not blank s
        rw [hd, ← ht] at hhead
        simpa using hhead
      rw [List.dropWhile_cons, hc]
      rfl
  rw [hfirst, List.rdropWhile_idempotent]

/-! ### Codes -/

/-- A code none of whose words begins with another one can be read back. -/
theorem flatMap_injective {β : Type u} {code : α → List β} (hne : ∀ a, code a ≠ [])
    (hfree : ∀ a b, code a <+: code b → a = b) : Function.Injective (List.flatMap code) := by
  intro s
  induction s with
  | nil =>
    intro t heq
    cases t with
    | nil => rfl
    | cons b t =>
      rw [List.flatMap_nil, List.flatMap_cons] at heq
      exact absurd (List.append_eq_nil_iff.mp heq.symm).1 (hne b)
  | cons a s ih =>
    intro t heq
    cases t with
    | nil =>
      rw [List.flatMap_nil, List.flatMap_cons] at heq
      exact absurd (List.append_eq_nil_iff.mp heq).1 (hne a)
    | cons b t =>
      rw [List.flatMap_cons, List.flatMap_cons] at heq
      have ha : code a <+: code a ++ s.flatMap code := List.prefix_append _ _
      have hb : code b <+: code a ++ s.flatMap code := heq ▸ List.prefix_append _ _
      have hab : a = b := by
        rcases List.prefix_or_prefix_of_prefix ha hb with h | h
        · exact hfree a b h
        · exact (hfree b a h).symm
      subst hab
      rw [ih (List.append_cancel_left heq)]

end StratTrader.Foundation
