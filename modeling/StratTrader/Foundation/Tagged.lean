import StratTrader.Foundation.Lines
import StratTrader.Foundation.Patterns

/-!
# Texts that are made of tags

A text in which every occurrence of a mark begins a tag of a list that is given, and every other
character is plain. A tag begins with the mark, ends with another one, and has neither between.

## What is proved

* `Tagged.begins`: every mark begins a tag.
* `Tagged.append`, `Tagged.dropWhile`, `Tagged.of_tag_append`: such texts can be put together, and may
  lose what is plain, or a tag, at their beginning.
* `Tagged.replaceFor`: a pattern that begins at marks and leaves such a text behind keeps the text one.
* `Tagged.tags_append`, `Tagged.isTag_of_mem_tags`: the tags that are read of such a text are tags, one text after another.
* `Tagged.tags_replaceFor`: a pattern that takes and puts only tags that are not looked at keeps the others.
-/

namespace StratTrader.Foundation

universe u

variable {α : Type u}

/-- Tags, between two marks. -/
structure Markup (α : Type u) where
  /-- What a tag begins with. -/
  start : α
  /-- What it ends with. -/
  stop : α
  /-- The tags. -/
  IsTag : List α → Prop
  /-- The characters of a text. -/
  IsPlain : α → Prop
  /-- A text has no mark that begins a tag. -/
  start_not_plain : ¬ IsPlain start
  /-- A tag is between marks. -/
  shape : ∀ t, IsTag t → ∃ body, t = start :: (body ++ [stop]) ∧ start ∉ body ∧ stop ∉ body
  /-- The two marks differ. -/
  start_ne_stop : start ≠ stop

/-- A text made of tags and plain characters. -/
inductive Tagged (M : Markup α) : List α → Prop where
  /-- The empty text. -/
  | nil : Tagged M []
  /-- A plain character. -/
  | plain {c : α} {s : List α} (hc : M.IsPlain c) (hs : Tagged M s) : Tagged M (c :: s)
  /-- A tag. -/
  | tag {t s : List α} (ht : M.IsTag t) (hs : Tagged M s) : Tagged M (t ++ s)

namespace Tagged

variable {M : Markup α} {s t r : List α} {c : α}

theorem append (hs : Tagged M s) (ht : Tagged M t) : Tagged M (s ++ t) := by
  induction hs with
  | nil => exact ht
  | plain hc _ ih => exact .plain hc ih
  | tag htag _ ih =>
    rw [List.append_assoc]
    exact .tag htag ih

theorem of_plain (h : ∀ c ∈ s, M.IsPlain c) : Tagged M s := by
  induction s with
  | nil => exact .nil
  | cons c s ih => exact .plain (h c List.mem_cons_self) (ih fun d hd => h d (List.mem_cons_of_mem _ hd))

theorem of_tag (ht : M.IsTag t) : Tagged M t := by
  have h := Tagged.tag ht .nil
  rwa [List.append_nil] at h

/-- A text that begins with the mark begins with a tag. -/
theorem exists_tag (h : Tagged M (M.start :: s)) : ∃ t r, M.IsTag t ∧ Tagged M r ∧ M.start :: s = t ++ r := by
  generalize hcs : M.start :: s = cs at h
  cases h with
  | nil => cases hcs
  | plain hc _ =>
    cases hcs
    exact absurd hc M.start_not_plain
  | tag ht hs => exact ⟨_, _, ht, hs, rfl⟩

/-- **Every mark begins a tag.** -/
theorem begins (h : Tagged M s) {before after : List α} (hs : s = before ++ M.start :: after) :
    ∃ t, M.IsTag t ∧ t <+: M.start :: after := by
  induction h generalizing before with
  | nil => exact absurd (congrArg List.length hs) (by simp)
  | plain hc _ ih =>
    cases before with
    | nil =>
      cases hs
      exact absurd hc M.start_not_plain
    | cons d before => exact ih (List.cons.inj hs).2
  | @tag t r ht _ ih =>
    obtain ⟨body, rfl, hstart, -⟩ := M.shape t ht
    rcases List.append_eq_append_iff.mp hs with ⟨rest, rfl, hr⟩ | ⟨rest, hsplit, hafter⟩
    · exact ih hr
    · cases before with
      | nil => exact ⟨_, ht, r, by rw [hsplit, List.nil_append, hafter]⟩
      | cons d before =>
        cases rest with
        | nil => exact ih (show r = [] ++ M.start :: after from hafter.symm)
        | cons e rest =>
          -- the mark would be within the tag
          obtain ⟨he, -⟩ := List.cons.inj hafter
          have hmem : M.start ∈ body ++ [M.stop] := by
            rw [(List.cons.inj hsplit).2, he]
            exact List.mem_append_right _ List.mem_cons_self
          rcases List.mem_append.mp hmem with hbody | hstop
          · exact absurd hbody hstart
          · exact absurd (List.mem_singleton.mp hstop) M.start_ne_stop

/-- Two tags that a text begins with are one. -/
theorem tag_unique {t' r' : List α} (ht : M.IsTag t) (ht' : M.IsTag t') (heq : t ++ r = t' ++ r') : t = t' ∧ r = r' := by
  obtain ⟨body, rfl, -, hstop⟩ := M.shape t ht
  obtain ⟨body', rfl, -, hstop'⟩ := M.shape t' ht'
  have hbodies : body ++ M.stop :: r = body' ++ M.stop :: r' := by simpa using heq
  obtain ⟨rfl, rfl⟩ := append_cons_unique hstop hstop' hbodies
  exact ⟨rfl, rfl⟩

/-- Such a text goes on behind a tag. -/
theorem of_tag_append (ht : M.IsTag t) (h : Tagged M (t ++ r)) : Tagged M r := by
  obtain ⟨body, hbody, -⟩ := M.shape t ht
  rw [hbody, List.cons_append] at h
  obtain ⟨t', r', ht', hr', heq⟩ := h.exists_tag
  rw [← List.cons_append, ← hbody] at heq
  obtain ⟨-, rfl⟩ := tag_unique ht ht' heq
  exact hr'

/-- It may lose plain characters at its beginning. -/
theorem dropWhile {p : α → Bool} (hp : p M.start = false) (h : Tagged M s) : Tagged M (s.dropWhile p) := by
  induction h with
  | nil => exact .nil
  | @plain c s hc hs ih =>
    rw [List.dropWhile_cons]
    split_ifs
    · exact ih
    · exact .plain hc hs
  | @tag t s ht hs _ =>
    obtain ⟨body, hbody, -⟩ := M.shape t ht
    have hkeep : (t ++ s).dropWhile p = t ++ s := by
      rw [hbody, List.cons_append, List.dropWhile_cons, hp]
      rfl
    rw [hkeep]
    exact .tag ht hs

/-- A pattern that begins at marks passes over what has none. -/
theorem replaceFor_append {m : Rewrite α} (hm : ∀ c s, c ≠ M.start → m (c :: s) = none) {body : List α}
    (hbody : M.start ∉ body) (n : ℕ) (s : List α) :
    replaceFor m n (body ++ s) = body ++ replaceFor m (n - body.length) s := by
  induction body generalizing n with
  | nil => rfl
  | cons c body ih =>
    rw [List.mem_cons, not_or] at hbody
    obtain ⟨hc, hrest⟩ := hbody
    cases n with
    | zero => rw [Nat.zero_sub]; rfl
    | succ n =>
      rw [List.cons_append, replaceFor, hm c _ (Ne.symm hc), List.length_cons, Nat.add_sub_add_right, ih hrest]
      rfl

/-- **A pattern that begins at marks**, leaves such a text behind, and puts one in place of what it matches, keeps the
text one. -/
theorem replaceFor {m : Rewrite α} (hmark : ∀ c s, c ≠ M.start → m (c :: s) = none)
    (hm : ∀ s out rest, Tagged M s → m s = some (out, rest) → Tagged M out ∧ Tagged M rest) (n : ℕ) (h : Tagged M s) :
    Tagged M (replaceFor m n s) := by
  induction n using Nat.strong_induction_on generalizing s with
  | _ n ih =>
    cases n with
    | zero => exact h
    | succ n =>
      cases h with
      | nil => exact .nil
      | @plain c s hc hs =>
        have hne : c ≠ M.start := fun heq => M.start_not_plain (heq ▸ hc)
        rw [Foundation.replaceFor, hmark c s hne]
        exact .plain hc (ih n (Nat.lt_succ_self n) hs)
      | @tag t s ht hs =>
        obtain ⟨body, rfl, hstart, -⟩ := M.shape t ht
        have hin : M.start ∉ body ++ [M.stop] := by
          rw [List.mem_append, List.mem_singleton]
          rintro (hbody | hstop)
          · exact hstart hbody
          · exact M.start_ne_stop hstop
        rw [List.cons_append, Foundation.replaceFor]
        cases hmatch : m (M.start :: (body ++ [M.stop] ++ s)) with
        | some found =>
          obtain ⟨out, rest⟩ := found
          obtain ⟨hout, hrest⟩ := hm _ _ _ (Tagged.tag ht hs) hmatch
          exact hout.append (ih n (Nat.lt_succ_self n) hrest)
        | none =>
          dsimp only
          rw [replaceFor_append hmark hin, ← List.cons_append]
          exact .tag ht (ih _ (Nat.lt_of_le_of_lt (Nat.sub_le _ _) (Nat.lt_succ_self n)) hs)

end Tagged

/-! ### Reading the tags -/

section
variable [DecidableEq α]

/-- The tags that are read of a text, without their marks. Of one that has begun, what was read is given, from its
end. -/
def tagsFrom (start stop : α) : Option (List α) → List α → List (List α)
  | _, [] => []
  | none, c :: cs => if c = start then tagsFrom start stop (some []) cs else tagsFrom start stop none cs
  | some read, c :: cs =>
    if c = stop then read.reverse :: tagsFrom start stop none cs else tagsFrom start stop (some (c :: read)) cs

/-- The tags of a text, without their marks. -/
def tagsBetween (start stop : α) (s : List α) : List (List α) := tagsFrom start stop none s

theorem tagsFrom_body {start stop : α} {read body s : List α} (hbody : stop ∉ body) :
    tagsFrom start stop (some read) (body ++ stop :: s) = (read.reverse ++ body) :: tagsBetween start stop s := by
  induction body generalizing read with
  | nil => rw [List.nil_append, tagsFrom, if_pos rfl, List.append_nil]; rfl
  | cons c body ih =>
    obtain ⟨hc, hrest⟩ := not_or.mp (mt List.mem_cons.mpr hbody)
    rw [List.cons_append, tagsFrom, if_neg (Ne.symm hc), ih hrest, List.reverse_cons, List.append_assoc]
    rfl

/-- The tags of a text, without the marks. -/
abbrev Markup.tags (M : Markup α) (s : List α) : List (List α) := tagsBetween M.start M.stop s

namespace Tagged

variable {M : Markup α} {s t : List α} {c : α}

theorem tags_cons (hc : c ≠ M.start) : M.tags (c :: s) = M.tags s := by
  rw [Markup.tags, tagsBetween, tagsFrom, if_neg hc]
  rfl

theorem tags_plain (hc : M.IsPlain c) : M.tags (c :: s) = M.tags s :=
  tags_cons fun heq => M.start_not_plain (heq ▸ hc)

theorem tags_tag {body : List α} (hbody : M.stop ∉ body) :
    M.tags (M.start :: (body ++ [M.stop]) ++ s) = body :: M.tags s := by
  rw [Markup.tags, tagsBetween, List.cons_append, tagsFrom, if_pos rfl, List.append_assoc, List.singleton_append,
    tagsFrom_body hbody]
  rfl

/-- The tags of a text made of tags come before those of what is behind it. -/
theorem tags_append (h : Tagged M s) : M.tags (s ++ t) = M.tags s ++ M.tags t := by
  induction h with
  | nil => rfl
  | plain hc _ ih => rw [List.cons_append, tags_plain hc, tags_plain hc, ih]
  | tag ht _ ih =>
    obtain ⟨body, rfl, -, hstop⟩ := M.shape _ ht
    rw [List.append_assoc, tags_tag hstop, tags_tag hstop, ih, List.cons_append]

theorem tags_of_tag {body : List α} (hbody : M.stop ∉ body) : M.tags (M.start :: (body ++ [M.stop])) = [body] := by
  have h := @tags_tag _ _ M [] _ hbody
  rwa [List.append_nil] at h

/-- What is read between marks is a tag. -/
theorem isTag_of_mem_tags (h : Tagged M s) {body : List α} (hbody : body ∈ M.tags s) :
    M.IsTag (M.start :: (body ++ [M.stop])) := by
  induction h with
  | nil => cases hbody
  | plain hc _ ih => exact ih (tags_plain hc ▸ hbody)
  | tag ht _ ih =>
    obtain ⟨body', rfl, -, hstop⟩ := M.shape _ ht
    rw [tags_tag hstop] at hbody
    rcases List.mem_cons.mp hbody with rfl | hrest
    · exact ht
    · exact ih hrest

/-- **A pattern that takes and puts only tags that are not looked at** keeps the others. -/
theorem tags_replaceFor {m : Rewrite α} {keep : List α → Bool} (hmark : ∀ c s, c ≠ M.start → m (c :: s) = none)
    (hm : ∀ s out rest, Tagged M s → m s = some (out, rest) → Tagged M out ∧ Tagged M rest ∧
      (M.tags s).filter keep = (M.tags out).filter keep ++ (M.tags rest).filter keep) (n : ℕ) (h : Tagged M s) :
    (M.tags (Foundation.replaceFor m n s)).filter keep = (M.tags s).filter keep := by
  induction n using Nat.strong_induction_on generalizing s with
  | _ n ih =>
    cases n with
    | zero => rfl
    | succ n =>
      cases h with
      | nil => rfl
      | @plain c s hc hs =>
        have hne : c ≠ M.start := fun heq => M.start_not_plain (heq ▸ hc)
        rw [Foundation.replaceFor, hmark c s hne]
        dsimp only
        rw [tags_plain hc, tags_plain hc, ih n (Nat.lt_succ_self n) hs]
      | @tag t s ht hs =>
        obtain ⟨body, rfl, hstart, hstop⟩ := M.shape t ht
        have hin : M.start ∉ body ++ [M.stop] := by
          rw [List.mem_append, List.mem_singleton]
          rintro (hbody | heq)
          · exact hstart hbody
          · exact M.start_ne_stop heq
        have htags (x : List α) : M.tags (M.start :: (body ++ [M.stop] ++ x)) = body :: M.tags x := tags_tag hstop
        rw [List.cons_append, Foundation.replaceFor]
        cases hmatch : m (M.start :: (body ++ [M.stop] ++ s)) with
        | some found =>
          obtain ⟨out, rest⟩ := found
          obtain ⟨hout, hrest, hkeep⟩ := hm _ _ _ (Tagged.tag ht hs) hmatch
          dsimp only
          rw [tags_append hout, List.filter_append, ih n (Nat.lt_succ_self n) hrest, ← hkeep]
          rfl
        | none =>
          have hlt : n - (body ++ [M.stop]).length < n + 1 := Nat.lt_of_le_of_lt (Nat.sub_le _ _) (Nat.lt_succ_self n)
          dsimp only
          rw [replaceFor_append hmark hin, htags, htags, List.filter_cons, List.filter_cons, ih _ hlt hs]

end Tagged

end

end StratTrader.Foundation
