import StratTrader.Frontend.InjectionFree

/-!
# Reading a description, and building of what was read

The loop of `core/util/tradingview-description.ts` reads an item and emits what it comes to, turn by turn. What it
reads does not depend on the stack, so that the items may be read first and the fragment be built of them; and the
rewrites behind the loop leave all tags where they are, but for line breaks.

## What is proved

* `render_eq_build`: the rendering is the items of the escaped text, built and rid of line breaks.
* `keptTags_render`: the tags of the output are those that were built, in their order, but for line breaks.
-/

namespace StratTrader.Frontend

open StratTrader.Foundation

/-! ### The items -/

/-- The items that are read of the text that is left, in so many turns. -/
def itemsFor : ℕ → List Char → List Char → List Item
  | _, _, [] => []
  | 0, _, _ :: _ => []
  | n + 1, before, c :: cs =>
    let next := nextItem before (c :: cs)
    let done := (c :: cs).take (cs.length + 1 - next.2.length)
    next.1 :: itemsFor n (done.reverse ++ before) next.2

/-- The items of an escaped text. -/
def itemsOf (src : List Char) : List Item := itemsFor src.length [] src

/-- What some items come to, and the end of the frames they leave. -/
def build : List Item → List Frame → List Char
  | [], stack => closes stack
  | item :: items, stack => (onItem item stack).1 ++ build items (onItem item stack).2

theorem renderFor_eq_build {n : ℕ} {before s : List Char} {stack : List Frame} :
    renderFor n before s stack = build (itemsFor n before s) stack := by
  induction n generalizing before s stack with
  | zero => cases s <;> rfl
  | succ n ih =>
    cases s with
    | nil => rfl
    | cons c cs =>
      unfold renderFor itemsFor build
      dsimp only
      rw [ih]

/-- **The rendering** is the items of the escaped text, built and rid of line breaks. -/
theorem render_eq_build (raw : List Char) :
    renderTradingViewDescription raw = cleanupBlockBreaks (build (itemsOf (escapeHtml raw)) []) := by
  unfold renderTradingViewDescription
  split_ifs with hraw
  · subst hraw
    decide
  · dsimp only
    rw [renderFor_eq_build]
    rfl

/-- What holds of every item that is read of the end of a text holds of its items. -/
theorem of_mem_itemsFor {src : List Char} {p : Item → Prop}
    (hp : ∀ before s, s ≠ [] → s <:+ src → p (nextItem before s).1) {n : ℕ} {before s : List Char} (hs : s <:+ src) :
    ∀ item ∈ itemsFor n before s, p item := by
  induction n generalizing before s with
  | zero =>
    cases s
    all_goals
      intro item hitem
      cases hitem
  | succ n ih =>
    cases s with
    | nil =>
      intro item hitem
      cases hitem
    | cons c cs =>
      have hreads := @nextItem_reads before _ (List.cons_ne_nil c cs)
      rw [itemsFor]
      exact List.forall_mem_cons.mpr ⟨hp before _ (List.cons_ne_nil c cs) hs, ih (hreads.suffix.trans hs)⟩

theorem parts_of_mem_itemsOf {src : List Char} {item : Item} (hitem : item ∈ itemsOf src) :
    ∀ p ∈ item.parts, p <:+: src :=
  of_mem_itemsFor (p := fun item => ∀ p ∈ item.parts, p <:+: src)
    (fun _ _ hne hs p hp => ((nextItem_reads hne).parts p hp).trans hs.isInfix) List.suffix_rfl item hitem

/-! ### The tags of the output -/

/-- The tags of a fragment, without their brackets. -/
def tagsOf (html : List Char) : List (List Char) := tagsBetween '<' '>' html

/-- The tags of a fragment that are no line breaks. -/
def keptTags (html : List Char) : List (List Char) := (tagsOf html).filter fun t => decide (t ≠ "br".toList)

section
variable {src html : List Char}

theorem keptTags_append {x y : List Char} (hx : Tagged (markup src) x) :
    keptTags (x ++ y) = keptTags x ++ keptTags y := by
  have happend : tagsOf (x ++ y) = tagsOf x ++ tagsOf y := hx.tags_append
  rw [keptTags, happend, List.filter_append]
  rfl

theorem tagsOf_cons {c : Char} {s : List Char} (hc : c ≠ '<') : tagsOf (c :: s) = tagsOf s :=
  Tagged.tags_cons (M := markup []) hc

/-- Blanks are no part of a tag that follows them. -/
theorem keptTags_dropWhile_isTab (s : List Char) : keptTags (s.dropWhile isTab) = keptTags s := by
  induction s with
  | nil => rfl
  | cons c s ih =>
    rw [List.dropWhile_cons]
    split_ifs with hc
    · have hne : c ≠ '<' := by
        rintro rfl
        cases hc
      rw [ih, keptTags, keptTags, tagsOf_cons hne]
    · rfl

theorem keptTags_of_break {s rest : List Char} (heat : eatExactly "<br>".toList s = some rest) :
    keptTags s = keptTags rest := by
  cases eatExactly_eq_some.mp heat
  have hstop : '>' ∉ "br".toList := by decide
  have htags : tagsOf ("<br>".toList ++ rest) = "br".toList :: tagsOf rest := Tagged.tags_tag (M := markup []) hstop
  rw [keptTags, htags, List.filter_cons_of_neg (by decide)]
  rfl

theorem keptTags_skipBreaks (n : ℕ) (s : List Char) : keptTags (skipBreaks n s) = keptTags s := by
  induction n generalizing s with
  | zero => rfl
  | succ n ih =>
    unfold skipBreaks
    cases heat : eatExactly "<br>".toList (s.dropWhile isTab) with
    | none => rfl
    | some rest => rw [← keptTags_dropWhile_isTab s, keptTags_of_break heat]; exact ih rest

theorem breakBefore_keeps {s out rest : List Char} (hbreak : breakBefore s = some (out, rest)) :
    keptTags s = keptTags out ++ keptTags rest := by
  obtain ⟨behind, heat, hrest⟩ := Option.bind_eq_some_iff.mp hbreak
  split_ifs at hrest
  cases hrest
  rw [keptTags_of_break heat, keptTags_dropWhile_isTab]
  rfl

theorem breaksBehind_keeps {s out rest : List Char} (hbreak : breaksBehind s = some (out, rest)) :
    keptTags s = keptTags out ++ keptTags rest := by
  obtain ⟨name, hname, behind, left, rfl, heat, hleft, rfl⟩ := breaksBehind_eq_some hbreak
  have hopening : Tagged (markup []) ("<".toList ++ name ++ ">".toList) := tagged_of_fixed (blockNames_fixed name hname)
  rw [eatExactly_eq_some.mp heat, keptTags_append hopening, keptTags_skipBreaks, ← keptTags_of_break hleft,
    keptTags_dropWhile_isTab]

/-- Dropping line breaks leaves the other tags where they are. -/
theorem keptTags_cleanup (h : Tagged (markup src) html) : keptTags (cleanupBlockBreaks html) = keptTags html := by
  have hfirst : Tagged (markup src) (replaceAll breakBefore html) :=
    Tagged.replaceFor (fun _ _ hc => breakBefore_cons_ne hc) (fun _ _ _ => breakBefore_tagged) _ h
  have hbefore : keptTags (replaceAll breakBefore html) = keptTags html := by
    refine Tagged.tags_replaceFor (fun _ _ hc => breakBefore_cons_ne hc) (fun s out rest hs hbreak => ?_) _ h
    obtain ⟨hout, hrest⟩ := breakBefore_tagged hs hbreak
    exact ⟨hout, hrest, breakBefore_keeps hbreak⟩
  have hbehind : keptTags (cleanupBlockBreaks html) = keptTags (replaceAll breakBefore html) := by
    refine Tagged.tags_replaceFor (fun _ _ hc => breaksBehind_cons_ne hc) (fun s out rest hs hbreak => ?_) _ hfirst
    obtain ⟨hout, hrest⟩ := breaksBehind_tagged hs hbreak
    exact ⟨hout, hrest, breaksBehind_keeps hbreak⟩
  rw [hbehind, hbefore]

end

/-- **The tags of the output** are those that were built, in their order, but for line breaks. -/
theorem keptTags_render (raw : List Char) :
    keptTags (renderTradingViewDescription raw) = keptTags (build (itemsOf (escapeHtml raw)) []) := by
  have hframes : Framed (escapeHtml raw) [] := fun f hf => nomatch hf
  have hbuilt : Tagged (markup (escapeHtml raw)) (build (itemsOf (escapeHtml raw)) []) := by
    rw [itemsOf, ← renderFor_eq_build]
    exact renderFor_tagged (fun _ hc => escapeHtml_clean hc) List.suffix_rfl hframes
  rw [render_eq_build, keptTags_cleanup hbuilt]

end StratTrader.Frontend
