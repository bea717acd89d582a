import StratTrader.Foundation.Tagged
import StratTrader.Frontend.Description

/-!
# What the text of a description can come to

The security model of `core/util/tradingview-description.ts`: the text is escaped first, and only tags
that the renderer builds itself are emitted. What is left to show is that no later step breaks a tag or
makes one: neither the items that cut the escaped text, nor the two rewrites that drop line breaks.

## What is proved

* `renderFor_tagged`: what the loop emits is made of tags and escaped text, from any stack of frames.
* `breakBefore_tagged`, `breaksBehind_tagged`: the rewrites keep a text one.
* `render_injectionFree`: every bracket in the output begins a tag that the renderer builds, whose
  address, where it has one, is of the escaped text, is safe, and has no mark.

## Honest scope

A tag is known by its whole text, attributes included. What a browser or a second sanitizer makes of the
fragment is not said here.
-/

namespace StratTrader.Frontend

open StratTrader.Foundation

/-! ### Tags -/

/-- The marks that a text cannot keep. -/
def marks : List Char := ['<', '>', '"', '\'']

/-- The tags without an attribute. -/
def fixedTags : List (List Char) :=
  ["<br>".toList, "<strong>".toList, "</strong>".toList, "<em>".toList, "</em>".toList, "<s>".toList, "</s>".toList,
    "</a>".toList, "<ul>".toList, "</ul>".toList, "<ol>".toList, "</ol>".toList, "<li>".toList, "</li>".toList,
    "<blockquote>".toList, "</blockquote>".toList, "<pre>".toList, "</pre>".toList, "<code>".toList, "</code>".toList]

/-- An address that is emitted for an escaped text: a part of it that `safeUrl` accepts as it is, without a mark. -/
structure Address (src u : List Char) : Prop where
  /-- It is part of the text. -/
  part : u <:+: src
  /-- `safeUrl` accepts it. -/
  safe : safeUrl u = some u
  /-- It has no mark. -/
  clean : ∀ c ∈ u, c ∉ marks

/-- A tag that is built for an escaped text. -/
inductive Built (src : List Char) : List Char → Prop where
  /-- A tag without an attribute. -/
  | fixed {t : List Char} (ht : t ∈ fixedTags) : Built src t
  /-- The opening tag of a link. -/
  | link {u : List Char} (hu : Address src u) : Built src (linkTag u)
  /-- An image. -/
  | image {u : List Char} (hu : Address src u) : Built src (imageTag u)

theorem fixedTags_shape :
    ∀ t ∈ fixedTags, t = '<' :: (t.tail.dropLast ++ ['>']) ∧ '<' ∉ t.tail.dropLast ∧ '>' ∉ t.tail.dropLast := by
  decide

theorem Address.not_mem {src u : List Char} (hu : Address src u) {c : Char} (hc : c ∈ marks) : c ∉ u :=
  fun hmem => hu.clean c hmem hc

/-- An address within a tag does not bring a mark into it. -/
theorem Address.within {src u a b : List Char} (hu : Address src u) {c : Char} (hc : c ∈ marks) (ha : c ∉ a)
    (hb : c ∉ b) : c ∉ a ++ (u ++ b) := by
  intro hmem
  rcases List.mem_append.mp hmem with hin | hin
  · exact ha hin
  · rcases List.mem_append.mp hin with hin | hin
    · exact hu.not_mem hc hin
    · exact hb hin

/-- What is put around an address is closed by the brackets of the tag. -/
theorem Address.shape {src u a b opening closing : List Char} (hu : Address src u) (hopen : opening = '<' :: a)
    (hclose : closing = b ++ ['>']) (ha : '<' ∉ a ∧ '>' ∉ a) (hb : '<' ∉ b ∧ '>' ∉ b) :
    ∃ body, opening ++ u ++ closing = '<' :: (body ++ ['>']) ∧ '<' ∉ body ∧ '>' ∉ body := by
  refine ⟨a ++ (u ++ b), ?_, hu.within (by decide) ha.1 hb.1, hu.within (by decide) ha.2 hb.2⟩
  rw [hopen, hclose, List.cons_append, List.cons_append, List.append_assoc, List.append_assoc, List.append_assoc]

/-- What stands between the brackets of a tag has none. -/
theorem Built.shape {src t : List Char} (h : Built src t) :
    ∃ body, t = '<' :: (body ++ ['>']) ∧ '<' ∉ body ∧ '>' ∉ body := by
  cases h with
  | fixed ht => exact ⟨_, fixedTags_shape t ht⟩
  | link hu =>
    have hclose : "\" target=\"_blank\" rel=\"nofollow noopener noreferrer\">".toList
        = "\" target=\"_blank\" rel=\"nofollow noopener noreferrer\"".toList ++ ['>'] := by decide
    exact hu.shape (show "<a href=\"".toList = '<' :: "a href=\"".toList by decide) hclose (by decide) (by decide)
  | image hu =>
    have hclose : "\" alt=\"chart image\">".toList = "\" alt=\"chart image\"".toList ++ ['>'] := by decide
    exact hu.shape (show "<img src=\"".toList = '<' :: "img src=\"".toList by decide) hclose (by decide) (by decide)

/-- The markup of what is emitted for an escaped text. -/
def markup (src : List Char) : Markup Char where
  start := '<'
  stop := '>'
  IsTag := Built src
  IsPlain c := c ∉ marks
  start_not_plain h := h (by decide)
  shape _ h := h.shape
  start_ne_stop := by decide

/-! ### Escaped text -/

theorem escapeMap_clean : ∀ e ∈ escapeMap, ∀ c ∈ e.2, c ∉ marks := by decide

theorem marks_escaped : ∀ c ∈ marks, (escapeMap.lookup c).isSome = true := by decide

/-- Escaped text has no mark. -/
theorem escapeHtml_clean {raw : List Char} {c : Char} (hc : c ∈ escapeHtml raw) : c ∉ marks := by
  obtain ⟨d, -, hd⟩ := List.mem_flatMap.mp hc
  unfold escapeChar at hd
  cases hlookup : escapeMap.lookup d with
  | some e =>
    rw [hlookup] at hd
    obtain ⟨before, after, heq, -⟩ := List.lookup_eq_some_iff.mp hlookup
    have hmem : (d, e) ∈ escapeMap := heq ▸ List.mem_append_right _ List.mem_cons_self
    exact escapeMap_clean _ hmem c hd
  | none =>
    rw [hlookup] at hd
    cases List.mem_singleton.mp hd
    intro hmark
    have hsome := marks_escaped c hmark
    rw [hlookup] at hsome
    cases hsome

section
variable {src : List Char}

/-- What is accepted of a part of the text is an address. -/
theorem address_of_safeUrl (hsrc : ∀ c ∈ src, c ∉ marks) {p u : List Char} (hp : p <:+: src)
    (hu : safeUrl p = some u) : Address src u := by
  have htrim : u = trim p := by
    unfold safeUrl at hu
    dsimp only at hu
    split_ifs at hu
    all_goals exact (Option.some.inj hu).symm
  have hpart : u <:+: src := htrim ▸ (trimBy_isInfix isWhite p).trans hp
  refine ⟨hpart, ?_, fun c hc => hsrc c (hpart.subset hc)⟩
  have hagain : trim u = trim p := by
    rw [htrim]
    exact trimBy_idem isWhite p
  unfold safeUrl at hu ⊢
  rw [hagain]
  exact hu

theorem tagged_of_fixed {t : List Char} (ht : t ∈ fixedTags) : Tagged (markup src) t := .of_tag (.fixed ht)

theorem textToHtml_tagged {cs : List Char} (hcs : ∀ c ∈ cs, c ∉ marks) : Tagged (markup src) (textToHtml cs) := by
  induction cs using textToHtml.induct with
  | case1 cs ih =>
    unfold textToHtml
    exact (tagged_of_fixed (by decide)).append
      (ih fun c hc => hcs c (List.mem_cons_of_mem _ (List.mem_cons_of_mem _ hc)))
  | case2 c cs hnot hbreak ih =>
    rw [textToHtml, if_pos hbreak]
    · exact (tagged_of_fixed (by decide)).append (ih fun d hd => hcs d (List.mem_cons_of_mem _ hd))
    · exact hnot
  | case3 c cs hnot hbreak ih =>
    rw [textToHtml, if_neg hbreak]
    · exact .plain (hcs c List.mem_cons_self) (ih fun d hd => hcs d (List.mem_cons_of_mem _ hd))
    · exact hnot
  | case4 => exact .nil

/-! ### Frames -/

variable (src) in
/-- Every frame closes with tags. -/
def Framed (stack : List Frame) : Prop := ∀ f ∈ stack, Tagged (markup src) f.close

/-- What was emitted, and the stack, are right. -/
def Keeps (src : List Char) (result : List Char × List Frame) : Prop :=
  Tagged (markup src) result.1 ∧ Framed src result.2

variable {stack : List Frame}

theorem Framed.of_subset {frames : List Frame} (h : Framed src stack) (hsub : frames ⊆ stack) : Framed src frames :=
  fun f hf => h f (hsub hf)

theorem Framed.cons {f : Frame} (hf : Tagged (markup src) f.close) (h : Framed src stack) : Framed src (f :: stack) :=
  List.forall_mem_cons.mpr ⟨hf, h⟩

theorem Framed.dropWhile (h : Framed src stack) (p : Frame → Bool) : Framed src (stack.dropWhile p) :=
  h.of_subset (List.dropWhile_suffix p).subset

theorem closes_tagged (h : Framed src stack) : Tagged (markup src) (closes stack) := by
  induction stack with
  | nil => exact .nil
  | cons f stack ih =>
    obtain ⟨hf, hrest⟩ := List.forall_mem_cons.mp h
    exact hf.append (ih hrest)

theorem closes_takeWhile_tagged (h : Framed src stack) (p : Frame → Bool) :
    Tagged (markup src) (closes (stack.takeWhile p)) :=
  closes_tagged (h.of_subset (List.takeWhile_prefix p).subset)

theorem closeUntil_keeps (h : Framed src stack) (p : Frame → Bool) : Keeps src (closeUntil p stack) := by
  unfold closeUntil
  cases hdrop : stack.dropWhile fun f => !p f with
  | nil => exact ⟨.nil, h⟩
  | cons f below =>
    have hleft := h.dropWhile fun f => !p f
    rw [hdrop] at hleft
    obtain ⟨hf, hbelow⟩ := List.forall_mem_cons.mp hleft
    exact ⟨(closes_takeWhile_tagged h _).append hf, hbelow⟩

theorem listItem_keeps (h : Framed src stack) : Keeps src (listItem stack) := by
  unfold listItem
  cases hdrop : stack.dropWhile fun f => decide (f.kind ≠ .list) with
  | nil => exact ⟨.nil, h⟩
  | cons f below =>
    have hleft := h.dropWhile fun f => decide (f.kind ≠ .list)
    rw [hdrop] at hleft
    exact ⟨(closes_takeWhile_tagged h _).append (tagged_of_fixed (by decide)),
      hleft.cons (tagged_of_fixed (by decide))⟩

theorem openBlock_keeps (h : Framed src stack) (kind : FrameKind) {opening closing : String}
    (hopen : opening.toList ∈ fixedTags) (hclose : closing.toList ∈ fixedTags) :
    Keeps src (openBlock kind opening closing stack) :=
  ⟨(closes_takeWhile_tagged h _).append (tagged_of_fixed hopen), (h.dropWhile _).cons (tagged_of_fixed hclose)⟩

theorem inlineTags_tagged :
    ∀ e ∈ inlineTags, (e.2.1 = [] ∨ e.2.1 ∈ fixedTags) ∧ (e.2.2 = [] ∨ e.2.2 ∈ fixedTags) := by
  decide

theorem blockTags_fixed :
    ∀ e ∈ blockTags, e.2.1.toList ∈ fixedTags ∧ e.2.2.toList ∈ fixedTags := by
  decide

theorem tagged_of_nil_or_fixed {t : List Char} (ht : t = [] ∨ t ∈ fixedTags) : Tagged (markup src) t := by
  rcases ht with rfl | ht
  · exact .nil
  · exact tagged_of_fixed ht

/-! ### The loop -/

/-- What a tag comes to is made of tags. -/
theorem onTag_keeps (hsrc : ∀ c ∈ src, c ∉ marks) {attr : Option (List Char)} (hattr : ∀ a ∈ attr, a <:+: src)
    (h : Framed src stack) (closing : Bool) (name : List Char) : Keeps src (onTag closing name attr stack) := by
  have hstep := onTag_step closing name attr stack
  generalize hfound : (Item.tag closing name attr).address.bind safeUrl = found at hstep
  generalize onTag closing name attr stack = result at hstep ⊢
  cases hstep with
  | skip => exact ⟨.nil, h⟩
  | close p => exact closeUntil_keeps h p
  | item => exact listItem_keeps h
  | inline htag =>
    obtain ⟨hopen, hclose⟩ := inlineTags_tagged _ htag
    exact ⟨tagged_of_nil_or_fixed hopen, h.cons (tagged_of_nil_or_fixed hclose)⟩
  | link u =>
    obtain ⟨a, ha, hu⟩ := Option.bind_eq_some_iff.mp hfound
    have haddress : Address src u := address_of_safeUrl hsrc (hattr a (attr_of_address ha)) hu
    have hclose : "</a>".toList ∈ fixedTags := by decide
    exact ⟨.of_tag (.link haddress), h.cons (tagged_of_fixed hclose)⟩
  | unlinked => exact ⟨.nil, h.cons .nil⟩
  | block hblock =>
    obtain ⟨hopen, hclose⟩ := blockTags_fixed _ hblock
    exact openBlock_keeps h _ hopen hclose

/-- A listing is made of tags and of its text. -/
theorem pine_tagged {code : List Char} (hcode : ∀ c ∈ code, c ∉ marks) :
    Tagged (markup src) ("<pre><code>".toList ++ code ++ "</code></pre>".toList) := by
  have hopen : Tagged (markup src) "<pre><code>".toList :=
    (tagged_of_fixed (t := "<pre>".toList) (by decide)).append (tagged_of_fixed (t := "<code>".toList) (by decide))
  have hclose : Tagged (markup src) "</code></pre>".toList :=
    (tagged_of_fixed (t := "</code>".toList) (by decide)).append (tagged_of_fixed (t := "</pre>".toList) (by decide))
  exact (hopen.append (.of_plain hcode)).append hclose

/-- What an item comes to is made of tags and of the text. -/
theorem onItem_keeps (hsrc : ∀ c ∈ src, c ∉ marks) {item : Item} (hparts : ∀ p ∈ item.parts, p <:+: src)
    (h : Framed src stack) : Keeps src (onItem item stack) := by
  cases item with
  | text cs =>
    have hcs : cs <:+: src := hparts cs (List.mem_singleton.mpr rfl)
    exact ⟨textToHtml_tagged fun c hc => hsrc c (hcs.subset hc), h⟩
  | pine code =>
    have hcode : code <:+: src := hparts code (List.mem_singleton.mpr rfl)
    exact ⟨pine_tagged fun c hc => hsrc c (hcode.subset hc), h⟩
  | screen => exact ⟨.nil, h⟩
  | image content =>
    have hcontent : content <:+: src := hparts content (List.mem_singleton.mpr rfl)
    refine ⟨?_, h⟩
    dsimp only [onItem]
    cases hsafe : safeUrl content with
    | none => exact .nil
    | some url => exact .of_tag (.image (address_of_safeUrl hsrc hcontent hsafe))
  | bracket =>
    have hclean : ∀ c ∈ ['['], c ∉ marks := by decide
    exact ⟨.of_plain hclean, h⟩
  | tag closing name attr => exact onTag_keeps hsrc (fun a ha => hparts a (Option.mem_toList.mpr ha)) h closing name

/-- **What the loop emits** is made of tags and of the text, for any stack of frames. -/
theorem renderFor_tagged (hsrc : ∀ c ∈ src, c ∉ marks) {n : ℕ} {before s : List Char} (hs : s <:+ src)
    (h : Framed src stack) : Tagged (markup src) (renderFor n before s stack) := by
  induction n generalizing before s stack with
  | zero => cases s <;> exact closes_tagged h
  | succ n ih =>
    cases s with
    | nil => exact closes_tagged h
    | cons c cs =>
      have hreads := @nextItem_reads before _ (List.cons_ne_nil c cs)
      have hkeeps : Keeps src (onItem (nextItem before (c :: cs)).1 stack) :=
        onItem_keeps hsrc (fun p hp => (hreads.parts p hp).trans hs.isInfix) h
      unfold renderFor
      exact hkeeps.1.append (ih (hreads.suffix.trans hs) hkeeps.2)

/-! ### Dropping line breaks -/

theorem tagged_behind_break {s rest : List Char} (h : Tagged (markup src) s)
    (heat : eatExactly "<br>".toList s = some rest) : Tagged (markup src) rest := by
  cases eatExactly_eq_some.mp heat
  exact h.of_tag_append (.fixed (by decide))

theorem isTab_start : isTab (markup src).start = false := show isTab '<' = false by decide

theorem breakBefore_tagged {s out rest : List Char} (h : Tagged (markup src) s)
    (hbreak : breakBefore s = some (out, rest)) : Tagged (markup src) out ∧ Tagged (markup src) rest := by
  obtain ⟨behind, heat, hrest⟩ := Option.bind_eq_some_iff.mp hbreak
  split_ifs at hrest
  cases hrest
  exact ⟨.nil, (tagged_behind_break h heat).dropWhile isTab_start⟩

theorem skipBreaks_tagged {n : ℕ} {s : List Char} (h : Tagged (markup src) s) :
    Tagged (markup src) (skipBreaks n s) := by
  induction n generalizing s with
  | zero => exact h
  | succ n ih =>
    unfold skipBreaks
    cases heat : eatExactly "<br>".toList (s.dropWhile isTab) with
    | none => exact h
    | some rest => exact ih (tagged_behind_break (h.dropWhile isTab_start) heat)

theorem blockNames_fixed : ∀ name ∈ blockNames, "<".toList ++ name ++ ">".toList ∈ fixedTags := by decide

/-- What is put behind the opening tag of a block, and what is left. -/
theorem breaksBehind_eq_some {s out rest : List Char} (h : breaksBehind s = some (out, rest)) :
    ∃ name ∈ blockNames, ∃ behind left, out = "<".toList ++ name ++ ">".toList ∧ eatExactly out s = some behind ∧
      eatExactly "<br>".toList (behind.dropWhile isTab) = some left ∧ rest = skipBreaks left.length left := by
  obtain ⟨⟨opening, behind⟩, hopen, hrest⟩ := Option.bind_eq_some_iff.mp h
  obtain ⟨name, hname, hfound⟩ := List.exists_of_findSome?_eq_some hopen
  obtain ⟨after, heat, heq⟩ := Option.map_eq_some_iff.mp hfound
  cases heq
  obtain ⟨left, hleft, heq⟩ := Option.map_eq_some_iff.mp hrest
  cases heq
  exact ⟨name, hname, _, left, rfl, heat, hleft, rfl⟩

theorem breaksBehind_tagged {s out rest : List Char} (h : Tagged (markup src) s)
    (hbreak : breaksBehind s = some (out, rest)) : Tagged (markup src) out ∧ Tagged (markup src) rest := by
  obtain ⟨name, hname, behind, left, rfl, heat, hleft, rfl⟩ := breaksBehind_eq_some hbreak
  have hfixed := blockNames_fixed name hname
  cases eatExactly_eq_some.mp heat
  have hbehind : Tagged (markup src) behind := h.of_tag_append (Built.fixed hfixed)
  exact ⟨tagged_of_fixed hfixed,
    skipBreaks_tagged (tagged_behind_break (hbehind.dropWhile isTab_start) hleft)⟩

theorem eatExactly_cons_ne {p s : List Char} {d c : Char} (hc : c ≠ d) : eatExactly (d :: p) (c :: s) = none :=
  if_neg fun heq => hc (of_decide_eq_true heq).symm

theorem breakBefore_cons_ne {c : Char} {s : List Char} (hc : c ≠ '<') : breakBefore (c :: s) = none := by
  unfold breakBefore
  rw [show "<br>".toList = '<' :: "br>".toList from rfl, eatExactly_cons_ne hc]
  rfl

theorem breaksBehind_cons_ne {c : Char} {s : List Char} (hc : c ≠ '<') : breaksBehind (c :: s) = none := by
  unfold breaksBehind
  have hopen (name : List Char) : eatExactly ("<".toList ++ name ++ ">".toList) (c :: s) = none :=
    eatExactly_cons_ne hc
  rw [List.findSome?_eq_none_iff.mpr fun name _ => by rw [hopen]; rfl]
  rfl

/-- Dropping line breaks keeps what is made of tags and of text so. -/
theorem cleanupBlockBreaks_tagged {html : List Char} (h : Tagged (markup src) html) :
    Tagged (markup src) (cleanupBlockBreaks html) := by
  have hfirst : Tagged (markup src) (replaceAll breakBefore html) :=
    Tagged.replaceFor (fun _ _ hc => breakBefore_cons_ne hc) (fun _ _ _ => breakBefore_tagged) _ h
  exact Tagged.replaceFor (fun _ _ hc => breaksBehind_cons_ne hc) (fun _ _ _ => breaksBehind_tagged) _ hfirst

end

theorem render_tagged (raw : List Char) : Tagged (markup (escapeHtml raw)) (renderTradingViewDescription raw) := by
  unfold renderTradingViewDescription
  split_ifs
  · exact .nil
  · have hframes : Framed (escapeHtml raw) [] := fun f hf => nomatch hf
    exact cleanupBlockBreaks_tagged (renderFor_tagged (fun _ hc => escapeHtml_clean hc) List.suffix_rfl hframes)

/-- **The output is free of injections.** It is made of tags that the renderer builds and of text without a mark, so
that every bracket begins such a tag. -/
theorem render_injectionFree (raw : List Char) :
    Tagged (markup (escapeHtml raw)) (renderTradingViewDescription raw) ∧
      ∀ before after, renderTradingViewDescription raw = before ++ '<' :: after →
        ∃ t, Built (escapeHtml raw) t ∧ t <+: '<' :: after :=
  ⟨render_tagged raw, fun _ _ hout => (render_tagged raw).begins hout⟩

end StratTrader.Frontend
