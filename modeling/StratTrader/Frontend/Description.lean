import StratTrader.Foundation.Patterns

/-!
# Rendering a description

`core/util/tradingview-description.ts`: a script description in TradingView's markup, rendered as a
fragment of HTML. The text is escaped, read from the left to the right one item at a time, and what the
items come to is put together and cleaned of superfluous line breaks.

## What is proved

* `nextItem_reads`: an item takes at least one character, and what it is made of is part of the text.
* `onTag_step`: all that a tag can come to.

## Honest scope

A text is a list of characters: no pattern of the code is about a unit beyond ASCII, but for blanks.
`INLINE[name]` also finds the `constructor` that every object has, whose tags are undefined and are
joined as nothing.
-/

namespace StratTrader.Frontend

open StratTrader.Foundation

/-! ### Escaping -/

/-- The characters of `ESCAPE_MAP`. -/
def escapeMap : List (Char × List Char) :=
  [('&', "&amp;".toList), ('<', "&lt;".toList), ('>', "&gt;".toList), ('"', "&quot;".toList), ('\'', "&#39;".toList)]

/-- What a character is escaped as. -/
def escapeChar (c : Char) : List Char := (escapeMap.lookup c).getD [c]

/-- `escapeHtml`. -/
def escapeHtml (s : List Char) : List Char := s.flatMap escapeChar

/-! ### Addresses -/

/-- A character that `trim` takes away. -/
def isWhite (c : Char) : Bool :=
  decide (c.toNat ∈ [9, 10, 11, 12, 13, 32, 160, 5760, 8232, 8233, 8239, 8287, 12288, 65279]) ||
    (decide (8192 ≤ c.toNat) && decide (c.toNat ≤ 8202))

/-- `trim`. -/
def trim (s : List Char) : List Char := trimBy isWhite s

/-- A character of a pattern with the flag `i`, which is written in lower case. -/
def ignoreCase (p c : Char) : Bool := decide (c.toLower = p)

/-- `/^https?:\/\//i`. -/
def isHttp (u : List Char) : Bool :=
  (eat ignoreCase "http://".toList u).isSome || (eat ignoreCase "https://".toList u).isSome

/-- `/^\/(?![/\\])/`. -/
def isSitePath : List Char → Bool
  | '/' :: c :: _ => decide (c ≠ '/') && decide (c ≠ '\\')
  | ['/'] => true
  | _ => false

/-- `safeUrl`. -/
def safeUrl (escapedUrl : List Char) : Option (List Char) :=
  let u := trim escapedUrl
  if u = [] then none else if isHttp u then some u else if isSitePath u then some u else none

/-! ### Items -/

/-- What the loop reads in one turn. -/
inductive Item where
  /-- Text up to the next bracket. -/
  | text (cs : List Char)
  /-- The content of a `[pine]`. -/
  | pine (code : List Char)
  /-- A `[screen]` block. -/
  | screen
  /-- The content of an `[image]`. -/
  | image (content : List Char)
  /-- A bracket by itself. -/
  | bracket
  /-- A tag: whether it closes, its name in lower case, and its attribute. -/
  | tag (closing : Bool) (name : List Char) (attr : Option (List Char))
  deriving DecidableEq

/-- `/^open([\s\S]*?)close/i`: the content, and what is left. -/
def between (opening closing : String) (s : List Char) : Option (List Char × List Char) :=
  (eat ignoreCase opening.toList s).bind (upTo ignoreCase closing.toList)

/-- `atLineStart`, of the text before, from its end. -/
def atLineStart (before : List Char) : Bool :=
  match before.dropWhile fun c => decide (c = ' ') || decide (c = '\t') with
  | [] => true
  | c :: _ => decide (c = '\n')

/-- The name of a tag, and what is behind it. -/
def tagName : List Char → Option (List Char × List Char)
  | [] => none
  | c :: cs =>
    if c.isAlpha || decide (c = '*') then some (c :: cs.takeWhile Char.isAlphanum, cs.dropWhile Char.isAlphanum)
    else none

/-- The attribute of a tag, if there is one, and what is behind its bracket. -/
def tagAttr : List Char → Option (Option (List Char) × List Char)
  | ']' :: behind => some (none, behind)
  | '=' :: cs =>
    match cs.dropWhile fun c => decide (c ≠ ']') with
    | _ :: behind => some (some (cs.takeWhile fun c => decide (c ≠ ']')), behind)
    | [] => none
  | _ => none

/-- Whether a tag closes, and what is behind the slash. -/
def tagSlash : List Char → Bool × List Char
  | '/' :: cs => (true, cs)
  | cs => (false, cs)

/-- `/^\[(\/?)([a-zA-Z*][a-zA-Z0-9]*)(?:=([^\]]*))?\]/`, behind the bracket. -/
def genericTag (s : List Char) : Option (Item × List Char) :=
  (tagName (tagSlash s).2).bind fun (name, rest) =>
    (tagAttr rest).map fun (attr, behind) => (.tag (tagSlash s).1 (name.map Char.toLower) attr, behind)

/-- What the loop reads at a bracket. -/
def bracketItem (before s : List Char) : Item × List Char :=
  match between "[pine]" "[/pine]" s with
  | some (code, behind) => (.pine code, behind)
  | none =>
    match eat ignoreCase "[pine]".toList s with
    | some code => (.pine code, [])
    | none =>
      match if atLineStart before then between "[screen]" "[/screen]" s else none with
      | some (_, behind) => (.screen, behind)
      | none =>
        match between "[image]" "[/image]" s with
        | some (content, behind) => (.image content, behind)
        | none => (genericTag s.tail).getD (.bracket, s.tail)

/-- What the loop reads next: the item, and what is left. -/
def nextItem (before : List Char) (s : List Char) : Item × List Char :=
  if s.head? = some '[' then bracketItem before s
  else (.text (s.takeWhile fun c => decide (c ≠ '[')), s.dropWhile fun c => decide (c ≠ '['))

/-! ### What items come to -/

/-- What kind of element a frame closes. -/
inductive FrameKind where
  /-- `inline`, with its tag. -/
  | inline (bb : List Char)
  /-- `list`. -/
  | list
  /-- `li`. -/
  | li
  /-- `quote`. -/
  | quote
  deriving DecidableEq

/-- `Frame`. -/
structure Frame where
  /-- `kind`. -/
  kind : FrameKind
  /-- `close`. -/
  close : List Char

/-- The frame is of an inline tag. -/
def Frame.isInline (f : Frame) : Bool :=
  match f.kind with
  | .inline _ => true
  | _ => false

/-- `INLINE`. -/
def inlineTags : List (List Char × (List Char × List Char)) :=
  [("b".toList, "<strong>".toList, "</strong>".toList), ("i".toList, "<em>".toList, "</em>".toList),
    ("s".toList, "<s>".toList, "</s>".toList), ("constructor".toList, [], [])]

/-- `textToHtml`. -/
def textToHtml : List Char → List Char
  | '\r' :: '\n' :: cs => "<br>".toList ++ textToHtml cs
  | c :: cs => if c = '\r' ∨ c = '\n' then "<br>".toList ++ textToHtml cs else c :: textToHtml cs
  | [] => []

/-- What some frames are closed with, the top one first. -/
def closes (frames : List Frame) : List Char := frames.flatMap Frame.close

/-- `closeUntil`: what is emitted, and the stack. -/
def closeUntil (p : Frame → Bool) (stack : List Frame) : List Char × List Frame :=
  match stack.dropWhile fun f => !p f with
  | [] => ([], stack)
  | f :: below => (closes (stack.takeWhile fun f => !p f) ++ f.close, below)

/-- The opening tag of a link. -/
def linkTag (url : List Char) : List Char :=
  "<a href=\"".toList ++ url ++ "\" target=\"_blank\" rel=\"nofollow noopener noreferrer\">".toList

/-- An image. -/
def imageTag (url : List Char) : List Char := "<img src=\"".toList ++ url ++ "\" alt=\"chart image\">".toList

/-- The item of a list. -/
def listItem (stack : List Frame) : List Char × List Frame :=
  match stack.dropWhile fun f => decide (f.kind ≠ .list) with
  | [] => ([], stack)
  | list :: below =>
    (closes (stack.takeWhile fun f => decide (f.kind ≠ .list)) ++ "<li>".toList,
      ⟨.li, "</li>".toList⟩ :: list :: below)

/-- A block is opened when the inline tags on the top are closed. -/
def openBlock (kind : FrameKind) (opening closing : String) (stack : List Frame) : List Char × List Frame :=
  (closes (stack.takeWhile Frame.isInline) ++ opening.toList,
    ⟨kind, closing.toList⟩ :: stack.dropWhile Frame.isInline)

/-- What a tag comes to. -/
def onTag (closing : Bool) (name : List Char) (attr : Option (List Char)) (stack : List Frame) :
    List Char × List Frame :=
  let isTag (bb : List Char) (f : Frame) : Bool := decide (f.kind = .inline bb)
  if name = "*".toList then if closing then ([], stack) else listItem stack
  else
    match inlineTags.lookup name with
    | some (opening, close) =>
      if closing then closeUntil (isTag name) stack else (opening, ⟨.inline name, close⟩ :: stack)
    | none =>
      if name = "url".toList then
        if closing then closeUntil (isTag name) stack
        else
          match attr.bind safeUrl with
          | some url => (linkTag url, ⟨.inline name, "</a>".toList⟩ :: stack)
          | none => ([], ⟨.inline name, []⟩ :: stack)
      else if name = "list".toList then
        if closing then closeUntil (fun f => decide (f.kind = .list)) stack
        else if trim (attr.getD []) = "1".toList then openBlock .list "<ol>" "</ol>" stack
        else openBlock .list "<ul>" "</ul>" stack
      else if name = "quote".toList then
        if closing then closeUntil (fun f => decide (f.kind = .quote)) stack
        else openBlock .quote "<blockquote>" "</blockquote>" stack
      else ([], stack)

/-- What an item comes to: what is emitted, and the stack. -/
def onItem (item : Item) (stack : List Frame) : List Char × List Frame :=
  match item with
  | .text cs => (textToHtml cs, stack)
  | .pine code => ("<pre><code>".toList ++ code ++ "</code></pre>".toList, stack)
  | .screen => ([], stack)
  | .image content => (((safeUrl content).map imageTag).getD [], stack)
  | .bracket => (['['], stack)
  | .tag closing name attr => onTag closing name attr stack

/-! ### The loop -/

/-- What is rendered of the text that is left, in so many turns, each of which takes a character at least. -/
def renderFor : ℕ → List Char → List Char → List Frame → List Char
  | _, _, [], stack => closes stack
  | 0, _, _ :: _, stack => closes stack
  | n + 1, before, c :: cs, stack =>
    let next := nextItem before (c :: cs)
    let done := (c :: cs).take (cs.length + 1 - next.2.length)
    let result := onItem next.1 stack
    result.1 ++ renderFor n (done.reverse ++ before) next.2 result.2

/-- The names of `BLOCK`. -/
def blockNames : List (List Char) :=
  ["ul".toList, "ol".toList, "li".toList, "blockquote".toList, "pre".toList]

/-- `[ \t]`. -/
def isTab (c : Char) : Bool := decide (c = ' ') || decide (c = '\t')

/-- `\b`, behind a letter. -/
def atBoundary (s : List Char) : Bool := s.head?.all fun c => !(c.isAlphanum || decide (c = '_'))

/-- A literal of a pattern without flags. -/
def eatExactly (p : List Char) (s : List Char) : Option (List Char) := eat (fun a b => decide (a = b)) p s

/-- `(?=</?(?:BLOCK)\b)`. -/
def atBlock (s : List Char) : Bool :=
  ((eatExactly "</".toList s).orElse fun _ => eatExactly "<".toList s).any fun rest =>
    blockNames.any fun name => (eatExactly name rest).any atBoundary

/-- A line break before a block. -/
def breakBefore : Rewrite Char := fun s =>
  (eatExactly "<br>".toList s).bind fun rest =>
    if atBlock (rest.dropWhile isTab) then some ([], rest.dropWhile isTab) else none

/-- `(?:[ \t]*<br>)*`, in so many turns. -/
def skipBreaks : ℕ → List Char → List Char
  | 0, s => s
  | n + 1, s =>
    match eatExactly "<br>".toList (s.dropWhile isTab) with
    | some rest => skipBreaks n rest
    | none => s

/-- The line breaks behind the opening tag of a block. -/
def breaksBehind : Rewrite Char := fun s =>
  (blockNames.findSome? fun name =>
    (eatExactly ("<".toList ++ name ++ ">".toList) s).map fun rest => ("<".toList ++ name ++ ">".toList, rest)).bind
    fun (opening, rest) =>
      (eatExactly "<br>".toList (rest.dropWhile isTab)).map fun rest => (opening, skipBreaks rest.length rest)

/-- `cleanupBlockBreaks`. -/
def cleanupBlockBreaks (html : List Char) : List Char := replaceAll breaksBehind (replaceAll breakBefore html)

/-- `renderTradingViewDescription`. -/
def renderTradingViewDescription (raw : List Char) : List Char :=
  if raw = [] then []
  else
    let src := escapeHtml raw
    cleanupBlockBreaks (renderFor src.length [] src [])

/-! ### What a tag can come to -/

/-- The address that an item brings with it. -/
def Item.address : Item → Option (List Char)
  | .image content => some content
  | .tag false name attr => if name = "url".toList then attr else none
  | _ => none

/-- The blocks, with their tags. -/
def blockTags : List (FrameKind × String × String) :=
  [(.list, "<ul>", "</ul>"), (.list, "<ol>", "</ol>"), (.quote, "<blockquote>", "</blockquote>")]

/-- The ways a tag can go, when the address that is accepted of it is given. -/
inductive TagStep (stack : List Frame) : Option (List Char) → List Char × List Frame → Prop where
  /-- Nothing comes of it. -/
  | skip : TagStep stack none ([], stack)
  /-- It closes frames. -/
  | close (p : Frame → Bool) : TagStep stack none (closeUntil p stack)
  /-- It begins an item of a list. -/
  | item : TagStep stack none (listItem stack)
  /-- It opens an inline tag. -/
  | inline {name opening close : List Char} (h : (name, opening, close) ∈ inlineTags) :
      TagStep stack none (opening, ⟨.inline name, close⟩ :: stack)
  /-- It opens a link. -/
  | link (u : List Char) : TagStep stack (some u) (linkTag u, ⟨.inline "url".toList, "</a>".toList⟩ :: stack)
  /-- It opens a link without an address. -/
  | unlinked : TagStep stack none ([], ⟨.inline "url".toList, []⟩ :: stack)
  /-- It opens a block. -/
  | block {kind : FrameKind} {opening closing : String} (h : (kind, opening, closing) ∈ blockTags) :
      TagStep stack none (openBlock kind opening closing stack)

theorem attr_of_address {closing : Bool} {name a : List Char} {attr : Option (List Char)}
    (h : (Item.tag closing name attr).address = some a) : attr = some a := by
  cases closing with
  | true => cases h
  | false =>
    rw [Item.address] at h
    split_ifs at h
    exact h

/-- **What a tag can come to.** -/
theorem onTag_step (closing : Bool) (name : List Char) (attr : Option (List Char)) (stack : List Frame) :
    TagStep stack ((Item.tag closing name attr).address.bind safeUrl) (onTag closing name attr stack) := by
  have hother (hname : name ≠ "url".toList) : (Item.tag closing name attr).address.bind safeUrl = none := by
    cases closing with
    | true => rfl
    | false => rw [Item.address, if_neg hname]; rfl
  unfold onTag
  dsimp only
  by_cases hitem : name = "*".toList
  · rw [if_pos hitem, hother (hitem ▸ by decide)]
    cases closing with
    | true => exact .skip
    | false => exact .item
  rw [if_neg hitem]
  cases hinline : inlineTags.lookup name with
  | some tags =>
    obtain ⟨opening, close⟩ := tags
    obtain ⟨before, after, heq, -⟩ := List.lookup_eq_some_iff.mp hinline
    have hmem : (name, opening, close) ∈ inlineTags := heq ▸ List.mem_append_right _ List.mem_cons_self
    have hname : name ≠ "url".toList := by
      rintro rfl
      cases hinline
    rw [hother hname]
    cases closing with
    | true => exact .close _
    | false => exact .inline hmem
  | none =>
  dsimp only
  by_cases hurl : name = "url".toList
  · rw [if_pos hurl]
    cases closing with
    | true => exact .close _
    | false =>
      rw [Item.address, if_pos hurl, if_neg Bool.false_ne_true, hurl]
      cases attr.bind safeUrl with
      | some u => exact .link u
      | none => exact .unlinked
  rw [if_neg hurl, hother hurl]
  by_cases hlist : name = "list".toList
  · rw [if_pos hlist]
    cases closing with
    | true => exact .close _
    | false =>
      rw [if_neg Bool.false_ne_true]
      split_ifs
      · exact .block (by decide)
      · exact .block (by decide)
  rw [if_neg hlist]
  by_cases hquote : name = "quote".toList
  · rw [if_pos hquote]
    cases closing with
    | true => exact .close _
    | false => exact .block (by decide)
  rw [if_neg hquote]
  exact .skip

/-! ### What is read -/

theorem eatExactly_eq_some {p s r : List Char} : eatExactly p s = some r ↔ s = p ++ r := by
  unfold eatExactly
  rw [eat_eq_some]
  constructor
  · rintro ⟨m, hm, rfl⟩
    have heq : List.Forall₂ (fun a b => a = b) p m := hm.imp fun _ _ h => of_decide_eq_true h
    rw [List.forall₂_eq_eq_eq] at heq
    rw [heq]
  · intro h
    exact ⟨p, List.forall₂_same.mpr fun _ _ => decide_eq_true rfl, h⟩

/-- Only a bracket is read as one. -/
theorem ignoreCase_bracket {c : Char} (h : ignoreCase '[' c = true) : c = '[' := by
  have hlower : c.toLower = '[' := of_decide_eq_true h
  unfold Char.toLower at hlower
  split_ifs at hlower with hupper
  · have hlow : 65 ≤ c.val.toNat := hupper.1
    have hhigh : c.val.toNat ≤ 90 := hupper.2
    have hval : (c.val + 32).toNat = 91 := congrArg (fun d : Char => d.val.toNat) hlower
    rw [UInt32.toNat_add] at hval
    have hthirtytwo : (32 : UInt32).toNat = 32 := rfl
    omega
  · exact hlower

/-- The parts of an item that may be emitted. -/
def Item.parts : Item → List (List Char)
  | .text cs => [cs]
  | .pine code => [code]
  | .image content => [content]
  | .tag _ _ attr => attr.toList
  | .screen | .bracket => []

/-- An item was read: some of the text was taken, and its parts are of the text. -/
structure Reads (s : List Char) (item : Item) (behind : List Char) : Prop where
  /-- What is left is the end of the text. -/
  suffix : behind <:+ s
  /-- Something was taken. -/
  shorter : behind.length < s.length
  /-- The parts are of the text. -/
  parts : ∀ p ∈ item.parts, p <:+: s

/-- What is found between two literals. -/
theorem between_eq_some {opening closing : String} {s a behind : List Char} (hopen : 0 < opening.toList.length)
    (h : between opening closing s = some (a, behind)) : behind <:+ s ∧ behind.length < s.length ∧ a <:+: s := by
  obtain ⟨r, heat, hup⟩ := Option.bind_eq_some_iff.mp h
  obtain ⟨m, -, hr⟩ := upTo_eq_some hup
  have hsuffix : r <:+ s := suffix_of_eat heat
  have hbehind : behind <:+ r := hr ▸ List.suffix_append _ _
  have ha : a <:+: r := ⟨[], m ++ behind, by rw [hr, List.nil_append, List.append_assoc]⟩
  refine ⟨hbehind.trans hsuffix, ?_, ha.trans hsuffix.isInfix⟩
  have hlength := length_of_eat heat
  have hle := hbehind.length_le
  omega

theorem tagAttr_eq_some {s behind : List Char} {attr : Option (List Char)} (h : tagAttr s = some (attr, behind)) :
    behind <:+ s ∧ ∀ a ∈ attr, a <:+: s := by
  unfold tagAttr at h
  split at h
  · cases h
    exact ⟨List.suffix_cons _ _, fun a ha => nomatch ha⟩
  · rename_i cs
    split at h
    · rename_i c rest hdrop
      cases h
      have hcs : cs = cs.takeWhile (fun c => decide (c ≠ ']')) ++ c :: behind := by
        rw [← hdrop, List.takeWhile_append_dropWhile]
      have hbehind : behind <:+ cs :=
        ⟨cs.takeWhile (fun c => decide (c ≠ ']')) ++ [c], by rw [List.append_assoc]; exact hcs.symm⟩
      refine ⟨hbehind.trans (List.suffix_cons _ _), ?_⟩
      rintro a ha
      cases ha
      exact (List.takeWhile_prefix _).isInfix.trans (List.suffix_cons _ _).isInfix
    · cases h
  · cases h

theorem genericTag_eq_some {s behind : List Char} {item : Item} (h : genericTag s = some (item, behind)) :
    behind <:+ s ∧ ∀ p ∈ item.parts, p <:+: s := by
  have hslash : (tagSlash s).2 <:+ s := by
    unfold tagSlash
    split
    · exact List.suffix_cons _ _
    · exact List.suffix_rfl
  obtain ⟨⟨name, rest⟩, hname, hattr⟩ := Option.bind_eq_some_iff.mp h
  obtain ⟨⟨attr, behind'⟩, hread, heq⟩ := Option.map_eq_some_iff.mp hattr
  cases heq
  have hrest : rest <:+ (tagSlash s).2 := by
    unfold tagName at hname
    cases hcs : (tagSlash s).2 with
    | nil =>
      rw [hcs] at hname
      cases hname
    | cons c cs =>
      rw [hcs] at hname
      dsimp only at hname
      split_ifs at hname
      cases hname
      exact (List.dropWhile_suffix _).trans (List.suffix_cons _ _)
  obtain ⟨hbehind, hparts⟩ := tagAttr_eq_some hread
  have hall : rest <:+ s := hrest.trans hslash
  refine ⟨hbehind.trans hall, fun p hp => ?_⟩
  exact (hparts p (Option.mem_toList.mp hp)).trans hall.isInfix

theorem bracketItem_reads {before s : List Char} (hs : s ≠ []) :
    Reads s (bracketItem before s).1 (bracketItem before s).2 := by
  have htail : s.tail.length < s.length := by
    rw [List.length_tail]
    exact Nat.sub_lt (List.length_pos_of_ne_nil hs) Nat.one_pos
  unfold bracketItem
  cases hpine : between "[pine]" "[/pine]" s with
  | some found =>
    obtain ⟨hbehind, hlength, hcode⟩ := between_eq_some (by decide) hpine
    exact ⟨hbehind, hlength, fun p hp => List.mem_singleton.mp hp ▸ hcode⟩
  | none =>
  cases hopen : eat ignoreCase "[pine]".toList s with
  | some code =>
    refine ⟨List.nil_suffix, List.length_pos_of_ne_nil hs, fun p hp => ?_⟩
    exact List.mem_singleton.mp hp ▸ (suffix_of_eat hopen).isInfix
  | none =>
  dsimp only
  cases hscreen : if atLineStart before then between "[screen]" "[/screen]" s else none with
  | some found =>
    split_ifs at hscreen
    obtain ⟨hbehind, hlength, -⟩ := between_eq_some (by decide) hscreen
    exact ⟨hbehind, hlength, fun p hp => nomatch hp⟩
  | none =>
  cases himage : between "[image]" "[/image]" s with
  | some found =>
    obtain ⟨hbehind, hlength, hcontent⟩ := between_eq_some (by decide) himage
    exact ⟨hbehind, hlength, fun p hp => List.mem_singleton.mp hp ▸ hcontent⟩
  | none =>
  dsimp only
  have hsuffix : s.tail <:+ s := List.tail_suffix s
  cases htag : genericTag s.tail with
  | none => exact ⟨hsuffix, htail, fun p hp => nomatch hp⟩
  | some found =>
    obtain ⟨hbehind, hparts⟩ := genericTag_eq_some htag
    exact ⟨hbehind.trans hsuffix, Nat.lt_of_le_of_lt hbehind.length_le htail,
      fun p hp => (hparts p hp).trans hsuffix.isInfix⟩

/-- **An item takes some of the text**, and is made of it. -/
theorem nextItem_reads {before s : List Char} (hs : s ≠ []) :
    Reads s (nextItem before s).1 (nextItem before s).2 := by
  unfold nextItem
  split_ifs with hhead
  · exact bracketItem_reads hs
  · refine ⟨List.dropWhile_suffix _, ?_, fun p hp => ?_⟩
    · cases s with
      | nil => exact absurd rfl hs
      | cons c cs =>
        have hc : c ≠ '[' := fun heq => hhead (congrArg some heq)
        rw [List.dropWhile_cons, if_pos (decide_eq_true hc), List.length_cons]
        exact Nat.lt_succ_of_le (List.dropWhile_suffix _).length_le
    · exact List.mem_singleton.mp hp ▸ (List.takeWhile_prefix _).isInfix

end StratTrader.Frontend
