import StratTrader.Foundation.Nesting
import StratTrader.Frontend.Links

/-!
# How the elements of a description are nested

The stack of `renderTradingViewDescription`: a frame for every element that was opened, closed from the top down. A
tag may close through frames of several kinds, an item of a list closes the one before it, a link without an address
has a frame that closes nothing; and a listing is emitted past the stack.

## What is proved

* `onItem_nests`: what one item does to the elements that are open, for every item and every sound stack.
* `build_nests`: what the items of a text do.
* `render_nests`: in every output, elements are closed in the opposite order of their opening, and each item is the
  child of a list.
* `wellNested_iff`: blocks stay out of inline elements too if and only if no listing is read while one is open.
-/

namespace StratTrader.Frontend

open StratTrader.Foundation

/-! ### The elements of a fragment -/

/-- The elements without an end tag. -/
def voidNames : List (List Char) := ["br".toList, "img".toList]

/-- The inline elements. -/
def inlineNames : List (List Char) := ["strong".toList, "em".toList, "s".toList, "a".toList]

/-- The lists. -/
def listNames : List (List Char) := ["ul".toList, "ol".toList]

/-- The blocks that are kept out of inline elements. -/
def outerNames : List (List Char) := ["ul".toList, "ol".toList, "blockquote".toList, "pre".toList]

/-- What a tag does. -/
def markOf : List Char → Option (Mark (List Char))
  | '/' :: name => some (.closing name)
  | t =>
    let name := t.takeWhile fun c => decide (c ≠ ' ')
    if voidNames.contains name then none else some (.opening name)

/-- What the tags of a fragment do. -/
def marksOf (html : List Char) : List (Mark (List Char)) := (tagsOf html).filterMap markOf

/-- The item of a list is a child of one. -/
def ItemOfList (e : Element (List Char)) : Prop := e.name = "li".toList → ∃ n ∈ listNames, e.around.head? = some n

/-- A block is in no inline element. -/
def BlockOutside (e : Element (List Char)) : Prop := e.name ∈ outerNames → ∀ n ∈ e.around, n ∉ inlineNames

/-- A fragment is well nested. -/
def WellNested (html : List Char) : Prop :=
  ∃ elements, WalksTo [] (marksOf html) elements [] ∧ (∀ e ∈ elements, ItemOfList e) ∧ ∀ e ∈ elements, BlockOutside e

section
variable {src x y : List Char}

theorem marksOf_append (hx : Tagged (markup src) x) : marksOf (x ++ y) = marksOf x ++ marksOf y := by
  have happend : tagsOf (x ++ y) = tagsOf x ++ tagsOf y := hx.tags_append
  rw [marksOf, happend, List.filterMap_append]
  rfl

theorem marksOf_eq_keptTags (html : List Char) : marksOf html = (keptTags html).filterMap markOf := by
  rw [marksOf, keptTags, List.filterMap_filter]
  refine List.filterMap_congr fun t _ => ?_
  split_ifs with ht
  · rfl
  · have hbr : t = "br".toList := by simpa using ht
    rw [hbr]
    decide

/-- Text has no marks. -/
theorem marksOf_clean {cs : List Char} (hcs : ∀ c ∈ cs, c ∉ marks) : marksOf cs = [] := by
  induction cs with
  | nil => rfl
  | cons c cs ih =>
    obtain ⟨hc, hrest⟩ := List.forall_mem_cons.mp hcs
    have hne : c ≠ '<' := by
      rintro rfl
      exact hc (by decide)
    rw [marksOf, tagsOf_cons hne]
    exact ih hrest

theorem marksOf_break (s : List Char) : marksOf ("<br>".toList ++ s) = marksOf s := by
  have hbreak : Tagged (markup []) "<br>".toList := tagged_of_fixed (by decide)
  have hnone : marksOf "<br>".toList = [] := by decide
  rw [marksOf_append hbreak, hnone, List.nil_append]

theorem marksOf_textToHtml {cs : List Char} (hcs : ∀ c ∈ cs, c ∉ marks) : marksOf (textToHtml cs) = [] := by
  induction cs using textToHtml.induct with
  | case1 cs ih =>
    rw [textToHtml, marksOf_break]
    exact ih fun c hc => hcs c (List.mem_cons_of_mem _ (List.mem_cons_of_mem _ hc))
  | case2 c cs hnot hbreak ih =>
    rw [textToHtml, if_pos hbreak, marksOf_break]
    · exact ih fun d hd => hcs d (List.mem_cons_of_mem _ hd)
    · exact hnot
  | case3 c cs hnot hbreak ih =>
    have hne : c ≠ '<' := by
      rintro rfl
      exact hcs _ List.mem_cons_self (by decide)
    rw [textToHtml, if_neg hbreak, marksOf, tagsOf_cons hne]
    · exact ih fun d hd => hcs d (List.mem_cons_of_mem _ hd)
    · exact hnot
  | case4 => rfl

theorem marksOf_linkTag {u : List Char} (hu : ∀ c ∈ u, c ∉ marks) : marksOf (linkTag u) = [.opening "a".toList] := by
  have hend : '>' ∉ '"' :: linkEnd := by decide
  have hopen : '>' ∉ "a href=\"".toList := by decide
  have htags : tagsOf (linkTag u) = ["a href=\"".toList ++ (u ++ '"' :: linkEnd)] := by
    rw [linkTag_eq]
    exact Tagged.tags_of_tag (M := markup []) (no_stop_around hu hopen hend)
  have hname : "a href=\"".toList = 'a' :: ' ' :: "href=\"".toList := by decide
  rw [marksOf, htags, hname]
  rfl

theorem marksOf_imageTag {u : List Char} (hu : ∀ c ∈ u, c ∉ marks) : marksOf (imageTag u) = [] := by
  have hend : '>' ∉ '"' :: imageEnd := by decide
  have hopen : '>' ∉ "img src=\"".toList := by decide
  have htags : tagsOf (imageTag u) = ["img src=\"".toList ++ (u ++ '"' :: imageEnd)] := by
    rw [imageTag_eq]
    exact Tagged.tags_of_tag (M := markup []) (no_stop_around hu hopen hend)
  have hname : "img src=\"".toList = 'i' :: 'm' :: 'g' :: ' ' :: "src=\"".toList := by decide
  rw [marksOf, htags, hname]
  rfl

end

/-! ### Frames -/

/-- The tag that opens an element. -/
def startTag (name : List Char) : List Char := '<' :: (name ++ ['>'])

/-- The tag that closes an element. -/
def endTag (name : List Char) : List Char := '<' :: '/' :: (name ++ ['>'])

/-- The elements that a frame of some kind closes. -/
def FrameKind.names : FrameKind → List (List Char)
  | .inline _ => inlineNames
  | .list => listNames
  | .li => ["li".toList]
  | .quote => ["blockquote".toList]

/-- The element that a frame closes, if it closes one. -/
def Frame.element (f : Frame) : Option (List Char) :=
  if f.close = [] then none else some (f.close.drop 2).dropLast

/-- The elements that are open. -/
def openNames (stack : List Frame) : List (List Char) := stack.filterMap Frame.element

/-- A frame closes an element of its kind; an inline one may close nothing. -/
def Frame.Sound (f : Frame) : Prop := (f.isInline = true ∧ f.close = []) ∨ ∃ name ∈ f.kind.names, f.close = endTag name

/-- The frames are sound, and above an inline one there are only inline ones. -/
structure SoundStack (stack : List Frame) : Prop where
  /-- Each frame is sound. -/
  frames : ∀ f ∈ stack, f.Sound
  /-- Above an inline one there are only inline ones. -/
  above : stack.Pairwise fun f g => g.isInline = true → f.isInline = true

/-- All names of elements with a frame. -/
def frameNames : List (List Char) := inlineNames ++ listNames ++ ["li".toList, "blockquote".toList]

theorem names_subset (kind : FrameKind) : kind.names ⊆ frameNames := by
  cases kind with
  | inline bb => exact List.Subset.trans (List.subset_append_left inlineNames listNames) (List.subset_append_left _ _)
  | list => decide
  | li => decide
  | quote => decide

theorem endTags_shape : ∀ name ∈ frameNames, endTag name ∈ fixedTags ∧
    marksOf (endTag name) = [.closing name] ∧ ((endTag name).drop 2).dropLast = name := by
  decide

theorem startTags_shape : ∀ name ∈ frameNames, name ≠ "a".toList →
    startTag name ∈ fixedTags ∧ marksOf (startTag name) = [.opening name] := by
  decide

theorem endTag_ne_nil (name : List Char) : endTag name ≠ [] := List.cons_ne_nil _ _

theorem names_inline_iff {f : Frame} : ∀ name ∈ f.kind.names, name ∈ inlineNames ↔ f.isInline = true := by
  cases f with
  | mk kind close =>
    cases kind with
    | inline bb => exact fun name hname => iff_of_true hname rfl
    | list => exact (by decide : ∀ name ∈ listNames, name ∈ inlineNames ↔ false = true)
    | li => exact (by decide : ∀ name ∈ ["li".toList], name ∈ inlineNames ↔ false = true)
    | quote => exact (by decide : ∀ name ∈ ["blockquote".toList], name ∈ inlineNames ↔ false = true)

section
variable {f : Frame} {stack popped below : List Frame}

theorem Frame.Sound.tagged (src : List Char) (h : f.Sound) : Tagged (markup src) f.close := by
  rcases h with ⟨-, hclose⟩ | ⟨name, hname, hclose⟩
  · rw [hclose]
    exact .nil
  · rw [hclose]
    exact tagged_of_fixed (endTags_shape name (names_subset _ hname)).1

/-- What a frame emits closes its element. -/
theorem Frame.Sound.marksOf_close (h : f.Sound) : marksOf f.close = f.element.toList.map Mark.closing := by
  unfold Frame.element
  rcases h with ⟨-, hclose⟩ | ⟨name, hname, hclose⟩
  · rw [hclose]
    rfl
  · obtain ⟨-, hmarks, hdrop⟩ := endTags_shape name (names_subset _ hname)
    rw [hclose, hmarks, hdrop, if_neg (endTag_ne_nil name)]
    rfl

/-- The element of a frame is of its kind. -/
theorem Frame.Sound.element_mem (h : f.Sound) {n : List Char} (hn : f.element = some n) : n ∈ f.kind.names := by
  unfold Frame.element at hn
  rcases h with ⟨-, hclose⟩ | ⟨name, hname, hclose⟩
  · rw [hclose] at hn
    cases hn
  · rw [hclose, if_neg (endTag_ne_nil name), (endTags_shape name (names_subset _ hname)).2.2] at hn
    exact Option.some.inj hn ▸ hname

theorem Frame.Sound.exists_element (h : f.Sound) (hclose : f.close ≠ []) : ∃ n ∈ f.kind.names, f.element = some n := by
  have helement : f.element = some (f.close.drop 2).dropLast := if_neg hclose
  exact ⟨_, h.element_mem helement, helement⟩

/-- No inline element is open. -/
def NoInline (stack : List Frame) : Prop := ∀ f ∈ stack, f.isInline = true → f.close = []

theorem noInline_iff (h : ∀ f ∈ stack, f.Sound) : NoInline stack ↔ ∀ n ∈ openNames stack, n ∉ inlineNames := by
  constructor
  · intro hno n hn hinline
    obtain ⟨f, hf, helement⟩ := List.mem_filterMap.mp hn
    have hmem := (h f hf).element_mem helement
    have hclose := hno f hf ((names_inline_iff n hmem).mp hinline)
    rw [Frame.element, if_pos hclose] at helement
    cases helement
  · intro hall f hf hinline
    by_contra hclose
    obtain ⟨n, hmem, helement⟩ := (h f hf).exists_element hclose
    exact hall n (List.mem_filterMap.mpr ⟨f, hf, helement⟩) ((names_inline_iff n hmem).mpr hinline)

theorem NoInline.of_none (h : ∀ f ∈ stack, f.isInline = false) : NoInline stack := by
  intro f hf hinline
  rw [h f hf] at hinline
  cases hinline

theorem openNames_append : openNames (popped ++ below) = openNames popped ++ openNames below := List.filterMap_append

theorem SoundStack.suffix (h : SoundStack stack) (hsuffix : below <:+ stack) : SoundStack below :=
  ⟨fun f hf => h.frames f (hsuffix.subset hf), h.above.sublist hsuffix.sublist⟩

/-- Below a frame that is not inline, none is. -/
theorem SoundStack.none_below (h : SoundStack (f :: below)) (hf : f.isInline = false) :
    ∀ g ∈ f :: below, g.isInline = false := by
  refine List.forall_mem_cons.mpr ⟨hf, fun g hg => ?_⟩
  by_contra hinline
  have habove := (List.pairwise_cons.mp h.above).1 g hg (eq_true_of_ne_false hinline)
  rw [hf] at habove
  cases habove

/-- Behind the inline frames on the top, none is inline. -/
theorem SoundStack.none_left (h : SoundStack stack) : ∀ g ∈ stack.dropWhile Frame.isInline, g.isInline = false := by
  have hleft := h.suffix (List.dropWhile_suffix Frame.isInline)
  have hhead := List.head?_dropWhile_not Frame.isInline stack
  cases hdrop : stack.dropWhile Frame.isInline with
  | nil => exact fun g hg => nomatch hg
  | cons f below =>
    rw [hdrop] at hleft hhead
    exact hleft.none_below (by simpa using hhead)

theorem SoundStack.push_inline (h : SoundStack stack) (hf : f.Sound) (hinline : f.isInline = true) :
    SoundStack (f :: stack) :=
  ⟨List.forall_mem_cons.mpr ⟨hf, h.frames⟩, List.pairwise_cons.mpr ⟨fun _ _ _ => hinline, h.above⟩⟩

theorem SoundStack.push_block (h : SoundStack stack) (hf : f.Sound) (hnone : ∀ g ∈ stack, g.isInline = false) :
    SoundStack (f :: stack) := by
  refine ⟨List.forall_mem_cons.mpr ⟨hf, h.frames⟩, List.pairwise_cons.mpr ⟨fun g hg hinline => ?_, h.above⟩⟩
  rw [hnone g hg] at hinline
  cases hinline

/-- The frames that are popped close their elements. -/
theorem marksOf_closes (h : ∀ f ∈ popped, f.Sound) : marksOf (closes popped) = (openNames popped).map Mark.closing := by
  induction popped with
  | nil => rfl
  | cons f popped ih =>
    obtain ⟨hf, hrest⟩ := List.forall_mem_cons.mp h
    have hcons : marksOf (closes (f :: popped)) = marksOf f.close ++ marksOf (closes popped) :=
      marksOf_append (hf.tagged [])
    have hnames : openNames (f :: popped) = f.element.toList ++ openNames popped := by
      cases helement : f.element with
      | none => exact List.filterMap_cons_none helement
      | some n => exact List.filterMap_cons_some helement
    rw [hcons, hf.marksOf_close, ih hrest, hnames, List.map_append]

end

/-! ### One item -/

/-- What a turn does to the elements that are open. Where it opens some, each item is the child of a list, and blocks
stay out of inline elements if and only if a condition is met. -/
structure Nests (stack : List Frame) (outside : Prop) (result : List Char × List Frame) : Prop where
  /-- What was emitted is made of tags. -/
  tagged : ∃ src, Tagged (markup src) result.1
  /-- The stack stays sound. -/
  sound : SoundStack result.2
  /-- The marks lead from the elements of one stack to those of the other. -/
  walks : ∃ elements, WalksTo (openNames stack) (marksOf result.1) elements (openNames result.2) ∧
    (∀ e ∈ elements, ItemOfList e) ∧ ((∀ e ∈ elements, BlockOutside e) ↔ outside)

section
variable {stack popped below : List Frame} {f : Frame} {opening n : List Char}

theorem walksTo_closes (h : ∀ f ∈ popped ++ below, f.Sound) :
    WalksTo (openNames (popped ++ below)) (marksOf (closes popped)) [] (openNames below) := by
  rw [marksOf_closes fun f hf => h f (List.mem_append_left _ hf), openNames_append]
  exact walk_closings _

theorem closes_clean (src : List Char) (h : ∀ f ∈ popped, f.Sound) : Tagged (markup src) (closes popped) :=
  closes_tagged fun f hf => (h f hf).tagged src

/-- A turn that only closes. -/
theorem Nests.pop (h : SoundStack (popped ++ below)) : Nests (popped ++ below) True (closes popped, below) := by
  have hpopped : ∀ f ∈ popped, f.Sound := fun f hf => h.frames f (List.mem_append_left _ hf)
  refine ⟨⟨[], closes_clean [] hpopped⟩, h.suffix (List.suffix_append _ _), [], walksTo_closes h.frames, ?_, ?_⟩
  · exact fun e he => nomatch he
  · exact iff_of_true (fun e he => nomatch he) trivial

/-- A turn that emits no mark. -/
theorem Nests.of_no_marks {src x : List Char} (h : SoundStack stack) (hx : Tagged (markup src) x)
    (hmarks : marksOf x = []) : Nests stack True (x, stack) := by
  refine ⟨⟨src, hx⟩, h, [], ?_, fun e he => (nomatch he), iff_of_true (fun e he => nomatch he) trivial⟩
  rw [hmarks]
  exact walksTo_nil.mpr ⟨rfl, rfl⟩

/-- A turn that closes some elements and opens one. -/
theorem Nests.push {src : List Char} (h : SoundStack (popped ++ below)) (hpush : SoundStack (f :: below))
    (hn : f.element = some n) (htagged : Tagged (markup src) opening) (hmarks : marksOf opening = [.opening n])
    (hitem : ItemOfList ⟨n, openNames below⟩) (hblock : BlockOutside ⟨n, openNames below⟩) :
    Nests (popped ++ below) True (closes popped ++ opening, f :: below) := by
  have hpopped : ∀ f ∈ popped, f.Sound := fun f hf => h.frames f (List.mem_append_left _ hf)
  have hnames : openNames (f :: below) = n :: openNames below := List.filterMap_cons_some hn
  have hopens : WalksTo (openNames below) (marksOf opening) [⟨n, openNames below⟩] (openNames (f :: below)) := by
    rw [hmarks, hnames]
    exact .opening n (walksTo_nil.mpr ⟨rfl, rfl⟩)
  have hcloses : Tagged (markup src) (closes popped) := closes_clean src hpopped
  refine ⟨⟨src, hcloses.append htagged⟩, hpush, [⟨n, openNames below⟩], ?_, ?_, iff_of_true ?_ trivial⟩
  · rw [marksOf_append hcloses]
    exact (walksTo_closes h.frames).append hopens
  · exact List.forall_mem_singleton.mpr hitem
  · exact List.forall_mem_singleton.mpr hblock

theorem closeUntil_eq (p : Frame → Bool) (stack : List Frame) :
    ∃ popped below, stack = popped ++ below ∧ closeUntil p stack = (closes popped, below) := by
  unfold closeUntil
  cases hdrop : stack.dropWhile fun f => !p f with
  | nil => exact ⟨[], stack, rfl, rfl⟩
  | cons f below =>
    refine ⟨stack.takeWhile (fun f => !p f) ++ [f], below, ?_, ?_⟩
    · rw [List.append_assoc, List.singleton_append, ← hdrop, List.takeWhile_append_dropWhile]
    · rw [closes, closes, List.flatMap_append, List.flatMap_singleton]

theorem element_of_close (hclose : f.close = endTag n) (hn : n ∈ frameNames) : f.element = some n := by
  rw [Frame.element, hclose, if_neg (endTag_ne_nil n), (endTags_shape n hn).2.2]

theorem no_item_of_ne {around : List (List Char)} (hn : n ≠ "li".toList) : ItemOfList ⟨n, around⟩ :=
  fun heq => absurd heq hn

theorem outside_of_not_mem {around : List (List Char)} (hn : n ∉ outerNames) : BlockOutside ⟨n, around⟩ :=
  fun hname => absurd hname hn

theorem inlineNames_plain : ∀ n ∈ inlineNames, n ∉ outerNames ∧ n ≠ "li".toList ∧ n ∈ frameNames := by decide

/-- An inline element may be opened anywhere. -/
theorem Nests.push_inline {src bb : List Char} (h : SoundStack stack) (hn : n ∈ inlineNames)
    (htagged : Tagged (markup src) opening) (hmarks : marksOf opening = [.opening n]) :
    Nests stack True (opening, ⟨.inline bb, endTag n⟩ :: stack) := by
  obtain ⟨houter, hitem, hframe⟩ := inlineNames_plain n hn
  have hsound : Frame.Sound ⟨.inline bb, endTag n⟩ := Or.inr ⟨n, hn, rfl⟩
  have h' : SoundStack ([] ++ stack) := h
  exact Nests.push h' (h.push_inline hsound rfl) (element_of_close rfl hframe) htagged hmarks (no_item_of_ne hitem)
    (outside_of_not_mem houter)

theorem inlineTags_shape : ∀ e ∈ inlineTags, (e.2.1 = [] ∧ e.2.2 = []) ∨
    ∃ name ∈ inlineNames, name ≠ "a".toList ∧ e.2.1 = startTag name ∧ e.2.2 = endTag name := by
  decide

theorem blockTags_shape : ∀ e ∈ blockTags, e.1 ∈ [FrameKind.list, .quote] ∧
    ∃ name ∈ e.1.names, name ≠ "li".toList ∧ name ≠ "a".toList ∧ e.2.1.toList = startTag name ∧
      e.2.2.toList = endTag name := by
  decide

/-- A frame that closes nothing is put on the stack. -/
theorem Nests.silent (h : SoundStack stack) (bb : List Char) : Nests stack True ([], ⟨.inline bb, []⟩ :: stack) := by
  have hnames : openNames (⟨.inline bb, []⟩ :: stack) = openNames stack := List.filterMap_cons_none rfl
  refine ⟨⟨[], .nil⟩, h.push_inline (Or.inl ⟨rfl, rfl⟩) rfl, [], ?_, fun e he => (nomatch he), ?_⟩
  · rw [hnames]
    exact walksTo_nil.mpr ⟨rfl, rfl⟩
  · exact iff_of_true (fun e he => nomatch he) trivial

/-- A block is opened outside of inline elements. -/
theorem openBlock_nests (h : SoundStack stack) {kind : FrameKind} {opening closing : String}
    (hblock : (kind, opening, closing) ∈ blockTags) : Nests stack True (openBlock kind opening closing stack) := by
  obtain ⟨hkind, name, hname, hitem, hlink, hopen, hclose⟩ := blockTags_shape _ hblock
  dsimp only at hkind hname hopen hclose
  have hinline : (⟨kind, closing.toList⟩ : Frame).isInline = false := by
    rcases List.mem_cons.mp hkind with rfl | hquote
    · rfl
    · rw [List.mem_singleton.mp hquote]
      rfl
  have hframe : name ∈ frameNames := names_subset kind hname
  obtain ⟨hfixed, hmarks⟩ := startTags_shape name hframe hlink
  have hsound : Frame.Sound ⟨kind, closing.toList⟩ := Or.inr ⟨name, hname, hclose⟩
  have hleft := h.suffix (List.dropWhile_suffix Frame.isInline)
  have hsplit : stack = stack.takeWhile Frame.isInline ++ stack.dropWhile Frame.isInline :=
    List.takeWhile_append_dropWhile.symm
  have htagged : Tagged (markup []) opening.toList := hopen ▸ tagged_of_fixed hfixed
  have houtside : BlockOutside ⟨name, openNames (stack.dropWhile Frame.isInline)⟩ := fun _ =>
    (noInline_iff hleft.frames).mp (NoInline.of_none h.none_left)
  have hpush := Nests.push (f := ⟨kind, closing.toList⟩) (n := name) (hsplit ▸ h) (hleft.push_block hsound h.none_left)
    (element_of_close hclose hframe) htagged (hopen ▸ hmarks) (no_item_of_ne hitem) houtside
  rwa [← hsplit] at hpush

/-- An item of a list is opened as the child of one. -/
theorem listItem_nests (h : SoundStack stack) : Nests stack True (listItem stack) := by
  unfold listItem
  cases hdrop : stack.dropWhile fun f => decide (f.kind ≠ .list) with
  | nil => exact .of_no_marks h (.nil (M := markup [])) rfl
  | cons list below =>
    have hkind : list.kind = .list := by
      have hhead := List.head?_dropWhile_not (fun f : Frame => decide (f.kind ≠ .list)) stack
      rw [hdrop] at hhead
      simpa using hhead
    have hinline : list.isInline = false := by rw [Frame.isInline, hkind]
    have hsplit : stack = stack.takeWhile (fun f => decide (f.kind ≠ .list)) ++ list :: below := by
      rw [← hdrop, List.takeWhile_append_dropWhile]
    have hleft : SoundStack (list :: below) := h.suffix (hdrop ▸ List.dropWhile_suffix _)
    have hsound : Frame.Sound ⟨.li, "</li>".toList⟩ := Or.inr ⟨"li".toList, List.mem_singleton.mpr rfl, by decide⟩
    have hpushed := hleft.push_block hsound (hleft.none_below hinline)
    obtain ⟨l, hl, helement⟩ : ∃ l ∈ listNames, list.element = some l := by
      have hlist := hleft.frames list List.mem_cons_self
      have hclose : list.close ≠ [] := by
        rcases hlist with ⟨htrue, -⟩ | ⟨name, -, hclose⟩
        · rw [hinline] at htrue
          cases htrue
        · rw [hclose]
          exact endTag_ne_nil name
      obtain ⟨l, hl, helement⟩ := hlist.exists_element hclose
      rw [hkind] at hl
      exact ⟨l, hl, helement⟩
    have hchild : ItemOfList ⟨"li".toList, openNames (list :: below)⟩ := fun _ =>
      ⟨l, hl, congrArg List.head? (List.filterMap_cons_some helement)⟩
    have hblock : BlockOutside ⟨"li".toList, openNames (list :: below)⟩ := outside_of_not_mem (by decide)
    have htagged : Tagged (markup []) "<li>".toList := tagged_of_fixed (by decide)
    have hpush := Nests.push (hsplit ▸ h) hpushed (element_of_close (by decide) (by decide)) htagged (by decide) hchild
      hblock
    rwa [← hsplit] at hpush

/-- A listing is put where the items stand. -/
theorem pine_nests (h : SoundStack stack) {code : List Char} (hcode : ∀ c ∈ code, c ∉ marks) :
    Nests stack (NoInline stack) ("<pre><code>".toList ++ code ++ "</code></pre>".toList, stack) := by
  have hopen : Tagged (markup []) "<pre><code>".toList :=
    (tagged_of_fixed (t := "<pre>".toList) (by decide)).append (tagged_of_fixed (t := "<code>".toList) (by decide))
  have hopening : marksOf "<pre><code>".toList = [.opening "pre".toList, .opening "code".toList] := by decide
  have hclosing : marksOf "</code></pre>".toList = [.closing "code".toList, .closing "pre".toList] := by decide
  have hmarks : marksOf ("<pre><code>".toList ++ code ++ "</code></pre>".toList) =
      [.opening "pre".toList, .opening "code".toList, .closing "code".toList, .closing "pre".toList] := by
    rw [marksOf_append (hopen.append (.of_plain hcode)), marksOf_append hopen, marksOf_clean hcode, hopening, hclosing]
    rfl
  refine ⟨⟨[], pine_tagged hcode⟩, h, [⟨"pre".toList, openNames stack⟩, ⟨"code".toList, "pre".toList :: openNames stack⟩],
    ?_, ?_, ?_⟩
  · rw [hmarks]
    exact .opening _ (.opening _ (.closing _ (.closing _ (walksTo_nil.mpr ⟨rfl, rfl⟩))))
  · exact List.forall_mem_cons.mpr ⟨no_item_of_ne (by decide), List.forall_mem_singleton.mpr (no_item_of_ne (by decide))⟩
  · have houter : "pre".toList ∈ outerNames := by decide
    have hcodes : BlockOutside ⟨"code".toList, "pre".toList :: openNames stack⟩ := outside_of_not_mem (by decide)
    have hpre : BlockOutside ⟨"pre".toList, openNames stack⟩ ↔ ∀ n ∈ openNames stack, n ∉ inlineNames :=
      ⟨fun hblock => hblock houter, fun hall _ => hall⟩
    rw [noInline_iff h.frames, List.forall_mem_cons, List.forall_mem_singleton, and_iff_left hcodes, hpre]

/-- What a tag does to the elements. -/
theorem onTag_nests (h : SoundStack stack) {attr : Option (List Char)} (hattr : ∀ a ∈ attr, ∀ c ∈ a, c ∉ marks)
    (closing : Bool) (name : List Char) : Nests stack True (onTag closing name attr stack) := by
  have hstep := onTag_step closing name attr stack
  generalize hfound : (Item.tag closing name attr).address.bind safeUrl = found at hstep
  generalize onTag closing name attr stack = result at hstep ⊢
  cases hstep with
  | skip => exact .of_no_marks h (.nil (M := markup [])) rfl
  | close p =>
    obtain ⟨popped, below, rfl, hclose⟩ := closeUntil_eq p stack
    rw [hclose]
    exact .pop h
  | item => exact listItem_nests h
  | @inline bb opening close htag =>
    rcases inlineTags_shape _ htag with ⟨hopen, hclose⟩ | ⟨n, hn, hlink, hopen, hclose⟩
    · dsimp only at hopen hclose
      rw [hopen, hclose]
      exact .silent h bb
    · dsimp only at hopen hclose
      obtain ⟨hfixed, hmarks⟩ := startTags_shape n (inlineNames_plain n hn).2.2 hlink
      have htagged : Tagged (markup []) (startTag n) := tagged_of_fixed hfixed
      rw [hopen, hclose]
      exact .push_inline h hn htagged hmarks
  | link u =>
    obtain ⟨a, ha, hu⟩ := Option.bind_eq_some_iff.mp hfound
    have haddress : Address a u := address_of_safeUrl (hattr a (attr_of_address ha)) List.infix_rfl hu
    have htagged : Tagged (markup a) (linkTag u) := .of_tag (.link haddress)
    exact .push_inline h (by decide) htagged (marksOf_linkTag haddress.clean)
  | unlinked => exact .silent h _
  | block hblock => exact openBlock_nests h hblock

/-- The item is read where no inline element is open, if it is a listing. -/
def ListingOutside (turn : Item × List Frame) : Prop :=
  match turn.1 with
  | .pine _ => NoInline turn.2
  | _ => True

theorem image_nests (h : SoundStack stack) {content : List Char} (hcontent : ∀ c ∈ content, c ∉ marks) :
    Nests stack True (((safeUrl content).map imageTag).getD [], stack) := by
  generalize hsafe : safeUrl content = found
  cases found with
  | none => exact .of_no_marks h (.nil (M := markup [])) rfl
  | some u =>
    have haddress : Address content u := address_of_safeUrl hcontent List.infix_rfl hsafe
    have htagged : Tagged (markup content) (imageTag u) := .of_tag (.image haddress)
    rw [Option.map_some, Option.getD_some]
    exact .of_no_marks h htagged (marksOf_imageTag haddress.clean)

/-- **What an item does** to the elements that are open. -/
theorem onItem_nests (h : SoundStack stack) {item : Item} (hparts : ∀ p ∈ item.parts, ∀ c ∈ p, c ∉ marks) :
    Nests stack (ListingOutside (item, stack)) (onItem item stack) := by
  cases item with
  | text cs =>
    have hcs := hparts cs (List.mem_singleton.mpr rfl)
    have htagged : Tagged (markup []) (textToHtml cs) := textToHtml_tagged hcs
    exact .of_no_marks h htagged (marksOf_textToHtml hcs)
  | pine code => exact pine_nests h (hparts code (List.mem_singleton.mpr rfl))
  | screen => exact .of_no_marks h (.nil (M := markup [])) rfl
  | bracket =>
    have hclean : ∀ c ∈ ['['], c ∉ marks := by decide
    exact .of_no_marks h (.of_plain hclean (M := markup [])) (marksOf_clean hclean)
  | tag closing name attr => exact onTag_nests h (fun a ha => hparts a (Option.mem_toList.mpr ha)) closing name
  | image content =>
    have hcontent := hparts content (List.mem_singleton.mpr rfl)
    exact image_nests h hcontent

/-! ### A whole text -/

/-- The items, each with the stack that it is read on. -/
def turns : List Item → List Frame → List (Item × List Frame)
  | [], _ => []
  | item :: items, stack => (item, stack) :: turns items (onItem item stack).2

/-- **What the items do**, from any sound stack. -/
theorem build_nests {items : List Item} (hitems : ∀ item ∈ items, ∀ p ∈ item.parts, ∀ c ∈ p, c ∉ marks)
    (h : SoundStack stack) : ∃ elements, WalksTo (openNames stack) (marksOf (build items stack)) elements [] ∧
      (∀ e ∈ elements, ItemOfList e) ∧
      ((∀ e ∈ elements, BlockOutside e) ↔ ∀ turn ∈ turns items stack, ListingOutside turn) := by
  induction items generalizing stack with
  | nil =>
    have hcloses : WalksTo (openNames (stack ++ [])) (marksOf (closes stack)) [] (openNames []) :=
      walksTo_closes fun f hf => h.frames f (List.append_nil stack ▸ hf)
    rw [List.append_nil] at hcloses
    refine ⟨[], hcloses, fun e he => (nomatch he), iff_of_true (fun e he => nomatch he) fun turn hturn => nomatch hturn⟩
  | cons item items ih =>
    obtain ⟨hfirst, hrest⟩ := List.forall_mem_cons.mp hitems
    have hturn := onItem_nests h hfirst
    obtain ⟨src, htagged⟩ := hturn.tagged
    obtain ⟨elements, hwalk, hitem, hblock⟩ := hturn.walks
    obtain ⟨others, hwalk', hitem', hblock'⟩ := ih hrest hturn.sound
    refine ⟨elements ++ others, ?_, List.forall_mem_append.mpr ⟨hitem, hitem'⟩, ?_⟩
    · rw [build, marksOf_append htagged]
      exact hwalk.append hwalk'
    · rw [List.forall_mem_append, hblock, hblock', turns, List.forall_mem_cons]

end

theorem soundStack_nil : SoundStack [] := ⟨fun _ hf => (nomatch hf), .nil⟩

/-- What the output opens and closes. -/
theorem render_walks (raw : List Char) : ∃ elements, WalksTo [] (marksOf (renderTradingViewDescription raw)) elements [] ∧
    (∀ e ∈ elements, ItemOfList e) ∧
    ((∀ e ∈ elements, BlockOutside e) ↔ ∀ turn ∈ turns (itemsOf (escapeHtml raw)) [], ListingOutside turn) := by
  rw [marksOf_eq_keptTags, keptTags_render, ← marksOf_eq_keptTags]
  exact build_nests (fun _ hitem => parts_clean hitem) soundStack_nil

/-- **In every output**, elements are closed in the opposite order of their opening, and each item is the child of a
list. -/
theorem render_nests (raw : List Char) :
    ∃ elements, WalksTo [] (marksOf (renderTradingViewDescription raw)) elements [] ∧ ∀ e ∈ elements, ItemOfList e := by
  obtain ⟨elements, hwalk, hitem, -⟩ := render_walks raw
  exact ⟨elements, hwalk, hitem⟩

/-- **The output is well nested** if and only if no listing is read while an inline element is open. -/
theorem wellNested_iff (raw : List Char) : WellNested (renderTradingViewDescription raw) ↔
    ∀ turn ∈ turns (itemsOf (escapeHtml raw)) [], ListingOutside turn := by
  obtain ⟨elements, hwalk, hitem, hblock⟩ := render_walks raw
  constructor
  · rintro ⟨elements', hwalk', -, hblock'⟩
    rw [← (hwalk.unique hwalk').1] at hblock'
    exact hblock.mp hblock'
  · intro hall
    exact ⟨elements, hwalk, hitem, hblock.mpr hall⟩

/-- A listing within bold text. -/
theorem not_wellNested : ¬ ∀ raw, WellNested (renderTradingViewDescription raw) := by
  intro h
  obtain ⟨elements, hwalk, -, hblock⟩ := h "[b][pine]x[/pine][/b]".toList
  have hopened : WalksTo [] (marksOf (renderTradingViewDescription "[b][pine]x[/pine][/b]".toList))
      [⟨"strong".toList, []⟩, ⟨"pre".toList, ["strong".toList]⟩, ⟨"code".toList, ["pre".toList, "strong".toList]⟩] [] := by
    decide
  obtain ⟨rfl, -⟩ := hwalk.unique hopened
  have hpre := hblock ⟨"pre".toList, ["strong".toList]⟩ (by decide) (by decide) "strong".toList (by decide)
  exact hpre (by decide)

end StratTrader.Frontend
