import StratTrader.Frontend.Description

/-!
# The turns of the renderer

The loop of `renderTradingViewDescription`, apart from what its items come to: the items it reads, and where. The loop
reads the escaped text; the items of a text and those of its escaped form are the same ones.

## What is proved

* `renderFor_eq_emitted`: what is rendered is what the items of the turns come to, one after another.
* `escapeHtml_injective`: escaping loses nothing.
* `nextItem_escape`, `turnsFor_escape`: escaping a text escapes its items, and changes none.
-/

namespace StratTrader.Frontend

open StratTrader.Foundation

/-! ### Turns -/

/-- A turn of the loop. -/
structure Turn where
  /-- The text before, from its end. -/
  before : List Char
  /-- What is read. -/
  item : Item
  /-- The text that is left. -/
  behind : List Char
  deriving DecidableEq

/-- The turns of the loop, of which there are so many at most. -/
def turnsFor : ℕ → List Char → List Char → List Turn
  | _, _, [] => []
  | 0, _, _ :: _ => []
  | n + 1, before, c :: cs =>
    let next := nextItem before (c :: cs)
    let done := (c :: cs).take (cs.length + 1 - next.2.length)
    ⟨before, next.1, next.2⟩ :: turnsFor n (done.reverse ++ before) next.2

/-- A turn, and those behind it. -/
theorem turnsFor_succ {s : List Char} (hs : s ≠ []) (n : ℕ) (before : List Char) :
    turnsFor (n + 1) before s =
      ⟨before, (nextItem before s).1, (nextItem before s).2⟩ ::
        turnsFor n ((s.take (s.length - (nextItem before s).2.length)).reverse ++ before) (nextItem before s).2 := by
  cases s with
  | nil => exact absurd rfl hs
  | cons c cs => rfl

/-- What the items of some turns come to. -/
def emitted : List Turn → List Frame → List Char
  | [], stack => closes stack
  | turn :: turns, stack => (onItem turn.item stack).1 ++ emitted turns (onItem turn.item stack).2

/-- **What is rendered** is what the items of the turns come to. -/
theorem renderFor_eq_emitted (n : ℕ) (before s : List Char) (stack : List Frame) :
    renderFor n before s stack = emitted (turnsFor n before s) stack := by
  induction n generalizing before s stack with
  | zero => cases s <;> rfl
  | succ n ih =>
    cases s with
    | nil => rfl
    | cons c cs =>
      unfold renderFor turnsFor emitted
      dsimp only
      rw [ih]

/-! ### Escapes -/

/-- The characters that are escaped. -/
def escapedChars : List Char := escapeMap.map Prod.fst

/-- What a character is escaped as. -/
structure IsEscape (e : List Char) : Prop where
  /-- It begins with an ampersand. -/
  first : ∃ es, e = '&' :: es
  /-- It ends with a semicolon. -/
  last : ∃ es, e = es ++ [';']
  /-- It has no bracket. -/
  noBracket : ∀ c ∈ e, c ≠ '[' ∧ c ≠ ']'
  /-- No literal that begins with a bracket begins in it. -/
  noLiteral : ∀ c ∈ e, ignoreCase '[' c = false

theorem escapeMap_isEscape : ∀ e ∈ escapeMap, IsEscape e.2 := by
  intro e he
  have hfirst : ∀ e ∈ escapeMap, e.2 = '&' :: e.2.tail := by decide
  have hlast : ∀ e ∈ escapeMap, e.2 = e.2.dropLast ++ [';'] := by decide
  have hno : ∀ e ∈ escapeMap, ∀ c ∈ e.2, c ≠ '[' ∧ c ≠ ']' := by decide
  have hlit : ∀ e ∈ escapeMap, ∀ c ∈ e.2, ignoreCase '[' c = false := by decide
  exact ⟨⟨_, hfirst e he⟩, ⟨_, hlast e he⟩, hno e he, hlit e he⟩

/-- A character is kept, or it is escaped. -/
theorem escapeChar_cases (c : Char) :
    (escapeChar c = [c] ∧ c ∉ escapedChars) ∨ (c ∈ escapedChars ∧ IsEscape (escapeChar c)) := by
  unfold escapeChar
  cases hlookup : escapeMap.lookup c with
  | some e =>
    obtain ⟨before, after, heq, -⟩ := List.lookup_eq_some_iff.mp hlookup
    have hmem : (c, e) ∈ escapeMap := heq ▸ List.mem_append_right _ List.mem_cons_self
    exact Or.inr ⟨List.mem_map_of_mem hmem, escapeMap_isEscape _ hmem⟩
  | none =>
    refine Or.inl ⟨rfl, fun hmem => ?_⟩
    obtain ⟨e, he, rfl⟩ := List.mem_map.mp hmem
    have hall : ∀ e ∈ escapeMap, (escapeMap.lookup e.1).isSome = true := by decide
    have hsome := hall e he
    rw [hlookup] at hsome
    cases hsome

theorem escapeHtml_cons (c : Char) (cs : List Char) : escapeHtml (c :: cs) = escapeChar c ++ escapeHtml cs := rfl

theorem escapeHtml_append (s t : List Char) : escapeHtml (s ++ t) = escapeHtml s ++ escapeHtml t :=
  List.flatMap_append

/-- No escape begins with another one. -/
theorem eq_of_escapeChar_prefix {c d : Char} (h : escapeChar c <+: escapeChar d) : c = d := by
  have hamp : '&' ∈ escapedChars := by decide
  rcases escapeChar_cases c with ⟨hc, hcnot⟩ | ⟨hcin, hc⟩
  · rcases escapeChar_cases d with ⟨hd, -⟩ | ⟨-, hd⟩
    · rw [hc, hd] at h
      exact (List.cons_prefix_cons.mp h).1
    · obtain ⟨es, hes⟩ := hd.first
      rw [hc, hes] at h
      exact absurd ((List.cons_prefix_cons.mp h).1 ▸ hamp) hcnot
  · rcases escapeChar_cases d with ⟨hd, hdnot⟩ | ⟨hdin, -⟩
    · obtain ⟨es, hes⟩ := hc.first
      rw [hes, hd] at h
      exact absurd ((List.cons_prefix_cons.mp h).1 ▸ hamp) hdnot
    · have hall : ∀ c ∈ escapedChars, ∀ d ∈ escapedChars, escapeChar c <+: escapeChar d → c = d := by decide
      exact hall c hcin d hdin h

/-- Escaping loses nothing. -/
theorem escapeHtml_injective : Function.Injective escapeHtml := by
  refine flatMap_injective (fun c => ?_) fun c d => eq_of_escapeChar_prefix
  rcases escapeChar_cases c with ⟨hc, -⟩ | ⟨-, hc⟩
  · exact hc ▸ List.cons_ne_nil _ _
  · obtain ⟨es, hes⟩ := hc.first
    exact hes ▸ List.cons_ne_nil _ _

section
variable {p : Char → Bool}

/-- What stops at every escaped character is read alike. -/
theorem takeWhile_escape (hp : ∀ c ∈ escapedChars, p c = false) (s : List Char) :
    (escapeHtml s).takeWhile p = s.takeWhile p ∧ (escapeHtml s).dropWhile p = escapeHtml (s.dropWhile p) := by
  have hamp : p '&' = false := hp '&' (by decide)
  induction s with
  | nil => exact ⟨rfl, rfl⟩
  | cons c cs ih =>
    rcases escapeChar_cases c with ⟨hkeep, -⟩ | ⟨hc, hescape⟩
    · rw [escapeHtml_cons, hkeep, List.singleton_append, List.takeWhile_cons, List.dropWhile_cons, List.takeWhile_cons,
        List.dropWhile_cons, ih.1, ih.2]
      cases p c
      · exact ⟨rfl, by rw [if_neg Bool.false_ne_true, if_neg Bool.false_ne_true, escapeHtml_cons, hkeep]; rfl⟩
      · exact ⟨rfl, rfl⟩
    · obtain ⟨es, hes⟩ := hescape.first
      have hcons : escapeHtml (c :: cs) = '&' :: (es ++ escapeHtml cs) := by rw [escapeHtml_cons, hes]; rfl
      rw [List.takeWhile_cons, List.dropWhile_cons, hp c hc, hcons, List.takeWhile_cons, List.dropWhile_cons, hamp]
      exact ⟨rfl, hcons.symm⟩

/-- What stops at a bracket is read alike. -/
theorem takeWhile_escape_of_bracket (hp : ∀ c, p c = false → c = '[' ∨ c = ']') (s : List Char) :
    (escapeHtml s).takeWhile p = escapeHtml (s.takeWhile p) ∧
      (escapeHtml s).dropWhile p = escapeHtml (s.dropWhile p) := by
  induction s with
  | nil => exact ⟨rfl, rfl⟩
  | cons c cs ih =>
    rcases escapeChar_cases c with ⟨hkeep, -⟩ | ⟨hc, hescape⟩
    · rw [escapeHtml_cons, hkeep, List.singleton_append, List.takeWhile_cons, List.dropWhile_cons, List.takeWhile_cons,
        List.dropWhile_cons, ih.1, ih.2]
      cases p c
      · exact ⟨rfl, by rw [if_neg Bool.false_ne_true, if_neg Bool.false_ne_true, escapeHtml_cons, hkeep]; rfl⟩
      · exact ⟨by rw [if_pos rfl, if_pos rfl, escapeHtml_cons, hkeep]; rfl, rfl⟩
    · have hthrough : ∀ d ∈ escapeChar c, p d = true := by
        intro d hd
        by_contra hstop
        obtain ⟨hopen, hclose⟩ := hescape.noBracket d hd
        rcases hp d (by simpa using hstop) with rfl | rfl
        · exact hopen rfl
        · exact hclose rfl
      have hpc : p c = true := by
        by_contra hstop
        rcases hp c (by simpa using hstop) with rfl | rfl
        · exact absurd hc (by decide)
        · exact absurd hc (by decide)
      rw [escapeHtml_cons, List.takeWhile_append_of_pos hthrough, List.dropWhile_append_of_pos hthrough, ih.1, ih.2,
        List.takeWhile_cons, List.dropWhile_cons, hpc]
      exact ⟨rfl, rfl⟩

end

/-- A pattern that no escaped character is of. -/
def Untouched (p : List Char) : Prop := ∀ a ∈ p, ∀ c ∈ escapedChars, ignoreCase a c = false

instance : DecidablePred Untouched := fun p => inferInstanceAs (Decidable (∀ a ∈ p, ∀ c ∈ escapedChars, _))

/-- A literal is eaten of the escaped text as of the text. -/
theorem eat_escape {p : List Char} (hp : Untouched p) (s : List Char) :
    eat ignoreCase p (escapeHtml s) = (eat ignoreCase p s).map escapeHtml := by
  induction p generalizing s with
  | nil => rfl
  | cons a p ih =>
    obtain ⟨ha, hrest⟩ := List.forall_mem_cons.mp hp
    cases s with
    | nil => rfl
    | cons c cs =>
      rcases escapeChar_cases c with ⟨hkeep, -⟩ | ⟨hc, hescape⟩
      · rw [escapeHtml_cons, hkeep, List.singleton_append]
        unfold eat
        rw [ih hrest]
        split_ifs <;> rfl
      · obtain ⟨es, hes⟩ := hescape.first
        rw [escapeHtml_cons, hes, List.cons_append]
        unfold eat
        rw [ha c hc, ha '&' (by decide)]
        rfl

/-- Both parts of what was found are escaped. -/
def escapeBoth (found : List Char × List Char) : List Char × List Char := (escapeHtml found.1, escapeHtml found.2)

/-- The first occurrence in the escaped text is that in the text. -/
theorem upTo_escape {p : List Char} (hp : Untouched ('[' :: p)) (s : List Char) :
    upTo ignoreCase ('[' :: p) (escapeHtml s) = (upTo ignoreCase ('[' :: p) s).map escapeBoth := by
  induction s with
  | nil => rfl
  | cons c cs ih =>
    rcases escapeChar_cases c with ⟨hkeep, -⟩ | ⟨hc, hescape⟩
    · have heat := eat_escape hp (c :: cs)
      rw [escapeHtml_cons, hkeep, List.singleton_append] at heat ⊢
      unfold upTo
      rw [heat]
      cases eat ignoreCase ('[' :: p) (c :: cs) with
      | some r => rfl
      | none =>
        dsimp only [Option.map_none]
        rw [ih, Option.map_map, Option.map_map]
        refine congrArg (fun f => Option.map f _) (funext fun found => Prod.ext ?_ rfl)
        exact (show c :: escapeHtml found.1 = escapeHtml (c :: found.1) by rw [escapeHtml_cons, hkeep]; rfl)
    · have heat : eat ignoreCase ('[' :: p) (c :: cs) = none := by
        unfold eat
        rw [(List.forall_mem_cons.mp hp).1 c hc]
        rfl
      rw [escapeHtml_cons, upTo_append hescape.noLiteral, ih, upTo, heat]
      dsimp only
      rw [Option.map_map, Option.map_map]
      rfl

/-- What stands between two literals of the escaped text is what stands there in the text. -/
theorem between_escape {opening closing : String} {p : List Char} (hopen : Untouched opening.toList)
    (hclose : closing.toList = '[' :: p) (hp : Untouched ('[' :: p)) (s : List Char) :
    between opening closing (escapeHtml s) = (between opening closing s).map escapeBoth := by
  unfold between
  rw [eat_escape hopen, hclose]
  cases eat ignoreCase opening.toList s with
  | none => rfl
  | some r => exact upTo_escape hp r

/-! ### Items -/

/-- The item of the escaped text. -/
def Item.escaped : Item → Item
  | .text cs => .text (escapeHtml cs)
  | .pine code => .pine (escapeHtml code)
  | .screen => .screen
  | .image content => .image (escapeHtml content)
  | .bracket => .bracket
  | .tag closing name attr => .tag closing name (attr.map escapeHtml)

/-- What the escaped text begins with. -/
theorem escapeHtml_cons_cases (c : Char) (cs : List Char) :
    (escapeHtml (c :: cs) = c :: escapeHtml cs ∧ c ∉ escapedChars) ∨
      (c ∈ escapedChars ∧ ∃ es, escapeHtml (c :: cs) = '&' :: es) := by
  rcases escapeChar_cases c with ⟨hkeep, hc⟩ | ⟨hc, hescape⟩
  · exact Or.inl ⟨by rw [escapeHtml_cons, hkeep]; rfl, hc⟩
  · obtain ⟨es, hes⟩ := hescape.first
    exact Or.inr ⟨hc, es ++ escapeHtml cs, by rw [escapeHtml_cons, hes]; rfl⟩

theorem tagSlash_of_ne {c : Char} (hc : c ≠ '/') (cs : List Char) : tagSlash (c :: cs) = (false, c :: cs) := by
  unfold tagSlash
  split
  · rename_i heq
    exact absurd (List.cons.inj heq).1 hc
  · rfl

theorem tagSlash_escape (s : List Char) : tagSlash (escapeHtml s) = ((tagSlash s).1, escapeHtml (tagSlash s).2) := by
  cases s with
  | nil => rfl
  | cons c cs =>
    by_cases hslash : c = '/'
    · rw [hslash]
      rfl
    · rw [tagSlash_of_ne hslash]
      rcases escapeHtml_cons_cases c cs with ⟨heq, -⟩ | ⟨-, es, heq⟩
      · rw [heq, tagSlash_of_ne hslash]
      · rw [heq, tagSlash_of_ne (by decide)]

theorem tagName_escape (s : List Char) :
    tagName (escapeHtml s) = (tagName s).map fun (name, r) => (name, escapeHtml r) := by
  cases s with
  | nil => rfl
  | cons c cs =>
    rcases escapeHtml_cons_cases c cs with ⟨heq, -⟩ | ⟨hc, es, heq⟩
    · obtain ⟨htake, hdrop⟩ := takeWhile_escape (p := Char.isAlphanum) (by decide) cs
      rw [heq]
      unfold tagName
      dsimp only
      rw [htake, hdrop]
      split_ifs <;> rfl
    · have hnone : ∀ d ∈ escapedChars, (d.isAlpha || decide (d = '*')) = false := by decide
      rw [heq]
      unfold tagName
      dsimp only
      rw [hnone c hc, hnone '&' (by decide)]
      rfl

theorem tagAttr_of_ne {c : Char} (hclose : c ≠ ']') (heq : c ≠ '=') (cs : List Char) : tagAttr (c :: cs) = none := by
  unfold tagAttr
  split
  · rename_i h
    exact absurd (List.cons.inj h).1 hclose
  · rename_i h
    exact absurd (List.cons.inj h).1 heq
  · rfl

theorem tagAttr_equals (cs : List Char) :
    tagAttr ('=' :: cs) =
      match cs.dropWhile fun c => decide (c ≠ ']') with
      | _ :: behind => some (some (cs.takeWhile fun c => decide (c ≠ ']')), behind)
      | [] => none := rfl

theorem tagAttr_escape (s : List Char) :
    tagAttr (escapeHtml s) = (tagAttr s).map fun (attr, r) => (attr.map escapeHtml, escapeHtml r) := by
  cases s with
  | nil => rfl
  | cons c cs =>
    by_cases hclose : c = ']'
    · rw [hclose]
      rfl
    by_cases hequals : c = '='
    · have hbracket (d : Char) (hd : decide (d ≠ ']') = false) : d = '[' ∨ d = ']' :=
        Or.inr (by simpa using hd)
      obtain ⟨htake, hdrop⟩ := takeWhile_escape_of_bracket hbracket cs
      rw [hequals, show escapeHtml ('=' :: cs) = '=' :: escapeHtml cs from rfl, tagAttr_equals, tagAttr_equals, htake,
        hdrop]
      cases hrest : cs.dropWhile fun d => decide (d ≠ ']') with
      | nil => rfl
      | cons d r =>
        have hd : d = ']' := by
          have hhead := List.head?_dropWhile_not (fun d => decide (d ≠ ']')) cs
          rw [hrest] at hhead
          simpa using hhead
        rw [hd]
        rfl
    · rw [tagAttr_of_ne hclose hequals]
      rcases escapeHtml_cons_cases c cs with ⟨heq, -⟩ | ⟨-, es, heq⟩
      · rw [heq, tagAttr_of_ne hclose hequals]
        rfl
      · rw [heq, tagAttr_of_ne (by decide) (by decide)]
        rfl

theorem genericTag_escape (s : List Char) :
    genericTag (escapeHtml s) = (genericTag s).map fun (item, r) => (item.escaped, escapeHtml r) := by
  unfold genericTag
  rw [tagSlash_escape]
  dsimp only
  rw [tagName_escape]
  cases tagName (tagSlash s).2 with
  | none => rfl
  | some named =>
    obtain ⟨name, r⟩ := named
    dsimp only [Option.map_some, Option.bind_some]
    rw [tagAttr_escape]
    cases tagAttr r <;> rfl

/-- The text before, from its end, of the escaped text. -/
def escapeBack (before : List Char) : List Char := (escapeHtml before.reverse).reverse

theorem escapeBack_cons (c : Char) (before : List Char) :
    escapeBack (c :: before) = (escapeChar c).reverse ++ escapeBack before := by
  unfold escapeBack
  rw [List.reverse_cons, escapeHtml_append, List.reverse_append]
  congr 2
  exact List.append_nil _

theorem escapeBack_append (s before : List Char) :
    escapeBack (s.reverse ++ before) = (escapeHtml s).reverse ++ escapeBack before := by
  unfold escapeBack
  rw [List.reverse_append, List.reverse_reverse, escapeHtml_append, List.reverse_append]

/-- A place begins a line of the escaped text where it begins one of the text. -/
theorem atLineStart_escape (before : List Char) : atLineStart (escapeBack before) = atLineStart before := by
  induction before with
  | nil => rfl
  | cons c before ih =>
    rcases escapeChar_cases c with ⟨hkeep, -⟩ | ⟨hc, hescape⟩
    · rw [escapeBack_cons, hkeep]
      unfold atLineStart at ih ⊢
      rw [List.reverse_singleton, List.singleton_append, List.dropWhile_cons, List.dropWhile_cons]
      split_ifs
      · exact ih
      · rfl
    · obtain ⟨es, hes⟩ := hescape.last
      have hnot : ∀ c ∈ escapedChars, (decide (c = ' ') || decide (c = '\t')) = false ∧ decide (c = '\n') = false := by
        decide
      rw [escapeBack_cons, hes, List.reverse_append]
      unfold atLineStart
      rw [List.dropWhile_cons, (hnot c hc).1]
      rw [if_neg Bool.false_ne_true]
      exact (show decide (';' = '\n') = decide (c = '\n') by rw [(hnot c hc).2]; rfl)

/-- The item and what is left are escaped. -/
def escapeRead (read : Item × List Char) : Item × List Char := (read.1.escaped, escapeHtml read.2)

theorem bracketItem_escape (before cs : List Char) :
    bracketItem (escapeBack before) (escapeHtml ('[' :: cs)) = escapeRead (bracketItem before ('[' :: cs)) := by
  have htail : (escapeHtml ('[' :: cs)).tail = escapeHtml cs := rfl
  unfold bracketItem
  rw [between_escape (p := "/pine]".toList) (by decide) rfl (by decide), eat_escape (by decide), atLineStart_escape,
    between_escape (p := "/screen]".toList) (by decide) rfl (by decide),
    between_escape (p := "/image]".toList) (by decide) rfl (by decide), htail, genericTag_escape, List.tail_cons]
  cases between "[pine]" "[/pine]" ('[' :: cs) with
  | some found => rfl
  | none =>
  cases eat ignoreCase "[pine]".toList ('[' :: cs) with
  | some code => rfl
  | none =>
  have hscreen : (if atLineStart before then (between "[screen]" "[/screen]" ('[' :: cs)).map escapeBoth else none) =
      (if atLineStart before then between "[screen]" "[/screen]" ('[' :: cs) else none).map escapeBoth := by
    split_ifs <;> rfl
  dsimp only [Option.map_none]
  rw [hscreen]
  cases if atLineStart before then between "[screen]" "[/screen]" ('[' :: cs) else none with
  | some found => rfl
  | none =>
  cases between "[image]" "[/image]" ('[' :: cs) with
  | some found => rfl
  | none => cases genericTag cs <;> rfl

/-- **Escaping a text escapes its items**, and changes none. -/
theorem nextItem_escape (before s : List Char) :
    nextItem (escapeBack before) (escapeHtml s) = escapeRead (nextItem before s) := by
  cases s with
  | nil => rfl
  | cons c cs =>
    by_cases hc : c = '['
    · rw [hc]
      exact bracketItem_escape before cs
    · have hraw : ('[' :: cs).head? = some '[' := rfl
      have hne : (c :: cs).head? ≠ some '[' := fun heq => hc (Option.some.inj heq)
      have hescaped : (escapeHtml (c :: cs)).head? ≠ some '[' := by
        rcases escapeHtml_cons_cases c cs with ⟨heq, -⟩ | ⟨-, es, heq⟩
        · rw [heq]
          exact fun heq => hc (Option.some.inj heq)
        · rw [heq]
          exact fun heq => absurd (Option.some.inj heq) (by decide)
      have hbracket (d : Char) (hd : decide (d ≠ '[') = false) : d = '[' ∨ d = ']' :=
        Or.inl (by simpa using hd)
      obtain ⟨htake, hdrop⟩ := takeWhile_escape_of_bracket hbracket (c :: cs)
      unfold nextItem
      rw [if_neg hne, if_neg hescaped, htake, hdrop]
      rfl

/-- The turn of the escaped text. -/
def Turn.escaped (turn : Turn) : Turn := ⟨escapeBack turn.before, turn.item.escaped, escapeHtml turn.behind⟩

/-- What a turn takes is escaped, too. -/
theorem take_escape {s r : List Char} (h : r <:+ s) :
    (escapeHtml s).take ((escapeHtml s).length - (escapeHtml r).length) = escapeHtml (s.take (s.length - r.length)) := by
  obtain ⟨d, rfl⟩ := h
  rw [escapeHtml_append, List.length_append, Nat.add_sub_cancel, List.take_left, List.length_append, Nat.add_sub_cancel,
    List.take_left]

/-- **The turns of the escaped text** are those of the text. -/
theorem turnsFor_escape (n : ℕ) (before s : List Char) :
    turnsFor n (escapeBack before) (escapeHtml s) = (turnsFor n before s).map Turn.escaped := by
  induction n generalizing before s with
  | zero => cases s <;> cases escapeHtml _ <;> rfl
  | succ n ih =>
    cases hs : s with
    | nil => rfl
    | cons c cs =>
      rw [← hs]
      have hne : s ≠ [] := hs ▸ List.cons_ne_nil c cs
      have hescaped : escapeHtml s ≠ [] := by
        rw [hs]
        rcases escapeHtml_cons_cases c cs with ⟨heq, -⟩ | ⟨-, es, heq⟩
        · exact heq ▸ List.cons_ne_nil _ _
        · exact heq ▸ List.cons_ne_nil _ _
      have hsuffix : (nextItem before s).2 <:+ s := (nextItem_reads hne).suffix
      rw [turnsFor_succ hescaped, turnsFor_succ hne, nextItem_escape, List.map_cons, ← ih, escapeBack_append]
      unfold escapeRead
      rw [take_escape hsuffix]
      rfl

end StratTrader.Frontend
