import StratTrader.Frontend.Turns
import StratTrader.Screener.Block

/-!
# What the parser and the renderer take for a screening block

The same `[screen]` block is read twice: `extract_block` looks for it in the text with two patterns, and
`renderTradingViewDescription` meets it among the other items of the escaped text and drops it. Both want its opening
tag at the beginning of a line, so that "the two never disagree about what is a block".

They do: the patterns see an opening tag within a `[pine]` sample, an `[image]` or the attribute of a tag, which the
renderer takes as part of that item; a long s is an s for the patterns only; and of several opening tags the renderer
may drop one, where the parser finds none.

## What is proved

* `mem_droppedFor`: what the renderer drops, of the text.
* `Dropped.isOpening`: it is a block whose opening tag the parser finds.
* `Agrees.dropped`: where the two agree, it is the block whose body the parser returns.
* `agrees_iff_readAlike`: the two agree on a text exactly if it has no opening tag, or one which is not closed, or one
  that begins an item and is spelled, with its closing tag, in ASCII, or several of which the renderer does not drop
  exactly one.
* `not_agrees_in_sample`: they do not agree on a block within a `[pine]` sample.

## Honest scope

Where an item begins is said of the text itself, not of its escaped form; that these are the same places is
`turnsFor_escape`.
-/

namespace StratTrader.Frontend

open StratTrader.Foundation StratTrader.Screener

/-! ### What is dropped -/

/-- The `[screen]` blocks that the turns drop: what is before them, and behind them. -/
def droppedFor (n : ℕ) (before s : List Char) : List (List Char × List Char) :=
  ((turnsFor n before s).filter fun turn => decide (turn.item = .screen)).map fun turn =>
    (turn.before.reverse, turn.behind)

/-- The blocks that `renderTradingViewDescription` drops, of the escaped text. -/
def droppedSpans (raw : List Char) : List (List Char × List Char) :=
  droppedFor (escapeHtml raw).length [] (escapeHtml raw)

/-- The parser and the renderer agree on a text. -/
structure Agrees (text : List Char) : Prop where
  /-- A block is located if it, and no other one, is dropped. -/
  block : ∀ span, blockOf text = some span ↔ droppedSpans text = [escapeBoth span]
  /-- Where no block is reported, none is dropped. -/
  none : (extractBlock text).body = none → (extractBlock text).errors = [] → droppedSpans text = []

/-! ### The places of a text -/

/-- The place behind the item that begins at a place: the text before, from its end, and what is left. -/
def advance (place : List Char × List Char) : List Char × List Char :=
  ((place.2.take (place.2.length - (nextItem place.1 place.2).2.length)).reverse ++ place.1,
    (nextItem place.1 place.2).2)

/-- An item of the text begins at a place: the text was read up to it. -/
def Begins (text before rest : List Char) : Prop := ∃ k, advance^[k] ([], text) = (before, rest)

/-- A block that begins an item of the text, at the beginning of a line, and is spelled in ASCII. -/
def Dropped (text before behind : List Char) : Prop :=
  ∃ rest content, Begins text before rest ∧ atLineStart before = true ∧
    between "[screen]" "[/screen]" rest = some (content, behind)

/-- The condition for the parser and the renderer to agree. -/
def ReadAlike (text : List Char) : Prop :=
  match openings [] text with
  | [] => True
  | [o] =>
    closing o.behind = none ∨
      (Begins text o.before o.text ∧ (eat ignoreCase openTag o.text).isSome = true ∧
        upTo ignoreCase closeTag o.behind = closing o.behind)
  | _ => ¬ ∃! span : List Char × List Char, Dropped text span.1.reverse span.2

theorem advance_text (place : List Char × List Char) :
    (advance place).1.reverse ++ (advance place).2 = place.1.reverse ++ place.2 := by
  obtain ⟨before, s⟩ := place
  have hsuffix : (nextItem before s).2 <:+ s := by
    cases s with
    | nil => exact List.suffix_rfl
    | cons c cs => exact (nextItem_reads (List.cons_ne_nil c cs)).suffix
  unfold advance
  generalize (nextItem before s).2 = r at hsuffix
  obtain ⟨d, rfl⟩ := hsuffix
  dsimp only
  rw [List.length_append, Nat.add_sub_cancel, List.take_left, List.reverse_append, List.reverse_reverse,
    List.append_assoc]

/-- A place is one of the text. -/
theorem Begins.text_eq {text before rest : List Char} (h : Begins text before rest) : text = before.reverse ++ rest := by
  obtain ⟨k, hk⟩ := h
  have hall : ∀ k, (advance^[k] ([], text)).1.reverse ++ (advance^[k] ([], text)).2 = text := by
    intro k
    induction k with
    | zero => rfl
    | succ k ih => rw [Function.iterate_succ_apply', advance_text, ih]
  have htext := hall k
  rw [hk] at htext
  exact htext.symm

theorem advance_iterate_nil (k : ℕ) (before : List Char) : advance^[k] (before, []) = (before, []) :=
  Function.iterate_fixed rfl k

/-- The turns are those of the places, up to the end of the text. -/
theorem mem_turnsFor {n : ℕ} {before s : List Char} (hn : s.length ≤ n) {turn : Turn} :
    turn ∈ turnsFor n before s ↔
      ∃ k before' rest, advance^[k] (before, s) = (before', rest) ∧ rest ≠ [] ∧
        turn = ⟨before', (nextItem before' rest).1, (nextItem before' rest).2⟩ := by
  have hnil (n : ℕ) (before : List Char) : turn ∈ turnsFor n before [] ↔
      ∃ k before' rest, advance^[k] (before, []) = (before', rest) ∧ rest ≠ [] ∧
        turn = ⟨before', (nextItem before' rest).1, (nextItem before' rest).2⟩ := by
    have hnone : turnsFor n before [] = [] := by cases n <;> rfl
    rw [hnone]
    refine ⟨fun h => absurd h List.not_mem_nil, ?_⟩
    rintro ⟨k, before', rest, hk, hrest, -⟩
    rw [advance_iterate_nil] at hk
    cases hk
    exact absurd rfl hrest
  induction n generalizing before s with
  | zero =>
    cases List.length_eq_zero_iff.mp (Nat.le_zero.mp hn)
    exact hnil 0 before
  | succ n ih =>
    by_cases hs : s = []
    · subst hs
      exact hnil (n + 1) before
    have hleft : (advance (before, s)).2.length ≤ n :=
      Nat.le_of_lt_succ (Nat.lt_of_lt_of_le (nextItem_reads hs).shorter hn)
    have hturns : turnsFor (n + 1) before s =
        ⟨before, (nextItem before s).1, (nextItem before s).2⟩ ::
          turnsFor n (advance (before, s)).1 (advance (before, s)).2 := turnsFor_succ hs n before
    rw [hturns, List.mem_cons]
    refine (or_congr_right (ih hleft)).trans ?_
    constructor
    · rintro (rfl | ⟨k, before', rest, hk, hrest, rfl⟩)
      · exact ⟨0, before, s, rfl, hs, rfl⟩
      · exact ⟨k + 1, before', rest, by rw [Function.iterate_succ_apply]; exact hk, hrest, rfl⟩
    · rintro ⟨k, before', rest, hk, hrest, rfl⟩
      cases k with
      | zero =>
        cases hk
        exact Or.inl rfl
      | succ k =>
        rw [Function.iterate_succ_apply] at hk
        exact Or.inr ⟨k, before', rest, hk, hrest, rfl⟩

/-! ### Blocks among the items -/

theorem genericTag_ne_screen {s : List Char} : ((genericTag s).getD (.bracket, s)).1 ≠ .screen := by
  unfold genericTag
  cases tagName (tagSlash s).2 with
  | none => exact fun h => nomatch h
  | some named =>
    obtain ⟨name, r⟩ := named
    dsimp only [Option.bind_some]
    cases tagAttr r with
    | none => exact fun h => nomatch h
    | some found => exact fun h => nomatch h

/-- What is dropped is a block that begins a line. -/
theorem nextItem_screen {before rest behind : List Char} :
    nextItem before rest = (.screen, behind) ↔
      atLineStart before = true ∧ ∃ content, between "[screen]" "[/screen]" rest = some (content, behind) := by
  constructor
  · intro h
    unfold nextItem at h
    split_ifs at h
    · unfold bracketItem at h
      cases hpine : between "[pine]" "[/pine]" rest with
      | some found =>
        rw [hpine] at h
        cases h
      | none =>
      cases hopen : eat ignoreCase "[pine]".toList rest with
      | some code =>
        rw [hpine, hopen] at h
        cases h
      | none =>
      cases hscreen : if atLineStart before then between "[screen]" "[/screen]" rest else none with
      | some found =>
        rw [hpine, hopen, hscreen] at h
        cases h
        split_ifs at hscreen with hline
        exact ⟨hline, found.1, hscreen⟩
      | none =>
      cases himage : between "[image]" "[/image]" rest with
      | some found =>
        rw [hpine, hopen, hscreen, himage] at h
        cases h
      | none =>
      rw [hpine, hopen, hscreen, himage] at h
      exact absurd (congrArg Prod.fst h) genericTag_ne_screen
    · cases h
  · rintro ⟨hline, content, hbetween⟩
    obtain ⟨r, heat, -⟩ := Option.bind_eq_some_iff.mp hbetween
    obtain ⟨c, cs, rfl, hc, hrest⟩ := eat_cons_eq_some.mp (show eat ignoreCase ('[' :: "screen]".toList) rest = some r from heat)
    obtain ⟨d, ds, rfl, hd, -⟩ := eat_cons_eq_some.mp (show eat ignoreCase ('s' :: "creen]".toList) cs = some r from hrest)
    cases ignoreCase_bracket hc
    have hpine : eat ignoreCase "[pine]".toList ('[' :: d :: ds) = none := by
      have hp : ignoreCase 'p' d = false := by
        rw [ignoreCase, of_decide_eq_true hd]
        rfl
      exact (if_pos rfl).trans (if_neg fun heq => Bool.false_ne_true (hp.symm.trans heq))
    have hnone : between "[pine]" "[/pine]" ('[' :: d :: ds) = none := by
      unfold between
      rw [hpine]
      rfl
    unfold nextItem bracketItem
    rw [if_pos (show ('[' :: d :: ds).head? = some '[' from rfl), hnone, hpine, if_pos hline, hbetween]

/-- **What the renderer drops**, of the text. -/
theorem mem_droppedFor {n : ℕ} {text : List Char} (hn : text.length ≤ n) {span : List Char × List Char} :
    span ∈ droppedFor n [] text ↔ Dropped text span.1.reverse span.2 := by
  obtain ⟨before, behind⟩ := span
  unfold droppedFor Dropped Begins
  rw [List.mem_map]
  constructor
  · rintro ⟨turn, hturn, heq⟩
    obtain ⟨hmem, hscreen⟩ := List.mem_filter.mp hturn
    obtain ⟨k, before', rest, hk, -, rfl⟩ := (mem_turnsFor hn).mp hmem
    cases heq
    have hnext : nextItem before' rest = (.screen, (nextItem before' rest).2) :=
      Prod.ext (of_decide_eq_true hscreen) rfl
    obtain ⟨hline, content, hbetween⟩ := nextItem_screen.mp hnext
    dsimp only
    rw [List.reverse_reverse]
    exact ⟨rest, content, ⟨k, hk⟩, hline, hbetween⟩
  · rintro ⟨rest, content, ⟨k, hk⟩, hline, hbetween⟩
    have hnext := nextItem_screen.mpr ⟨hline, content, hbetween⟩
    have hrest : rest ≠ [] := by
      rintro rfl
      cases hbetween
    refine ⟨⟨before.reverse, .screen, behind⟩, List.mem_filter.mpr ⟨?_, rfl⟩, by rw [List.reverse_reverse]⟩
    exact (mem_turnsFor hn).mpr ⟨k, before.reverse, rest, hk, hrest, by rw [hnext]⟩

/-- The turns take the text from the left to the right. -/
theorem turnsFor_pairwise (n : ℕ) (before s : List Char) :
    (∀ turn ∈ turnsFor n before s, turn.behind.length < s.length) ∧
      (turnsFor n before s).Pairwise fun a b => b.behind.length < a.behind.length := by
  induction n generalizing before s with
  | zero =>
    have hnone : turnsFor 0 before s = [] := by cases s <;> rfl
    rw [hnone]
    exact ⟨fun turn h => absurd h List.not_mem_nil, .nil⟩
  | succ n ih =>
    by_cases hs : s = []
    · subst hs
      exact ⟨fun turn h => absurd h List.not_mem_nil, .nil⟩
    have hshorter := (@nextItem_reads before _ hs).shorter
    rw [turnsFor_succ hs]
    obtain ⟨hall, hpairwise⟩ := ih
      ((s.take (s.length - (nextItem before s).2.length)).reverse ++ before) (nextItem before s).2
    exact ⟨List.forall_mem_cons.mpr ⟨hshorter, fun turn h => (hall turn h).trans hshorter⟩,
      List.pairwise_cons.mpr ⟨hall, hpairwise⟩⟩

/-- No block is dropped twice. -/
theorem nodup_droppedFor (n : ℕ) (before s : List Char) : (droppedFor n before s).Nodup := by
  unfold droppedFor
  have hpairwise := ((turnsFor_pairwise n before s).2).filter fun turn => decide (turn.item = .screen)
  refine List.pairwise_map.mpr (hpairwise.imp fun hlt heq => ?_)
  rw [(Prod.mk.inj heq).2] at hlt
  exact Nat.lt_irrefl _ hlt

/-- The blocks that are dropped of the escaped text are those of the text. -/
theorem droppedSpans_eq (text : List Char) :
    droppedSpans text = (droppedFor (escapeHtml text).length [] text).map escapeBoth := by
  have hturns := turnsFor_escape (escapeHtml text).length [] text
  have hscreen (turn : Turn) : decide (turn.escaped.item = .screen) = decide (turn.item = .screen) := by
    unfold Turn.escaped
    cases turn.item <;> rfl
  unfold droppedSpans droppedFor
  rw [show turnsFor (escapeHtml text).length [] (escapeHtml text) = _ from hturns, List.filter_map, List.map_map,
    List.map_map]
  have hfilter : (fun turn : Turn => decide (turn.item = .screen)) ∘ Turn.escaped =
      fun turn => decide (turn.item = .screen) := funext hscreen
  rw [hfilter]
  refine List.map_congr_left fun turn _ => Prod.ext ?_ rfl
  exact List.reverse_reverse _

theorem escapeBoth_injective : Function.Injective escapeBoth := by
  rintro ⟨a, b⟩ ⟨c, d⟩ heq
  obtain ⟨hfirst, hsecond⟩ := Prod.mk.inj heq
  exact Prod.ext (escapeHtml_injective hfirst) (escapeHtml_injective hsecond)

theorem length_le_escapeHtml (s : List Char) : s.length ≤ (escapeHtml s).length := by
  induction s with
  | nil => exact Nat.le_refl _
  | cons c s ih =>
    rw [escapeHtml_cons, List.length_append, List.length_cons]
    have hpos : 0 < (escapeChar c).length := by
      rcases escapeChar_cases c with ⟨hc, -⟩ | ⟨-, hc⟩
      · rw [hc]
        exact Nat.one_pos
      · obtain ⟨es, hes⟩ := hc.first
        rw [hes]
        exact Nat.succ_pos _
    omega

/-- A block is dropped, and no other one: of the text. -/
theorem droppedSpans_eq_singleton {text : List Char} {span : List Char × List Char} :
    droppedSpans text = [escapeBoth span] ↔ ∀ other : List Char × List Char,
      Dropped text other.1.reverse other.2 ↔ other = span := by
  have hmem {other : List Char × List Char} := @mem_droppedFor _ text (length_le_escapeHtml text) other
  rw [droppedSpans_eq]
  constructor
  · intro h other
    have hlist : droppedFor (escapeHtml text).length [] text = [span] :=
      List.map_injective_iff.mpr escapeBoth_injective h
    rw [← hmem, hlist, List.mem_singleton]
  · intro h
    have hperm : (droppedFor (escapeHtml text).length [] text).Perm [span] := by
      rw [List.perm_ext_iff_of_nodup (nodup_droppedFor _ _ _) (List.nodup_cons.mpr ⟨List.not_mem_nil, .nil⟩)]
      intro other
      rw [hmem, h, List.mem_singleton]
    rw [List.perm_singleton.mp hperm]
    rfl

theorem droppedSpans_eq_nil {text : List Char} :
    droppedSpans text = [] ↔ ∀ span : List Char × List Char, ¬ Dropped text span.1.reverse span.2 := by
  rw [droppedSpans_eq, List.map_eq_nil_iff, List.eq_nil_iff_forall_not_mem]
  exact forall_congr' fun span => not_congr (mem_droppedFor (length_le_escapeHtml text))

/-! ### The parser and the renderer -/

theorem foldsTo_of_ignoreCase (p c : Char) (h : ignoreCase p c = true) : foldsTo p c = true := by
  unfold foldsTo
  rw [show decide (c.toLower = p) = true from h]
  rfl

theorem lineStart_iff {before : List Char} : LineStart before ↔ atLineStart before = true := Iff.rfl

/-- What is closed in ASCII is closed. -/
theorem closing_isSome_of_upTo {s content behind : List Char}
    (h : upTo ignoreCase closeTag s = some (content, behind)) : ∃ found, closing s = some found := by
  obtain ⟨m, hm, hs⟩ := upTo_eq_some h
  have hspells : Spells foldsTo closeTag m := hm.imp foldsTo_of_ignoreCase
  obtain ⟨a, r, hfound, -⟩ := upTo_first hspells hs
  exact ⟨(a, r), hfound⟩

/-- **What is dropped** is a block whose opening tag the parser finds. -/
theorem Dropped.isOpening {text before behind : List Char} (h : Dropped text before behind) :
    ∃ o, IsOpening text o ∧ o.before = before ∧ Begins text before o.text ∧
      eat ignoreCase openTag o.text = some o.behind ∧ ∃ content, upTo ignoreCase closeTag o.behind = some (content, behind) := by
  obtain ⟨rest, content, hbegins, hline, hbetween⟩ := h
  obtain ⟨r, heat, hclose⟩ := Option.bind_eq_some_iff.mp hbetween
  refine ⟨⟨before.dropWhile isBlank, before, rest, r⟩, ⟨hbegins.text_eq, rfl, lineStart_iff.mpr hline, ?_⟩, rfl, hbegins,
    heat, content, hclose⟩
  exact eat_mono foldsTo_of_ignoreCase heat

/-- An opening that begins an item and is spelled in ASCII, as its closing tag, is dropped. -/
theorem dropped_of_opening {text : List Char} {o : Opening} {content behind : List Char} (ho : IsOpening text o)
    (hbegins : Begins text o.before o.text) (heat : eat ignoreCase openTag o.text = some o.behind)
    (hclose : upTo ignoreCase closeTag o.behind = some (content, behind)) : Dropped text o.before behind := by
  refine ⟨o.text, content, hbegins, lineStart_iff.mp ho.line, ?_⟩
  unfold between
  rw [show eat ignoreCase "[screen]".toList o.text = some o.behind from heat]
  exact hclose

/-- What is left behind the first closing tag tells what is before it. -/
theorem content_of_behind {same same' : Char → Char → Bool} {p s a b r : List Char} (ha : upTo same p s = some (a, r))
    (hb : upTo same' p s = some (b, r)) : a = b := by
  obtain ⟨m, hm, hs⟩ := upTo_eq_some ha
  obtain ⟨m', hm', hs'⟩ := upTo_eq_some hb
  have hlength : m.length = m'.length := hm.length_eq.trans hm'.length_eq.symm
  have heq : a ++ m = b ++ m' := List.append_cancel_right (hs.symm.trans hs')
  exact (List.append_inj' heq hlength).1

section
variable {text : List Char}

/-- Without an opening tag nothing is dropped. -/
theorem droppedSpans_of_openings_nil (h : openings [] text = []) : droppedSpans text = [] := by
  refine droppedSpans_eq_nil.mpr fun span hdropped => ?_
  obtain ⟨o, ho, -⟩ := hdropped.isOpening
  have hmem := mem_openings.mpr ho
  rw [h] at hmem
  exact List.not_mem_nil hmem

/-- They agree where no block is reported. What is left to agree on is the block. -/
theorem agrees_iff_block : Agrees text ↔ ∀ span, blockOf text = some span ↔ droppedSpans text = [escapeBoth span] :=
  ⟨Agrees.block, fun h => ⟨h, fun hbody herrors => droppedSpans_of_openings_nil (extractBlock_none hbody herrors)⟩⟩

/-- Where they agree, what the renderer drops is the block whose body the parser returns. -/
theorem Agrees.dropped (h : Agrees text) {body : List Char} (hbody : (extractBlock text).body = some body) :
    ∃ before opening close behind, text = before ++ opening ++ body ++ close ++ behind ∧
      Spells foldsTo openTag opening ∧ Spells foldsTo closeTag close ∧
        droppedSpans text = [escapeBoth (before, behind)] := by
  obtain ⟨before, opening, close, behind, hblock, hopening, hclose, htext⟩ := blockOf_body hbody
  exact ⟨before, opening, close, behind, htext, hopening, hclose, (h.block _).mp hblock⟩

/-- Where the parser locates no block, they agree if not exactly one is dropped. -/
theorem agrees_iff_of_none (h : blockOf text = none) :
    Agrees text ↔ ¬ ∃! span : List Char × List Char, Dropped text span.1.reverse span.2 := by
  rw [agrees_iff_block, h]
  constructor
  · rintro hall ⟨span, hdropped, hunique⟩
    have hone : droppedSpans text = [escapeBoth span] := by
      refine droppedSpans_eq_singleton.mpr fun other => ⟨hunique other, ?_⟩
      rintro rfl
      exact hdropped
    exact nomatch (hall span).mpr hone
  · intro hnot span
    refine ⟨fun heq => (nomatch heq), fun hone => absurd ⟨span, ?_, ?_⟩ hnot⟩
    · exact (droppedSpans_eq_singleton.mp hone span).mpr rfl
    · exact fun other => (droppedSpans_eq_singleton.mp hone other).mp

/-- Where the parser locates a block, they agree if it is what is dropped. -/
theorem agrees_iff_of_some {span : List Char × List Char} (h : blockOf text = some span) :
    Agrees text ↔ droppedSpans text = [escapeBoth span] := by
  rw [agrees_iff_block, h]
  constructor
  · exact fun hall => (hall span).mp rfl
  · intro hone other
    rw [hone]
    constructor
    · intro heq
      rw [Option.some.inj heq]
    · intro heq
      rw [escapeBoth_injective (List.cons.inj heq).1]

variable {o : Opening}

/-- What is dropped of a text with one opening tag is its block. -/
theorem dropped_iff_of_one (hopen : openings [] text = [o]) {before behind : List Char} :
    Dropped text before behind ↔ o.before = before ∧ Begins text o.before o.text ∧
      (eat ignoreCase openTag o.text).isSome = true ∧
        ∃ content, upTo ignoreCase closeTag o.behind = some (content, behind) := by
  have ho : IsOpening text o := mem_openings.mp (by rw [hopen]; exact List.mem_singleton.mpr rfl)
  constructor
  · intro h
    obtain ⟨o', ho', hbefore, hbegins, heat, hclose⟩ := h.isOpening
    have hmem := mem_openings.mpr ho'
    rw [hopen] at hmem
    cases List.mem_singleton.mp hmem
    subst hbefore
    exact ⟨rfl, hbegins, Option.isSome_iff_exists.mpr ⟨_, heat⟩, hclose⟩
  · rintro ⟨rfl, hbegins, hsome, content, hclose⟩
    obtain ⟨r, heat⟩ := Option.isSome_iff_exists.mp hsome
    have hr : r = o.behind := (drop_of_eat heat).trans (drop_of_eat ho.tag).symm
    exact dropped_of_opening ho hbegins (hr ▸ heat) hclose

/-- A text with one opening tag, which is not closed. -/
theorem agrees_of_unclosed (hopen : openings [] text = [o]) (hclose : closing o.behind = none) : Agrees text := by
  have hblock : blockOf text = none := by
    unfold blockOf
    rw [hopen]
    dsimp only
    rw [hclose]
    rfl
  rw [agrees_iff_of_none hblock]
  rintro ⟨span, hdropped, -⟩
  obtain ⟨-, -, -, content, hascii⟩ := (dropped_iff_of_one hopen).mp hdropped
  obtain ⟨found, hfound⟩ := closing_isSome_of_upTo hascii
  rw [hclose] at hfound
  cases hfound

/-- A text with one opening tag, which is closed. -/
theorem agrees_iff_of_closed (hopen : openings [] text = [o]) {content behind : List Char}
    (hclose : closing o.behind = some (content, behind)) :
    Agrees text ↔ Begins text o.before o.text ∧ (eat ignoreCase openTag o.text).isSome = true ∧
      upTo ignoreCase closeTag o.behind = closing o.behind := by
  have hblock : blockOf text = some (o.before.reverse, behind) := by
    unfold blockOf
    rw [hopen]
    dsimp only
    rw [hclose]
    rfl
  rw [agrees_iff_of_some hblock, droppedSpans_eq_singleton]
  constructor
  · intro hall
    have hdropped := (hall (o.before.reverse, behind)).mpr rfl
    obtain ⟨-, hbegins, heat, content', hascii⟩ := (dropped_iff_of_one hopen).mp hdropped
    have hcontent : content' = content := content_of_behind hascii hclose
    exact ⟨hbegins, heat, by rw [hclose, ← hcontent]; exact hascii⟩
  · rintro ⟨hbegins, heat, hascii⟩ ⟨before', behind'⟩
    rw [dropped_iff_of_one hopen, hascii, hclose]
    constructor
    · rintro ⟨hbefore, -, -, content', heq⟩
      cases heq
      rw [hbefore]
      exact Prod.ext (List.reverse_reverse _).symm rfl
    · intro heq
      cases heq
      exact ⟨(List.reverse_reverse _).symm, hbegins, heat, content, rfl⟩

end

/-- **The parser and the renderer agree on a text exactly if** they read its opening tags alike. -/
theorem agrees_iff_readAlike (text : List Char) : Agrees text ↔ ReadAlike text := by
  unfold ReadAlike
  cases hopen : openings [] text with
  | nil =>
    have hblock : blockOf text = none := by
      unfold blockOf
      rw [hopen]
    refine iff_of_true ((agrees_iff_of_none hblock).mpr ?_) trivial
    rintro ⟨span, hdropped, -⟩
    exact droppedSpans_eq_nil.mp (droppedSpans_of_openings_nil hopen) span hdropped
  | cons o os =>
    cases os with
    | nil =>
      cases hclose : closing o.behind with
      | none => exact iff_of_true (agrees_of_unclosed hopen hclose) (Or.inl hclose)
      | some found =>
        dsimp only
        rw [agrees_iff_of_closed hopen hclose, hclose]
        exact ⟨Or.inr, fun h => h.resolve_left fun heq => nomatch heq⟩
    | cons second os =>
      have hblock : blockOf text = none := by
        unfold blockOf
        rw [hopen]
      exact agrees_iff_of_none hblock

/-- They do not agree on a block within a `[pine]` sample, which the parser reads and the renderer shows. -/
theorem not_agrees_in_sample : ¬ Agrees "[pine]\n[screen]\nlimit: 5\n[/screen]\n[/pine]".toList := by
  intro h
  have hblock : blockOf "[pine]\n[screen]\nlimit: 5\n[/screen]\n[/pine]".toList =
      some ("[pine]\n".toList, "\n[/pine]".toList) := by decide
  have hnone : droppedSpans "[pine]\n[screen]\nlimit: 5\n[/screen]\n[/pine]".toList = [] := by decide
  have hone := (h.block _).mp hblock
  rw [hnone] at hone
  cases hone

end StratTrader.Frontend
