import StratTrader.Foundation.Lines
import StratTrader.Screener.Block

/-!
# A block and the text around it

The only opening tag that begins a line, and the first closing tag behind it, tell which block is returned. What else is
in the text does not matter.

## What is proved

* `Layout.openings_eq`, `Layout.closing_eq`: where nothing around a block opens one, and no line of it opens or closes
  one, the block is the one that is found.
* `Layout.body_eq`: its body is returned.
* `closing_of_body`: no line of a body that is returned has a closing tag.

## Honest scope

A text is a list of Unicode characters.
-/

namespace StratTrader.Screener

open StratTrader.Foundation

/-! ### The tags -/

/-- But for one letter a character is the one that it is written as. -/
theorem toLower_of_foldsTo {p c : Char} (hp : p ≠ 's') (h : foldsTo p c = true) : c.toLower = p := by
  unfold foldsTo at h
  rw [Bool.or_eq_true, Bool.and_eq_true, decide_eq_true_iff, decide_eq_true_iff] at h
  rcases h with h | ⟨h, -⟩
  · exact h
  · exact absurd h hp

/-- No letter is written as a bracket. -/
theorem eq_bracket_of_foldsTo {c : Char} (h : foldsTo '[' c = true) : c = '[' := by
  have hlower := toLower_of_foldsTo (by decide) h
  unfold Char.toLower at hlower
  split at hlower
  case isTrue hupper =>
    have hval : c.val + 32 = 91 := congrArg Char.val hlower
    obtain ⟨hlo, hhi⟩ := hupper
    grind
  case isFalse => exact hlower

/-- None is written as a slash and as the letter. -/
theorem not_foldsTo_slash {c : Char} (h : foldsTo '/' c = true) : foldsTo 's' c = false := by
  have hlower := toLower_of_foldsTo (by decide) h
  have hne : c ≠ 'ſ' := by
    rintro rfl
    exact absurd hlower (by decide)
  unfold foldsTo
  rw [hlower, decide_eq_false hne]
  decide

/-- An opening tag has a bracket at its beginning only. -/
theorem foldsTo_bracket_open : ∀ q ∈ "screen]".toList, foldsTo q '[' = false := by decide

/-- So has a closing one. -/
theorem foldsTo_bracket_close : ∀ q ∈ "/screen]".toList, foldsTo q '[' = false := by decide

/-- What begins an opening tag. -/
theorem eat_openTag {s r : List Char} (h : eat foldsTo openTag s = some r) : ∃ cs, s = '[' :: cs := by
  obtain ⟨c, cs, rfl, hc, -⟩ := eat_cons_eq_some.mp h
  exact ⟨cs, by rw [eq_bracket_of_foldsTo hc]⟩

/-- What begins a closing tag. -/
theorem spells_closeTag {m : List Char} (h : Spells foldsTo closeTag m) : ∃ cs, m = '[' :: cs := by
  cases h with
  | cons hc _ => exact ⟨_, by rw [eq_bracket_of_foldsTo hc]⟩

/-- A text does not begin with both tags. -/
theorem not_open_and_close {m r : List Char} (h : Spells foldsTo closeTag m) (rest : List Char) :
    eat foldsTo openTag (m ++ rest) ≠ some r := by
  intro heat
  obtain ⟨c, cs, heq, -, heat⟩ := eat_cons_eq_some.mp heat
  cases h with
  | cons hc hrest =>
    cases heq
    cases hrest with
    | cons hslash _ =>
      obtain ⟨d, ds, heq, hs, -⟩ := eat_cons_eq_some.mp heat
      cases heq
      exact Bool.false_ne_true ((not_foldsTo_slash hslash).symm.trans hs)

/-- A text laid out around a block. -/
structure Layout (s : List Char) where
  /-- The text before the opening tag. -/
  before : List Char
  /-- The opening tag. -/
  opening : List Char
  /-- The body. -/
  body : List Char
  /-- The closing tag. -/
  close : List Char
  /-- The text behind it. -/
  behind : List Char
  /-- It is the text. -/
  text_eq : s = before ++ opening ++ body ++ close ++ behind
  /-- The opening tag is one. -/
  opens : Spells foldsTo openTag opening
  /-- The closing tag is one. -/
  closes : Spells foldsTo closeTag close
  /-- The block begins a line. -/
  line : LineStart before.reverse
  /-- No tag around the block opens one. -/
  alone : ∀ o ∈ openings [] s,
    before.length ≤ o.before.length ∧ o.before.length < (before ++ opening ++ body ++ close).length

/-! ### What opens a block -/

/-- The tags that are found are found one behind the other. -/
theorem pairwise_openings (before s : List Char) :
    (openings before s).Pairwise fun o o' => o.start.length < o'.start.length := by
  induction s generalizing before with
  | nil =>
    unfold openings
    cases openingAt before [] with
    | none => exact .nil
    | some o => exact List.pairwise_singleton _ _
  | cons c cs ih =>
    unfold openings
    refine List.pairwise_append.mpr ⟨?_, ih _, ?_⟩
    · cases openingAt before (c :: cs) with
      | none => exact .nil
      | some o => exact List.pairwise_singleton _ _
    · intro o ho o' ho'
      obtain ⟨-, hstart, -⟩ := openingAt_eq_some (Option.mem_toList.mp ho)
      obtain ⟨p, r, -, hat⟩ := mem_openings_iff.mp ho'
      obtain ⟨-, hstart', -⟩ := openingAt_eq_some hat
      rw [hstart, hstart', List.length_append, List.length_cons]
      exact Nat.lt_of_lt_of_le (Nat.lt_succ_self _) (Nat.le_add_left _ _)

/-- An opening is told by its place. -/
theorem IsOpening.eq {s : List Char} {o o' : Opening} (h : IsOpening s o) (h' : IsOpening s o')
    (hlen : o.before.length = o'.before.length) : o = o' := by
  have hsplit := List.append_inj (h.text_eq.symm.trans h'.text_eq)
    (by rw [List.length_reverse, List.length_reverse, hlen])
  have hbefore : o.before = o'.before := List.reverse_injective hsplit.1
  have hbehind : o.behind = o'.behind := by
    have htag := h.tag
    rw [hsplit.2, h'.tag] at htag
    exact (Option.some.inj htag).symm
  have hstart : o.start = o'.start := by rw [h.start_eq, h'.start_eq, hbefore]
  obtain ⟨start, before, text, behind⟩ := o
  obtain ⟨start', before', text', behind'⟩ := o'
  dsimp only at hbefore hbehind hstart hsplit
  rw [hbefore, hbehind, hstart, hsplit.2]

/-- A text with one opening. -/
theorem openings_eq_singleton {s : List Char} {o : Opening} (h : IsOpening s o)
    (hall : ∀ o' ∈ openings [] s, o' = o) : openings [] s = [o] := by
  have hmem := mem_openings.mpr h
  have hpairwise := pairwise_openings [] s
  cases hopen : openings [] s with
  | nil =>
    rw [hopen] at hmem
    cases hmem
  | cons first rest =>
    rw [hopen] at hall hpairwise
    cases rest with
    | nil => rw [hall first List.mem_cons_self]
    | cons second rest =>
      have hlt := List.rel_of_pairwise_cons hpairwise List.mem_cons_self
      rw [hall first List.mem_cons_self, hall second (List.mem_cons_of_mem _ List.mem_cons_self)] at hlt
      exact absurd hlt (Nat.lt_irrefl _)

/-- Of two ways to cut a text. -/
theorem exists_of_append_eq {α : Type} {a b x y : List α} (h : a ++ x = b ++ y) (hle : a.length ≤ b.length) :
    ∃ e, b = a ++ e ∧ x = e ++ y := by
  rcases List.append_eq_append_iff.mp h with hcut | ⟨e, rfl, rfl⟩
  · exact hcut
  · rw [List.length_append] at hle
    have he : e = [] := List.length_eq_zero_iff.mp (by omega)
    subst he
    exact ⟨[], by simp only [List.append_nil], rfl⟩

/-- Where only blanks are before a place of a line, there are only blanks in it. -/
theorem isBlank_of_lineStart {pre b : List Char} (hpre : '\n' ∉ pre) (h : LineStart (pre ++ b)) :
    ∀ c ∈ pre, isBlank c = true := by
  induction pre with
  | nil => exact List.forall_mem_nil _
  | cons c pre ih =>
    unfold LineStart at h
    rw [List.cons_append, List.dropWhile_cons] at h
    split_ifs at h with hblank
    · exact List.forall_mem_cons.mpr ⟨hblank, ih (fun hmem => hpre (List.mem_cons_of_mem _ hmem)) h⟩
    · have hc : c = '\n' := of_decide_eq_true h
      exact absurd (hc ▸ List.mem_cons_self) hpre

/-- A bracket that only blanks keep from the beginning of a line begins a line of the text but for blanks. -/
theorem exists_line_of_bracket {f d b : List Char} (h : LineStart (f.reverse ++ b)) :
    ∃ raw ∈ (f ++ '[' :: d).splitOn '\n', (raw.dropWhile isBlank).head? = some '[' := by
  obtain ⟨earlier, pre, hearlier, hpre, rfl⟩ := exists_ended '\n' f
  obtain ⟨post, later, hpost, hlater, hd⟩ := exists_begun '\n' d
  rw [List.reverse_append, List.append_assoc] at h
  have hblanks : ∀ c ∈ pre, isBlank c = true := fun c hc =>
    isBlank_of_lineStart (fun hmem => hpre (List.mem_reverse.mp hmem)) h c (List.mem_reverse.mpr hc)
  have hline : '\n' ∉ pre ++ '[' :: post := by
    rw [List.mem_append, not_or]
    exact ⟨hpre, List.not_mem_cons_of_ne_of_not_mem (by decide) hpost⟩
  refine ⟨pre ++ '[' :: post, ?_, ?_⟩
  · have hsplit := splitOn_lines hearlier hline hlater
    rw [hd, List.append_assoc, ← List.cons_append, ← List.append_assoc pre, ← List.append_assoc, hsplit]
    exact List.mem_append_right _ List.mem_cons_self
  · rw [List.dropWhile_append_of_pos hblanks]
    rfl

/-- Of two ways to cut a text, where the second is before the first and a bracket is behind it. -/
theorem exists_bracket {a b x y cs : List Char} (h : a ++ x = b ++ y) (hlt : b.length < a.length) (hy : y = '[' :: cs) :
    ∃ d, a = b ++ '[' :: d ∧ y = '[' :: d ++ x := by
  obtain ⟨d, rfl, hd⟩ := exists_of_append_eq h.symm hlt.le
  cases d with
  | nil =>
    rw [List.append_nil] at hlt
    exact absurd hlt (Nat.lt_irrefl _)
  | cons c d =>
    have hc : '[' :: cs = c :: (d ++ x) := hy.symm.trans hd
    cases hc
    exact ⟨d, rfl, hd⟩

namespace Layout

variable {s : List Char} (l : Layout s)

/-- No line of the block opens one, nor closes it. -/
structure Plain : Prop where
  /-- None begins with a bracket, but for blanks. -/
  no_bracket : ∀ raw ∈ l.body.splitOn '\n', (raw.dropWhile isBlank).head? ≠ some '['
  /-- None has a closing tag. -/
  no_close : ∀ raw ∈ l.body.splitOn '\n', closing raw = none

variable {l}

/-- **Only the block is opened.** -/
theorem length_before (hl : l.Plain) {o : Opening} (ho : IsOpening s o) : o.before.length = l.before.length := by
  obtain ⟨hfrom, hto⟩ := l.alone o (mem_openings.mpr ho)
  obtain ⟨cs, hbracket⟩ := eat_openTag ho.tag
  have htext := ho.text_eq
  rw [l.text_eq, List.append_assoc, List.append_assoc, List.append_assoc] at htext
  obtain ⟨e, he, hopening⟩ := exists_of_append_eq htext (by rwa [List.length_reverse])
  rcases eq_or_ne e [] with rfl | hne
  · rw [← List.length_reverse, he, List.append_nil]
  exfalso
  -- a bracket within a tag is none of its characters
  have htag {q : Char} {qs m x d : List Char} (hm : Spells foldsTo (q :: qs) m) (hqs : ∀ q ∈ qs, foldsTo q '[' = false)
      (hx : x ≠ []) (hd : m = x ++ '[' :: d) : False := by
    rw [hd] at hm
    obtain ⟨q', hq', hsame⟩ := hm.exists_of_append hx
    rw [hqs q' hq'] at hsame
    cases hsame
  rcases lt_or_ge e.length l.opening.length with hlt | hge
  · obtain ⟨d, hd, -⟩ := exists_bracket hopening hlt hbracket
    exact htag l.opens foldsTo_bracket_open hne hd
  obtain ⟨f, rfl, hbody⟩ := exists_of_append_eq hopening hge
  rcases lt_or_ge f.length l.body.length with hlt | hge
  · obtain ⟨d, hd, -⟩ := exists_bracket hbody hlt hbracket
    have hline := ho.line
    rw [← List.reverse_reverse o.before, he, List.reverse_append, List.reverse_append, List.append_assoc] at hline
    obtain ⟨raw, hraw, hhead⟩ := exists_line_of_bracket (d := d) hline
    rw [← hd] at hraw
    exact hl.no_bracket raw hraw hhead
  obtain ⟨g, rfl, hclose⟩ := exists_of_append_eq hbody hge
  have hlt : g.length < l.close.length := by
    rw [← List.length_reverse, he] at hto
    simp only [List.length_append] at hto
    omega
  obtain ⟨d, hd, htext⟩ := exists_bracket hclose hlt hbracket
  rcases eq_or_ne g [] with rfl | hg
  · have hopen := ho.tag
    rw [List.nil_append] at hd
    rw [htext, ← hd] at hopen
    exact not_open_and_close l.closes _ hopen
  · exact htag l.closes foldsTo_bracket_close hg hd

/-- The opening of the block. -/
theorem openings_eq (hl : l.Plain) : ∃ o, openings [] s = [o] ∧ o.behind = l.body ++ l.close ++ l.behind := by
  let o : Opening := ⟨l.before.reverse.dropWhile isBlank, l.before.reverse,
    l.opening ++ (l.body ++ l.close ++ l.behind), l.body ++ l.close ++ l.behind⟩
  have ho : IsOpening s o :=
    { text_eq := l.text_eq.trans (by simp only [o, List.reverse_reverse, List.append_assoc])
      start_eq := rfl
      line := l.line
      tag := eat_eq_some.mpr ⟨_, l.opens, rfl⟩ }
  refine ⟨o, openings_eq_singleton ho fun o' ho' => ?_, rfl⟩
  have ho' := mem_openings.mp ho'
  exact ho'.eq ho (by rw [length_before hl ho', length_before hl ho])

/-- **The block is closed behind its body.** -/
theorem closing_eq (hl : l.Plain) : closing (l.body ++ l.close ++ l.behind) = some (l.body, l.behind) := by
  refine upTo_eq l.closes fun b d hbody hd => ?_
  by_contra hno
  obtain ⟨r, hr⟩ := Option.ne_none_iff_exists'.mp hno
  obtain ⟨cs, hclose⟩ := spells_closeTag l.closes
  rw [hclose, List.append_assoc] at hr
  -- the tag is in the body, and there on one line
  obtain ⟨r', hr', -⟩ := eat_cons_of_append foldsTo_bracket_close hd hr
  obtain ⟨earlier, pre, hearlier, hpre, rfl⟩ := exists_ended '\n' b
  obtain ⟨post, later, hpost, hlater, rfl⟩ := exists_begun '\n' d
  have hpart : ∃ r'', eat foldsTo closeTag post = some r'' := by
    cases later with
    | nil => exact ⟨r', by rwa [begun, List.flatMap_nil, List.append_nil] at hr'⟩
    | cons first later =>
      rw [begun_cons] at hr'
      obtain ⟨r'', hr'', -⟩ := eat_of_append (p := closeTag) (by decide) hr'
      exact ⟨r'', hr''⟩
  obtain ⟨r'', hpart⟩ := hpart
  obtain ⟨m, hm, hpost'⟩ := eat_eq_some.mp hpart
  have hline : pre ++ post ∈ l.body.splitOn '\n' := by
    have hnone : '\n' ∉ pre ++ post := by
      rw [List.mem_append, not_or]
      exact ⟨hpre, hpost⟩
    have hsplit := splitOn_lines hearlier hnone hlater
    rw [hbody, List.append_assoc, ← List.append_assoc pre, ← List.append_assoc, hsplit]
    exact List.mem_append_right _ List.mem_cons_self
  obtain ⟨a, r, hfound, -⟩ := upTo_first (s := pre ++ post) hm (by rw [hpost', List.append_assoc])
  exact absurd (hl.no_close _ hline) (by unfold closing; rw [hfound]; exact fun h => nomatch h)

/-- **Its body is the one that is returned.** -/
theorem body_eq (hl : l.Plain) : (extractBlock s).body = some l.body := by
  obtain ⟨o, hopen, hbehind⟩ := openings_eq hl
  unfold extractBlock
  rw [hopen]
  dsimp only
  rw [hbehind, closing_eq hl]

end Layout

/-- A body that is returned is before the first closing tag. -/
theorem closing_of_extractBlock {s body : List Char} (h : (extractBlock s).body = some body) :
    ∃ t behind, closing t = some (body, behind) := by
  unfold extractBlock at h
  cases hopen : openings [] s with
  | nil =>
    rw [hopen] at h
    cases h
  | cons o os =>
    rw [hopen] at h
    cases os with
    | cons _ _ => cases h
    | nil =>
      dsimp only at h
      cases hclose : closing o.behind with
      | none =>
        rw [hclose] at h
        cases h
      | some found =>
        rw [hclose] at h
        cases h
        exact ⟨o.behind, found.2, hclose⟩

/-- No line of a body that is returned has a closing tag. -/
theorem closing_of_body {s body raw : List Char} (h : (extractBlock s).body = some body)
    (hraw : raw ∈ body.splitOn '\n') : closing raw = none := by
  obtain ⟨t, behind, hclose⟩ := closing_of_extractBlock h
  obtain ⟨close, -, ht⟩ := upTo_eq_some hclose
  by_contra hno
  obtain ⟨⟨a, r⟩, hfound⟩ := Option.ne_none_iff_exists'.mp hno
  obtain ⟨m, hm, rfl⟩ := upTo_eq_some hfound
  obtain ⟨earlier, later, hsplit⟩ := List.append_of_mem hraw
  obtain ⟨-, -, -, hbody⟩ := lines_of_splitOn hsplit
  obtain ⟨a', r', hfirst, hle⟩ := upTo_first (x := ended '\n' earlier ++ a) (y := r ++ begun '\n' later ++ close ++ behind)
    (s := t) hm (by rw [ht, hbody]; simp only [List.append_assoc])
  rw [show upTo foldsTo closeTag t = some (body, behind) from hclose] at hfirst
  cases hfirst
  have hlen := congrArg List.length hbody
  have hmlen : m.length = 9 := hm.length_eq
  simp only [List.length_append] at hlen hle
  omega

end StratTrader.Screener
