import StratTrader.Screener.Accepted
import StratTrader.Screener.Surroundings

/-!
# Criteria are told by the set of lines

Each line sets its own key once, or puts a window in its place, so that the order of the lines does not matter. Nor do
blank lines, comments and what is around the block.

## What is proved

* `addLine_comm`: two lines commute.
* `parse_of_layout`: a text whose block has the same lines in another order, and others that say nothing, is parsed to
  the same criteria.
* `not_parse_of_layout`: a comment with a closing tag closes the block.

## Honest scope

A text is a list of Unicode characters.
-/

namespace StratTrader.Screener

open StratTrader.Foundation

/-! ### Lines that say nothing, and lines that are no tag -/

/-- A blank line or a comment. -/
def Idle (raw : List Char) : Prop := stripLine raw = [] ∨ (stripLine raw).head? = some '#'

instance instDecidableIdle (raw : List Char) : Decidable (Idle raw) := inferInstanceAs (Decidable (_ ∨ _))

section
variable {py : PyStr} {raw raw' : List Char} {c t u : Criteria}

theorem readLine_of_idle (h : Idle raw) : readLine py raw = .skip := by
  unfold readLine
  exact if_pos h

theorem dropWhile_append_cons {p : Char → Bool} {d : Char} (hd : p d = false) (xs ys : List Char) :
    (xs ++ d :: ys).dropWhile p = xs.dropWhile p ++ d :: ys := by
  induction xs with
  | nil => exact List.dropWhile_cons_of_neg (by rw [hd]; exact Bool.false_ne_true)
  | cons x xs ih =>
    rw [List.cons_append, List.dropWhile_cons, List.dropWhile_cons]
    split_ifs
    · exact ih
    · rfl

/-- Stripping stops at a character that is no blank. -/
theorem stripChars_cons {d : Char} (hd : isSpace d = false) {b : List Char} (hb : Blank b) (rest : List Char) :
    ∃ rest', stripChars (b ++ d :: rest) = d :: rest' := by
  unfold stripChars
  rw [List.dropWhile_append_of_pos hb, List.dropWhile_cons_of_neg (by rw [hd]; exact Bool.false_ne_true),
    List.reverse_cons, dropWhile_append_cons hd, List.reverse_append]
  exact ⟨_, rfl⟩

/-- A line that begins with a bracket, but for blanks, is stripped to one that does. -/
theorem stripLine_of_bracket (h : (raw.dropWhile isBlank).head? = some '[') : ∃ rest, stripLine raw = '[' :: rest := by
  obtain ⟨rest, hrest⟩ := List.head?_eq_some_iff.mp h
  have hraw : raw = raw.takeWhile isBlank ++ '[' :: rest := by rw [← hrest, List.takeWhile_append_dropWhile]
  have hblank : Blank (raw.takeWhile isBlank) := by
    intro d hd
    rcases isBlank_iff.mp (isBlank_of_mem_takeWhile hd) with rfl | rfl <;> decide
  unfold stripLine List.rdropWhile
  rw [hraw, List.reverse_append, List.reverse_cons, List.append_assoc, List.singleton_append,
    dropWhile_append_cons (by decide), List.reverse_append, List.reverse_cons, List.reverse_reverse, List.append_assoc]
  exact stripChars_cons (by decide) hblank _

theorem bracket_not_mem_name (key : Key) : '[' ∉ key.name.toList := by
  cases key with
  | range k => cases k <;> decide
  | text k => cases k <;> decide
  | sma k => cases k <;> decide
  | etf => decide
  | near52wHigh => decide
  | minHistory => decide
  | limit => decide

/-- A line that begins with a bracket has no key. -/
theorem readLine_of_bracket (py : PyStr) (h : (raw.dropWhile isBlank).head? = some '[') : ∃ error, readLine py raw = .bad error := by
  obtain ⟨rest, hline⟩ := stripLine_of_bracket h
  unfold readLine
  dsimp only
  rw [hline, if_neg (by rintro (hnil | hhead) <;> cases ‹_›)]
  by_cases hcolon : ':' ∉ '[' :: rest
  · rw [if_pos hcolon]
    exact ⟨_, rfl⟩
  · have hkey : keyOf (py.lower (stripChars (('[' :: rest).takeWhile fun c => decide (c ≠ ':')))) = none := by
      obtain ⟨name, hname⟩ := stripChars_cons (d := '[') (by decide) (List.forall_mem_nil _)
        (rest.takeWhile fun c => decide (c ≠ ':'))
      rw [List.takeWhile_cons_of_pos (by decide), ← List.nil_append ('[' :: _), hname]
      cases hfound : keyOf (py.lower ('[' :: name)) with
      | none => rfl
      | some key =>
        have hmem : '[' ∈ py.lower ('[' :: name) := py.lower_keeps _ '[' List.mem_cons_self (by decide) (by decide)
        rw [keyOf_eq_some hfound] at hmem
        exact absurd hmem (bracket_not_mem_name key)
    rw [if_neg hcolon, hkey]
    exact ⟨_, rfl⟩

/-- A line that is added begins no block. -/
theorem no_bracket_of_addLine (h : addLine py c raw = some t) : (raw.dropWhile isBlank).head? ≠ some '[' := by
  intro hhead
  obtain ⟨error, hbad⟩ := readLine_of_bracket py hhead
  unfold addLine at h
  rw [hbad] at h
  cases h

/-! ### The order of the lines -/

theorem addWindow_comm (bucket : List ℚ) (a b : ℚ) :
    addWindow (addWindow bucket a) b = addWindow (addWindow bucket b) a := by
  have hperm (a b : ℚ) : (addWindow (addWindow bucket a) b).Perm (bucket ++ [a, b]) := by
    refine (addWindow_perm _ b).trans (((addWindow_perm bucket a).append_right [b]).trans (.of_eq ?_))
    rw [List.append_assoc, List.singleton_append]
  refine List.Perm.eq_of_pairwise (fun x y _ _ hxy hyx => le_antisymm hxy hyx) (ordered_addWindow _ b)
    (ordered_addWindow _ a) ((hperm a b).trans (.trans ?_ (hperm b a).symm))
  exact (List.Perm.swap b a []).append_left bucket

theorem set_comm (c : Criteria) {key k : Key} (value : key.Value) (v : k.Value) (h : k ≠ key) :
    (c.set key value).set k v = (c.set k v).set key value :=
  (Function.update_comm h ..).symm

theorem set_set (c : Criteria) {key : Key} (value v : key.Value) : (c.set key value).set key v = c.set key v :=
  Function.update_idem ..

/-- Two windows of one key commute. -/
theorem addLine_comm_sma {k : SmaKey} {val val' : List Char} {windows windows' : List ℚ}
    (hread : readLine py raw = .entry (.sma k) val) (hread' : readLine py raw' = .entry (.sma k) val')
    (hvalue : readKey py (.sma k) val (c (.sma k)) = .ok (.ok windows))
    (hvalue' : readKey py (.sma k) val' (some windows) = .ok (.ok windows')) :
    ∃ t', addLine py c raw' = some t' ∧ addLine py t' raw = some (c.set (.sma k) windows') := by
  have hscalar : (Key.sma k).repeatable ≠ false := fun h => nomatch h
  obtain ⟨num, w, hnum, hw, hnew, rfl⟩ := readKey_sma.mp hvalue
  obtain ⟨num', w', hnum', hw', hnew', rfl⟩ := readKey_sma.mp hvalue'
  rw [Option.getD_some, mem_addWindow, not_or] at hnew'
  refine ⟨_, addLine_set hread' (fun h => hscalar h.1) (readKey_sma.mpr ⟨num', w', hnum', hw', hnew'.1, rfl⟩), ?_⟩
  have hback := addLine_set (c := c.set (.sma k) (addWindow ((c (.sma k)).getD []) w')) hread (fun h => hscalar h.1)
    (readKey_sma.mpr ⟨num, w, hnum, hw, ?_, rfl⟩)
  · rw [hback, set_set, set_same, Option.getD_some, Option.getD_some, addWindow_comm]
  · rw [set_same, Option.getD_some, mem_addWindow, not_or]
    exact ⟨hnew, fun heq => hnew'.2 heq.symm⟩

/-- **Two lines commute.** -/
theorem addLine_comm (h : addLine py c raw = some t) (h' : addLine py t raw' = some u) :
    ∃ t', addLine py c raw' = some t' ∧ addLine py t' raw = some u := by
  rcases addLine_cases h with ⟨hskip, rfl⟩ | ⟨key, val, value, hread, hnew, hvalue, rfl⟩
  · exact ⟨u, h', addLine_skip hskip⟩
  rcases addLine_cases h' with ⟨hskip, rfl⟩ | ⟨key', val', value', hread', hnew', hvalue', rfl⟩
  · exact ⟨c, addLine_skip hskip, h⟩
  rcases eq_or_ne key' key with rfl | hne
  · rw [set_same] at hnew' hvalue'
    rw [set_set]
    cases key' with
    | sma k => exact addLine_comm_sma hread hread' hvalue hvalue'
    | range k => exact absurd ⟨rfl, rfl⟩ hnew'
    | text k => exact absurd ⟨rfl, rfl⟩ hnew'
    | etf => exact absurd ⟨rfl, rfl⟩ hnew'
    | near52wHigh => exact absurd ⟨rfl, rfl⟩ hnew'
    | minHistory => exact absurd ⟨rfl, rfl⟩ hnew'
    | limit => exact absurd ⟨rfl, rfl⟩ hnew'
  · rw [set_of_ne _ _ hne] at hnew' hvalue'
    refine ⟨_, addLine_set hread' hnew' hvalue', ?_⟩
    have hkeep := set_of_ne c value' hne.symm
    rw [← hkeep] at hnew hvalue
    rw [addLine_set hread hnew hvalue, set_comm c value' value hne.symm]

end

/-! ### The caps -/

theorem utf8Length_append (a b : List Char) : utf8Length (a ++ b) = utf8Length a + utf8Length b := by
  unfold utf8Length
  rw [List.map_append, List.sum_append_nat]

/-- The bytes of a text are those of its lines, and one for the end of each but the last. -/
theorem utf8Length_lines (s : List Char) : utf8Length s + 1 = ((s.splitOn '\n').map fun l => utf8Length l + 1).sum := by
  obtain ⟨first, later, hfirst, hlater, rfl⟩ := exists_begun '\n' s
  have hsplit := splitOn_lines (List.forall_mem_nil _) hfirst hlater
  have hbegun : ∀ ls : List (List Char), utf8Length (begun '\n' ls) = (ls.map fun l => utf8Length l + 1).sum := by
    intro ls
    induction ls with
    | nil => rfl
    | cons l ls ih =>
      rw [begun_cons, ← List.singleton_append, utf8Length_append, utf8Length_append, ih, List.map_cons, List.sum_cons]
      change 1 + _ = _
      omega
  rw [show (first ++ begun '\n' later).splitOn '\n' = first :: later from hsplit, utf8Length_append, hbegun, List.map_cons,
    List.sum_cons]
  omega

/-- **The lines of a block in another order** are as many, and have as many bytes. -/
theorem caps_of_perm {s s' : List Char} (h : (s.splitOn '\n').Perm (s'.splitOn '\n')) :
    utf8Length s = utf8Length s' ∧ (s.splitOn '\n').length = (s'.splitOn '\n').length := by
  refine ⟨?_, h.length_eq⟩
  have hbytes := (h.map fun l => utf8Length l + 1).sum_nat
  rw [← utf8Length_lines, ← utf8Length_lines] at hbytes
  exact Nat.add_right_cancel hbytes

/-- The caps that the lines to fold are within. -/
theorem caps_of_bodyLines {text : List Char} {lines : List (List Char)} (h : bodyLines text = some lines) :
    ∃ body, (extractBlock (stripBom text)).body = some body ∧ lines = body.splitOn '\n' ∧
      utf8Length body ≤ maxBlockBytes ∧ (body.splitOn '\n').length ≤ maxBlockLines := by
  obtain ⟨body, hbody, h⟩ := Option.bind_eq_some_iff.mp h
  split_ifs at h with hcaps
  rw [not_or, not_lt, not_lt] at hcaps
  cases h
  exact ⟨body, hbody, rfl, hcaps⟩

/-- A line that is added with others is added to some criteria. -/
theorem exists_addLine {py : PyStr} {lines : List (List Char)} {c c' : Criteria} (h : follow (addLine py) lines c = some c')
    {raw : List Char} (hraw : raw ∈ lines) : ∃ d d', addLine py d raw = some d' := by
  induction lines generalizing c with
  | nil => cases hraw
  | cons first rest ih =>
    obtain ⟨d, hd, hrest⟩ := Option.bind_eq_some_iff.mp h
    rcases List.mem_cons.mp hraw with rfl | hmem
    · exact ⟨c, d, hd⟩
    · exact ih hrest hmem

/-! ### The text -/

/-- **Criteria are told by the set of lines.** A text whose block has the lines of one that is accepted, in any order, with
blank lines and comments that do not close it, and with anything around it that opens no other block, is parsed to the
same criteria. -/
theorem parse_of_layout (py : PyStr) (text text' : List Char) (r : ScreenCriteria) (lines inserted : List (List Char))
    (h : parse py text = .ok (some r, [])) (hlines : bodyLines text = some lines) (l : Layout (stripBom text'))
    (hperm : (l.body.splitOn '\n').Perm (lines ++ inserted)) (hidle : ∀ raw ∈ inserted, Idle raw)
    (hcloses : ∀ raw ∈ inserted, closing raw = none)
    (hcaps : inserted ≠ [] → utf8Length l.body ≤ maxBlockBytes ∧ (l.body.splitOn '\n').length ≤ maxBlockLines) :
    parse py text' = .ok (some r, []) := by
  obtain ⟨-, lines', c, hlines', hfollow, rfl⟩ := parse_some_iff.mp h
  rw [hlines] at hlines'
  cases hlines'
  obtain ⟨body, hbody, rfl, hbytes, hmany⟩ := caps_of_bodyLines hlines
  have hplain : l.Plain := by
    constructor
    · intro raw hraw
      rcases List.mem_append.mp (hperm.mem_iff.mp hraw) with hmem | hmem
      · obtain ⟨d, d', hadd⟩ := exists_addLine hfollow hmem
        exact no_bracket_of_addLine hadd
      · have hadd : addLine py .empty raw = some .empty := addLine_skip (readLine_of_idle (hidle raw hmem))
        exact no_bracket_of_addLine hadd
    · intro raw hraw
      rcases List.mem_append.mp (hperm.mem_iff.mp hraw) with hmem | hmem
      · exact closing_of_body hbody hmem
      · exact hcloses raw hmem
  have hwithin : utf8Length l.body ≤ maxBlockBytes ∧ (l.body.splitOn '\n').length ≤ maxBlockLines := by
    rcases eq_or_ne inserted [] with rfl | hne
    · rw [List.append_nil] at hperm
      obtain ⟨hlen, hcount⟩ := caps_of_perm hperm
      rw [hlen, hcount]
      exact ⟨hbytes, hmany⟩
    · exact hcaps hne
  refine parse_some_iff.mpr ⟨rfl, l.body.splitOn '\n', c, ?_, ?_, rfl⟩
  · unfold bodyLines
    rw [Layout.body_eq hplain, Option.bind_some, if_neg (not_or.mpr ⟨not_lt.mpr hwithin.1, not_lt.mpr hwithin.2⟩)]
  · refine @follow_perm _ _ (addLine py) addLine_comm _ _ hperm.symm _ _ ?_
    have hfilter := @follow_filter _ _ (addLine py) (fun raw => !decide (Idle raw))
      fun d raw hraw => addLine_skip (readLine_of_idle (of_decide_eq_true (Bool.not_eq_eq_eq_not.mp hraw)))
    have hnone : inserted.filter (fun raw => !decide (Idle raw)) = [] :=
      List.filter_eq_nil_iff.mpr fun raw hraw => by simpa using hidle raw hraw
    rw [← hfilter, List.filter_append, hnone, List.append_nil, hfilter]
    exact hfollow

/-- Two lines the other way round, a comment between them, and the block behind a note. -/
theorem parse_of_layout_sample : ∃ r,
    parse asciiStr "[screen]\nprice: 5..9\nlimit: 10\n[/screen]".toList = .ok (some r, []) ∧
      parse asciiStr "note\n [Screen]limit: 10\n# all\n\nprice: 5..9\n[/screen] end".toList = .ok (some r, []) := by
  have hok : (accepted (parse asciiStr "[screen]\nprice: 5..9\nlimit: 10\n[/screen]".toList)).isSome = true := by
    decide +kernel
  obtain ⟨r, hr⟩ := Option.isSome_iff_exists.mp hok
  have hparse := accepted_eq_some hr
  exact ⟨r, hparse, parse_of_layout asciiStr "[screen]\nprice: 5..9\nlimit: 10\n[/screen]".toList
      "note\n [Screen]limit: 10\n# all\n\nprice: 5..9\n[/screen] end".toList r
      [[], "price: 5..9".toList, "limit: 10".toList, []] ["# all".toList] hparse (by decide)
      { before := "note\n ".toList
        opening := "[Screen]".toList
        body := "limit: 10\n# all\n\nprice: 5..9\n".toList
        close := "[/screen]".toList
        behind := " end".toList
        text_eq := by decide
        opens := by unfold Spells; decide
        closes := by unfold Spells; decide
        line := by unfold LineStart; decide
        alone := by decide } (by decide) (by decide) (by decide) (by decide)⟩

/-- **A comment may close the block**: what is behind its closing tag is not read. -/
theorem not_parse_of_layout : ¬ ∀ (py : PyStr) (text text' : List Char) (r : ScreenCriteria)
    (lines inserted : List (List Char)), parse py text = .ok (some r, []) → bodyLines text = some lines →
    ∀ l : Layout (stripBom text'), (l.body.splitOn '\n').Perm (lines ++ inserted) → (∀ raw ∈ inserted, Idle raw) →
    (inserted ≠ [] → utf8Length l.body ≤ maxBlockBytes ∧ (l.body.splitOn '\n').length ≤ maxBlockLines) →
    parse py text' = .ok (some r, []) := by
  intro h
  have hok : (accepted (parse asciiStr "[screen]\nprice: 5..9\nlimit: 10\n[/screen]".toList)).map
      ScreenCriteria.limit = some 10 := by decide +kernel
  have hcut : (accepted (parse asciiStr
      "[screen]\nprice: 5..9\n# [/screen]\nlimit: 10\n[/screen]".toList)).map ScreenCriteria.limit = some 50 := by
    decide +kernel
  obtain ⟨r, hr, hlimit⟩ := Option.map_eq_some_iff.mp hok
  have hsame := h asciiStr _ "[screen]\nprice: 5..9\n# [/screen]\nlimit: 10\n[/screen]".toList r
      [[], "price: 5..9".toList, "limit: 10".toList, []] ["# [/screen]".toList] (accepted_eq_some hr) (by decide)
      { before := []
        opening := "[screen]".toList
        body := "\nprice: 5..9\n# [/screen]\nlimit: 10\n".toList
        close := "[/screen]".toList
        behind := []
        text_eq := by decide
        opens := by unfold Spells; decide
        closes := by unfold Spells; decide
        line := by unfold LineStart; decide
        alone := by decide } (by decide) (by decide) (by decide)
  rw [hsame] at hcut
  have hfifty : r.limit = 50 := Option.some.inj hcut
  rw [hlimit] at hfifty
  exact absurd hfifty (by decide)

end StratTrader.Screener
