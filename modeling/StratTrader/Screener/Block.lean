import StratTrader.Foundation.Patterns

/-!
# The screening block of a description

`apps/screener/criteria.py`, `extract_block`: a description may hold one `[screen]` block, whose opening
tag begins a line. The body of the block is returned with the number of its first line, or the error that
names the line of a second opening tag or of one that is not closed.

## What is proved

* `mem_openings`: the opening tags that are found are those that only blanks keep from the beginning of a line.
* `blockOf_body`, `extractBlock_none`: the block that is located is the one whose body is returned, and there is none
  without an error when no opening tag begins a line.

## Honest scope

A text is a list of characters. The criteria in the body are not read here.
-/

namespace StratTrader.Screener

open StratTrader.Foundation

/-! ### Patterns -/

/-- A character of a pattern with `re.IGNORECASE`, which is written in lower case. Of the letters of `screen` only the
first has a case beyond ASCII. -/
def foldsTo (p c : Char) : Bool := decide (c.toLower = p) || (decide (p = 's') && decide (c = 'ſ'))

/-- `[ \t]`. -/
def isBlank (c : Char) : Bool := decide (c = ' ') || decide (c = '\t')

/-- `^`, of the text before, from its end. -/
def beginsLine : List Char → Bool
  | [] => true
  | c :: _ => decide (c = '\n')

/-- A match of `_OPEN_RE`. -/
structure Opening where
  /-- What is before the match, from its end. -/
  start : List Char
  /-- What is before the bracket, from its end. -/
  before : List Char
  /-- The text from the bracket on. -/
  text : List Char
  /-- `start.end()`: the text behind the tag. -/
  behind : List Char
  deriving DecidableEq

/-- `[screen]`. -/
def openTag : List Char := "[screen]".toList

/-- `[/screen]`. -/
def closeTag : List Char := "[/screen]".toList

/-- An opening tag behind blanks. -/
def tagBehind (start before s : List Char) : Option Opening :=
  (eat foldsTo openTag s).map fun behind => ⟨start, before, s, behind⟩

/-- `_OPEN_RE`, at a place of the text. -/
def openingAt (before s : List Char) : Option Opening :=
  if beginsLine before then tagBehind before ((s.takeWhile isBlank).reverse ++ before) (s.dropWhile isBlank) else none

/-- `_OPEN_RE.finditer`. No match has a line break, so that none begins within another one. -/
def openings (before : List Char) : List Char → List Opening
  | [] => (openingAt before []).toList
  | c :: cs => (openingAt before (c :: cs)).toList ++ openings (c :: before) cs

/-- `_CLOSE_RE.search`. -/
def closing (s : List Char) : Option (List Char × List Char) := upTo foldsTo closeTag s

/-! ### The block -/

/-- An error of a line. -/
structure LineError where
  /-- `line`. -/
  line : ℕ
  /-- `error`. -/
  error : String
  deriving DecidableEq

/-- What `extract_block` returns. -/
structure Extracted where
  /-- `body`. -/
  body : Option (List Char)
  /-- `first_line`. -/
  firstLine : ℕ
  /-- `errors`. -/
  errors : List LineError
  deriving DecidableEq

/-- `_line_of`, of the text before. -/
def lineOf (before : List Char) : ℕ := before.count '\n' + 1

/-- `extract_block`. -/
def extractBlock (text : List Char) : Extracted :=
  match openings [] text with
  | [] => ⟨none, 0, []⟩
  | _ :: second :: _ =>
    ⟨none, 0,
      [⟨lineOf second.start, "A description may contain only one [screen] block (duplicate_block)."⟩]⟩
  | [start] =>
    match closing start.behind with
    | none => ⟨none, 0, [⟨lineOf start.start, "Unclosed [screen] block — add a [/screen] line to close it."⟩]⟩
    | some (body, _) => ⟨some body, lineOf (text.take (text.length - start.behind.length)), []⟩

/-- Where the block is whose body is returned: the text before its opening tag, and behind its closing one. -/
def blockOf (text : List Char) : Option (List Char × List Char) :=
  match openings [] text with
  | [start] => (closing start.behind).map fun (_, behind) => (start.before.reverse, behind)
  | _ => none

/-! ### What is found -/

/-- Only blanks are between the beginning of the line and here, of the text before, from its end. -/
def LineStart (before : List Char) : Prop := beginsLine (before.dropWhile isBlank) = true

/-- A text is an opening of another one. -/
structure IsOpening (text : List Char) (o : Opening) : Prop where
  /-- It is of the text. -/
  text_eq : text = o.before.reverse ++ o.text
  /-- The match begins with the blanks before it. -/
  start_eq : o.start = o.before.dropWhile isBlank
  /-- It begins a line. -/
  line : LineStart o.before
  /-- It is an opening tag. -/
  tag : eat foldsTo openTag o.text = some o.behind

/-- What is found is found at some place of the text. -/
theorem mem_openings_iff {before s : List Char} {o : Opening} :
    o ∈ openings before s ↔ ∃ p r, s = p ++ r ∧ openingAt (p.reverse ++ before) r = some o := by
  induction s generalizing before with
  | nil =>
    unfold openings
    rw [Option.mem_toList]
    constructor
    · intro h
      exact ⟨[], [], rfl, h⟩
    · rintro ⟨p, r, hs, h⟩
      obtain ⟨rfl, rfl⟩ := List.nil_eq_append_iff.mp hs
      exact h
  | cons c cs ih =>
    unfold openings
    rw [List.mem_append, Option.mem_toList, ih]
    constructor
    · rintro (h | ⟨p, r, rfl, h⟩)
      · exact ⟨[], c :: cs, rfl, h⟩
      · refine ⟨c :: p, r, rfl, ?_⟩
        rwa [List.reverse_cons, List.append_assoc]
    · rintro ⟨p, r, hs, h⟩
      cases p with
      | nil =>
        cases hs
        exact Or.inl h
      | cons d p =>
        obtain ⟨rfl, rfl⟩ := List.cons.inj hs
        refine Or.inr ⟨p, r, rfl, ?_⟩
        rwa [List.reverse_cons, List.append_assoc] at h

theorem openingAt_eq_some {start s : List Char} {o : Opening} (h : openingAt start s = some o) :
    beginsLine start = true ∧ o.start = start ∧ o.before = (s.takeWhile isBlank).reverse ++ start ∧
      o.text = s.dropWhile isBlank ∧ eat foldsTo openTag o.text = some o.behind := by
  unfold openingAt at h
  split_ifs at h with hline
  obtain ⟨behind, heat, rfl⟩ := Option.map_eq_some_iff.mp h
  exact ⟨hline, rfl, rfl, rfl, heat⟩

theorem dropWhile_isBlank_of_beginsLine {s : List Char} (h : beginsLine s = true) : s.dropWhile isBlank = s := by
  cases s with
  | nil => rfl
  | cons c cs =>
    have hc : c = '\n' := of_decide_eq_true h
    rw [hc]
    rfl

theorem isBlank_iff {c : Char} : isBlank c = true ↔ c = ' ' ∨ c = '\t' := by
  unfold isBlank
  rw [Bool.or_eq_true, decide_eq_true_iff, decide_eq_true_iff]

/-- A tag does not begin with a blank. -/
theorem dropWhile_isBlank_of_eat {s behind : List Char} (h : eat foldsTo openTag s = some behind) :
    s.takeWhile isBlank = [] ∧ s.dropWhile isBlank = s := by
  cases s with
  | nil => cases h
  | cons c cs =>
    have hc : isBlank c = false := by
      by_contra hblank
      rcases isBlank_iff.mp (by simpa using hblank) with rfl | rfl <;> cases h
    rw [List.takeWhile_cons, List.dropWhile_cons, hc]
    exact ⟨rfl, rfl⟩

theorem isBlank_of_mem_takeWhile {s : List Char} {c : Char} (h : c ∈ s.takeWhile isBlank) : isBlank c = true :=
  List.mem_takeWhile_imp h

/-- **What is found** are the opening tags that only blanks keep from the beginning of their line. -/
theorem mem_openings {text : List Char} {o : Opening} : o ∈ openings [] text ↔ IsOpening text o := by
  rw [mem_openings_iff]
  constructor
  · rintro ⟨p, r, rfl, h⟩
    rw [List.append_nil] at h
    obtain ⟨hline, hstart, hbefore, htext, heat⟩ := openingAt_eq_some h
    have hdrop : o.before.dropWhile isBlank = o.start := by
      rw [hbefore, List.dropWhile_append_of_pos, hstart, dropWhile_isBlank_of_beginsLine hline]
      intro c hc
      exact isBlank_of_mem_takeWhile (List.mem_reverse.mp hc)
    refine ⟨?_, hdrop.symm, ?_, heat⟩
    · rw [hbefore, htext, List.reverse_append, List.reverse_reverse, List.reverse_reverse, List.append_assoc,
        List.takeWhile_append_dropWhile]
    · unfold LineStart
      rwa [hdrop, hstart]
  · rintro ⟨htext, hstart, hline, heat⟩
    obtain ⟨hno, hkeep⟩ := dropWhile_isBlank_of_eat heat
    have hsplit : o.before.takeWhile isBlank ++ o.start = o.before := by
      rw [hstart, List.takeWhile_append_dropWhile]
    have hblanks : ∀ c ∈ (o.before.takeWhile isBlank).reverse, isBlank c = true := fun c hc =>
      isBlank_of_mem_takeWhile (List.mem_reverse.mp hc)
    refine ⟨o.start.reverse, (o.before.takeWhile isBlank).reverse ++ o.text, ?_, ?_⟩
    · rw [← List.append_assoc, ← List.reverse_append, hsplit]
      exact htext
    · rw [List.reverse_reverse, List.append_nil]
      unfold openingAt
      rw [if_pos (show beginsLine o.start = true by rw [hstart]; exact hline), List.takeWhile_append_of_pos hblanks,
        List.dropWhile_append_of_pos hblanks, hno, hkeep, List.append_nil, List.reverse_reverse, hsplit]
      unfold tagBehind
      rw [heat]
      rfl

/-! ### The block -/

/-- The body that is returned is that of the block. -/
theorem blockOf_body {text body : List Char} (h : (extractBlock text).body = some body) :
    ∃ before opening close behind, blockOf text = some (before, behind) ∧ Spells foldsTo openTag opening ∧
      Spells foldsTo closeTag close ∧ text = before ++ opening ++ body ++ close ++ behind := by
  unfold extractBlock blockOf at *
  cases hopen : openings [] text with
  | nil =>
    rw [hopen] at h
    cases h
  | cons o os =>
    cases os with
    | cons _ _ =>
      rw [hopen] at h
      cases h
    | nil =>
      rw [hopen] at h
      dsimp only at h ⊢
      have ho : IsOpening text o := mem_openings.mp (by rw [hopen]; exact List.mem_singleton.mpr rfl)
      cases hclose : closing o.behind with
      | none =>
        rw [hclose] at h
        cases h
      | some found =>
        obtain ⟨a, behind⟩ := found
        rw [hclose] at h
        cases h
        obtain ⟨opening, hopening, htag⟩ := eat_eq_some.mp ho.tag
        obtain ⟨close, hcloses, hbehind⟩ := upTo_eq_some hclose
        refine ⟨_, opening, close, behind, rfl, hopening, hcloses, ?_⟩
        rw [ho.text_eq, htag, hbehind]
        simp only [List.append_assoc]

/-- Where there is an error there is no body. -/
theorem extractBlock_body_none {text : List Char} (h : (extractBlock text).errors ≠ []) :
    (extractBlock text).body = none := by
  unfold extractBlock at h ⊢
  cases hopen : openings [] text with
  | nil => rfl
  | cons o os =>
    rw [hopen] at h
    cases os with
    | cons _ _ => rfl
    | nil =>
      dsimp only at h ⊢
      cases hclose : closing o.behind with
      | none => rfl
      | some found =>
        rw [hclose] at h
        exact absurd rfl h

/-- No body and no error: no opening tag begins a line. -/
theorem extractBlock_none {text : List Char} (hbody : (extractBlock text).body = none)
    (herrors : (extractBlock text).errors = []) : openings [] text = [] := by
  unfold extractBlock at hbody herrors
  cases hopen : openings [] text with
  | nil => rfl
  | cons o os =>
    rw [hopen] at hbody herrors
    cases os with
    | cons _ _ => cases herrors
    | nil =>
      dsimp only at hbody herrors
      cases hclose : closing o.behind with
      | none =>
        rw [hclose] at herrors
        cases herrors
      | some found =>
        rw [hclose] at hbody
        cases hbody

end StratTrader.Screener
