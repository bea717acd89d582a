import StratTrader.Screener.Criteria

/-!
# What escapes from the parser of criteria

`[KMBT]` with `re.IGNORECASE` also matches the Kelvin sign, which is no key of `_SUFFIX`. The `KeyError` is not caught.

## What is proved

* `parseNumber_raises`, `applyKey_raises`: what is raised comes from a numeral with that suffix.
* `parse_returns_iff`: a text is parsed without an exception exactly if no line of its block that is folded has one.

## Honest scope

A text is a list of Unicode characters.
-/

namespace StratTrader.Screener

open StratTrader.Foundation

/-! ### Exceptions -/

section
variable {ε α β : Type}

/-- An exception is raised. -/
def Raises (x : Except ε α) : Prop := ∃ e, x = .error e

theorem raises_ok {a : α} : ¬ Raises (Except.ok a : Except ε α) := fun ⟨_, h⟩ => nomatch h

theorem raises_bind {x : Except ε α} {f : α → Except ε β} :
    Raises (x >>= f) ↔ Raises x ∨ ∃ a, x = .ok a ∧ Raises (f a) := by
  cases x with
  | error e => exact iff_of_true ⟨e, rfl⟩ (.inl ⟨e, rfl⟩)
  | ok a =>
    constructor
    · exact fun h => .inr ⟨a, rfl, h⟩
    · rintro (h | ⟨a', ha, h⟩)
      · exact absurd h raises_ok
      · cases ha
        exact h

theorem raises_bind_of_forall {x : Except ε α} {f : α → Except ε β} {P : Prop} (h : ∀ a, Raises (f a) ↔ P) :
    Raises (x >>= f) ↔ Raises x ∨ P := by
  cases x with
  | error e => exact iff_of_true ⟨e, rfl⟩ (.inl ⟨e, rfl⟩)
  | ok a => exact (h a).trans (or_iff_right raises_ok).symm

/-- What is made of a value raises nothing. -/
theorem raises_return {x : Except ε α} {g : α → β} : Raises (x >>= fun a => Except.ok (g a)) ↔ Raises x := by
  rw [raises_bind]
  refine or_iff_left ?_
  rintro ⟨a, -, h⟩
  exact raises_ok h

end

/-! ### Numbers -/

section
variable (py : PyStr)

/-- A numeral with the Kelvin sign as its suffix. -/
def Escapes (token : List Char) : Prop := ∃ m, matchNumber py token = some m ∧ m.suffix = some kelvin

variable {py} {token val : List Char}

theorem isSuffix_of_match {m : NumberMatch} {c : Char} (h : matchNumber py token = some m) (hc : m.suffix = some c) :
    isSuffix c = true := by
  unfold matchNumber at h
  dsimp only at h
  split_ifs at h with hwhole
  split at h
  · cases h
    cases hc
  · split_ifs at h with hsuffix
    cases h
    cases hc
    exact hsuffix
  · cases h

/-- Of the suffixes only the Kelvin sign has no factor. -/
theorem suffixFactor_raises {c : Char} (hc : isSuffix c = true) : Raises (suffixFactor (some c)) ↔ c = kelvin := by
  unfold suffixFactor
  dsimp only
  unfold isSuffix at hc
  rw [Bool.or_eq_true, decide_eq_true_iff, decide_eq_true_iff] at hc
  rcases hc with hc | rfl
  · have hall : ∀ u ∈ suffixTable.map Prod.fst, (suffixTable.lookup u).isSome = true := by decide
    obtain ⟨factor, hfactor⟩ := Option.isSome_iff_exists.mp (hall _ hc)
    rw [hfactor]
    refine iff_of_false raises_ok ?_
    rintro rfl
    exact absurd hc (by decide)
  · exact iff_of_true ⟨_, rfl⟩ rfl

/-- **What is raised comes from the Kelvin sign.** -/
theorem parseNumber_raises : Raises (parseNumber py token) ↔ Escapes py token := by
  unfold parseNumber Escapes
  cases hmatch : matchNumber py token with
  | none => exact iff_of_false raises_ok (fun ⟨m, h, _⟩ => nomatch h)
  | some m =>
    refine raises_return.trans ?_
    cases hsuffix : m.suffix with
    | none =>
      refine iff_of_false raises_ok ?_
      rintro ⟨m', hm, hc⟩
      cases hm
      rw [hsuffix] at hc
      cases hc
    | some c =>
      rw [suffixFactor_raises (isSuffix_of_match hmatch hsuffix)]
      constructor
      · rintro rfl
        exact ⟨m, rfl, hsuffix⟩
      · rintro ⟨m', hm, hc⟩
        cases hm
        exact Option.some.inj (hsuffix.symm.trans hc)

/-! ### Values -/

/-- The tokens of a value that are read as numbers. -/
def numberTokens (key : Key) (val : List Char) : List (List Char) :=
  match key with
  | .range _ =>
    match partitionAt "..".toList val with
    | some (loS, hiS) => [stripChars loS, stripChars hiS]
    | none =>
      match val with
      | '>' :: '=' :: rest => [stripChars rest]
      | '<' :: '=' :: rest => [stripChars rest]
      | _ => []
  | .sma _ => [val]
  | .near52wHigh => [percentToken val]
  | .minHistory => [val]
  | .limit => [val]
  | _ => []

theorem parseRange_raises {k : RangeKey} :
    Raises (parseRange py val) ↔ ∃ token ∈ numberTokens (.range k) val, Escapes py token := by
  have hone {token : List Char} {g : Option ℚ → Except String Bounds} :
      Raises (parseNumber py token >>= fun num => Except.ok (g num)) ↔ ∃ t ∈ [token], Escapes py t := by
    rw [raises_return, parseNumber_raises]
    simp only [List.mem_singleton, exists_eq_left]
  unfold parseRange numberTokens
  cases partitionAt "..".toList val with
  | some parts =>
    obtain ⟨loS, hiS⟩ := parts
    have hboth : Raises (parseNumber py (stripChars loS) >>= fun lo => parseNumber py (stripChars hiS) >>= fun hi =>
        Except.ok (betweenOf py val loS hiS lo hi)) ↔
        Escapes py (stripChars loS) ∨ Escapes py (stripChars hiS) := by
      rw [raises_bind_of_forall fun lo => raises_return.trans parseNumber_raises, parseNumber_raises]
    refine hboth.trans ?_
    simp only [List.mem_cons, List.not_mem_nil, or_false, exists_eq_or_imp, exists_eq_left]
  | none =>
    have hnone (r : Except String Bounds) : Raises (Except.ok r : Except Raised _) ↔
        ∃ token ∈ ([] : List (List Char)), Escapes py token :=
      iff_of_false raises_ok fun ⟨_, h, _⟩ => nomatch h
    dsimp only
    split
    case h_1 => exact hone
    case h_2 => exact hone
    case h_3 rest hno =>
      split
      case h_1 r heq => exact absurd (List.cons.inj heq).2 (hno r)
      case h_2 r heq => exact absurd (List.cons.inj heq).1 (by decide)
      case h_3 => exact hnone _
    case h_4 rest hno =>
      split
      case h_1 r heq => exact absurd (List.cons.inj heq).1 (by decide)
      case h_2 r heq => exact absurd (List.cons.inj heq).2 (hno r)
      case h_3 => exact hnone _
    case h_5 hge hle hgt hlt =>
      split
      case h_1 r => exact absurd rfl (hge r)
      case h_2 r => exact absurd rfl (hle r)
      case h_3 => exact hnone _

/-- **What a line raises** comes from a number that is read from its value. -/
theorem applyKey_raises {key : Key} {c : Criteria} :
    Raises (applyKey py key val c) ↔ ∃ token ∈ numberTokens key val, Escapes py token := by
  have hone {α : Type} {token : List Char} {g : Option ℚ → α} :
      Raises (parseNumber py token >>= fun num => Except.ok (g num)) ↔ ∃ t ∈ [token], Escapes py t := by
    rw [raises_return, parseNumber_raises]
    simp only [List.mem_singleton, exists_eq_left]
  cases key with
  | range k => exact raises_return.trans parseRange_raises
  | text k => exact iff_of_false raises_ok fun ⟨_, h, _⟩ => nomatch h
  | etf => exact iff_of_false raises_ok fun ⟨_, h, _⟩ => nomatch h
  | sma k => exact hone
  | near52wHigh => exact hone
  | minHistory => exact hone
  | limit => exact hone

/-! ### Lines -/

/-- A line that is folded has a number with the Kelvin sign as its suffix. -/
def EscapesLine (py : PyStr) (raw : List Char) : Prop :=
  ∃ key val, readLine py raw = .entry key val ∧ ∃ token ∈ numberTokens key val, Escapes py token

/-- A line repeats a key that may be given once. -/
def Repeats (py : PyStr) (seen : Key → Prop) (raw : List Char) : Prop :=
  ∃ key val, readLine py raw = .entry key val ∧ key.repeatable = false ∧ seen key

/-- The key of a line, if it may be given once. -/
def Gives (py : PyStr) (raw : List Char) (key : Key) : Prop :=
  key.repeatable = false ∧ ∃ val, readLine py raw = .entry key val

section
variable {lineno : ℕ} {raw : List Char} {st st' : BodyState}

theorem mem_see {key k : Key} : k ∈ (st.see key).seenScalar ↔ k ∈ st.seenScalar ∨ key.repeatable = false ∧ k = key := by
  unfold BodyState.see
  cases key.repeatable with
  | true =>
    rw [if_pos rfl]
    exact (or_iff_left fun h => nomatch h.1).symm
  | false =>
    rw [if_neg Bool.false_ne_true, List.mem_cons, or_comm]
    simp only [true_and]

/-- **A line raises an exception** exactly if it is folded and has such a number. -/
theorem bodyStep_raises : Raises (bodyStep py lineno raw st) ↔
    EscapesLine py raw ∧ ¬ Repeats py (· ∈ st.seenScalar) raw := by
  unfold bodyStep EscapesLine Repeats
  cases hread : readLine py raw with
  | skip => exact iff_of_false raises_ok fun ⟨⟨_, _, h, _⟩, _⟩ => nomatch h
  | bad error => exact iff_of_false raises_ok fun ⟨⟨_, _, h, _⟩, _⟩ => nomatch h
  | entry key val =>
    dsimp only
    split_ifs with hdup
    · exact iff_of_false raises_ok fun ⟨_, h⟩ => h ⟨key, val, rfl, hdup⟩
    · rw [raises_bind, applyKey_raises]
      constructor
      · rintro (h | ⟨r, -, h⟩)
        · refine ⟨⟨key, val, rfl, h⟩, ?_⟩
          rintro ⟨k, v, heq, h⟩
          cases heq
          exact hdup h
        · cases r with
          | error error => exact absurd h raises_ok
          | ok c => exact absurd h raises_ok
      · rintro ⟨⟨k, v, heq, h⟩, -⟩
        cases heq
        exact .inl h

/-- What is seen behind a line. -/
theorem seen_bodyStep (h : bodyStep py lineno raw st = .ok st') (key : Key) :
    key ∈ st'.seenScalar ↔ key ∈ st.seenScalar ∨ Gives py raw key := by
  unfold bodyStep at h
  unfold Gives
  cases hread : readLine py raw with
  | skip =>
    rw [hread] at h
    cases h
    exact (or_iff_left fun ⟨_, _, h⟩ => nomatch h).symm
  | bad error =>
    rw [hread] at h
    cases h
    exact (or_iff_left fun ⟨_, _, h⟩ => nomatch h).symm
  | entry k val =>
    rw [hread] at h
    dsimp only at h
    have hgives : (key.repeatable = false ∧ ∃ v, LineRead.entry k val = .entry key v) ↔
        k.repeatable = false ∧ key = k := by
      constructor
      · rintro ⟨hscalar, v, heq⟩
        cases heq
        exact ⟨hscalar, rfl⟩
      · rintro ⟨hscalar, rfl⟩
        exact ⟨hscalar, val, rfl⟩
    rw [hgives]
    split_ifs at h with hdup
    · cases h
      refine (or_iff_left_of_imp ?_).symm
      rintro ⟨-, rfl⟩
      exact hdup.2
    · cases happly : applyKey py k val st.criteria with
      | error e => rw [happly] at h; cases h
      | ok r =>
        rw [happly] at h
        cases r with
        | error error =>
          cases h
          exact mem_see
        | ok c =>
          cases h
          exact mem_see

/-- **The lines raise an exception** exactly if one of them does behind those before it. -/
theorem bodySteps_raises {lines : List (List Char)} : Raises (bodySteps py lineno lines st) ↔
    ∃ before raw behind, lines = before ++ raw :: behind ∧ EscapesLine py raw ∧
      ¬ Repeats py (fun key => key ∈ st.seenScalar ∨ ∃ r ∈ before, Gives py r key) raw := by
  induction lines generalizing lineno st with
  | nil =>
    refine iff_of_false raises_ok ?_
    rintro ⟨before, raw, behind, h, -⟩
    exact absurd h.symm (List.append_ne_nil_of_right_ne_nil _ (List.cons_ne_nil _ _))
  | cons first rest ih =>
    change Raises (bodyStep py lineno first st >>= fun st => bodySteps py (lineno + 1) rest st) ↔ _
    have hseen (before : List (List Char)) {st' : BodyState} (h : bodyStep py lineno first st = .ok st') :
        (fun key => key ∈ st'.seenScalar ∨ ∃ r ∈ before, Gives py r key) =
          fun key => key ∈ st.seenScalar ∨ ∃ r ∈ first :: before, Gives py r key := by
      funext key
      rw [seen_bodyStep h, or_assoc, List.exists_mem_cons_iff]
    rw [raises_bind]
    constructor
    · rintro (h | ⟨st', hst, h⟩)
      · obtain ⟨hescapes, hnot⟩ := bodyStep_raises.mp h
        refine ⟨[], first, rest, rfl, hescapes, ?_⟩
        simpa only [List.not_mem_nil, false_and, exists_false, or_false] using hnot
      · obtain ⟨before, raw, behind, rfl, hescapes, hnot⟩ := ih.mp h
        rw [hseen before hst] at hnot
        exact ⟨first :: before, raw, behind, rfl, hescapes, hnot⟩
    · rintro ⟨before, raw, behind, heq, hescapes, hnot⟩
      cases before with
      | nil =>
        cases heq
        refine .inl (bodyStep_raises.mpr ⟨hescapes, ?_⟩)
        simpa only [List.not_mem_nil, false_and, exists_false, or_false] using hnot
      | cons r before =>
        cases heq
        cases hst : bodyStep py lineno first st with
        | error e => exact .inl ⟨e, rfl⟩
        | ok st' =>
          rw [← hseen before hst] at hnot
          exact .inr ⟨st', rfl, ih.mpr ⟨before, raw, behind, rfl, hescapes, hnot⟩⟩

end

end

/-! ### The text -/

/-- The lines that are folded: those of the block, within the caps. -/
def bodyLines (text : List Char) : Option (List (List Char)) :=
  (extractBlock (stripBom text)).body.bind fun body =>
    if maxBlockBytes < utf8Length body ∨ maxBlockLines < (body.splitOn '\n').length then none
    else some (body.splitOn '\n')

theorem not_raises_iff {ε α : Type} {x : Except ε α} : ¬ Raises x ↔ ∃ a, x = .ok a := by
  cases x with
  | error e => exact iff_of_false (fun h => h ⟨e, rfl⟩) fun ⟨_, h⟩ => nomatch h
  | ok a => exact iff_of_true raises_ok ⟨a, rfl⟩

/-- A text that has no lines to fold raises nothing. -/
theorem parse_of_none {py : PyStr} {text : List Char} (h : bodyLines text = none) : ∃ r, parse py text = .ok r := by
  unfold bodyLines at h
  unfold parse
  dsimp only
  split_ifs with hempty herrors
  · exact ⟨_, rfl⟩
  · exact ⟨_, rfl⟩
  · cases hbody : (extractBlock (stripBom text)).body with
    | none => exact ⟨_, rfl⟩
    | some body =>
      rw [hbody, Option.bind_some] at h
      split_ifs at h with hcaps
      dsimp only
      split_ifs with hbytes hlines
      · exact ⟨_, rfl⟩
      · exact ⟨_, rfl⟩
      · exact absurd hcaps (not_or.mpr ⟨hbytes, hlines⟩)

/-- A text that has lines to fold is parsed by folding them. -/
theorem parse_of_some {py : PyStr} {text : List Char} {lines : List (List Char)} (h : bodyLines text = some lines) :
    parse py text = parseBody py lines (extractBlock (stripBom text)).firstLine := by
  obtain ⟨body, hbody, h⟩ := Option.bind_eq_some_iff.mp h
  split_ifs at h with hcaps
  cases h
  rw [not_or] at hcaps
  have hempty : text ≠ [] := by
    rintro rfl
    cases hbody
  have herrors : ¬ (extractBlock (stripBom text)).errors ≠ [] := fun herrors => by
    rw [extractBlock_body_none herrors] at hbody
    cases hbody
  unfold parse
  rw [if_neg hempty]
  dsimp only
  rw [if_neg herrors, hbody]
  dsimp only
  rw [if_neg hcaps.1, if_neg hcaps.2]

/-- **A text is parsed without an exception** exactly if no line of its block that is folded, and is no repetition, has a
number with the Kelvin sign as its suffix. -/
theorem parse_returns_iff (py : PyStr) (text : List Char) : (∃ r, parse py text = .ok r) ↔
    ∀ before raw behind, bodyLines text = some (before ++ raw :: behind) → EscapesLine py raw →
      Repeats py (fun key => ∃ r ∈ before, Gives py r key) raw := by
  cases hlines : bodyLines text with
  | none => exact iff_of_true (parse_of_none hlines) fun _ _ _ h => nomatch h
  | some lines =>
    rw [parse_of_some hlines]
    unfold parseBody
    rw [← not_raises_iff, raises_return, bodySteps_raises]
    simp only [Option.some.injEq, List.not_mem_nil, false_or, not_exists, not_and, not_not]

/-- `str` of ASCII texts. -/
def asciiStr : PyStr where
  decimal c := if c.isDigit then some (c.toNat - '0'.toNat) else none
  lower cs := cs.map Char.toLower
  upper cs := cs.map Char.toUpper
  isAlpha cs := cs.all Char.isAlpha
  repr cs := "'" ++ String.ofList cs ++ "'"
  lower_keeps cs c hc _ halpha := by
    refine List.mem_map.mpr ⟨c, hc, ?_⟩
    unfold Char.isAlpha Char.isUpper at halpha
    unfold Char.toLower
    exact dif_neg (of_decide_eq_false (Bool.or_eq_false_iff.mp halpha).1)

/-- **A limit of five Kelvin is not parsed.** -/
theorem not_parse_returns : ¬ ∀ (py : PyStr) (text : List Char), ∃ r, parse py text = .ok r := by
  intro h
  obtain ⟨r, hr⟩ := h asciiStr "[screen]\nlimit: 5\u212a\n[/screen]".toList
  have hraises : (match parse asciiStr "[screen]\nlimit: 5\u212a\n[/screen]".toList with
      | .error _ => true
      | .ok _ => false) = true := by decide +kernel
  rw [hr] at hraises
  cases hraises

end StratTrader.Screener
