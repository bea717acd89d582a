import StratTrader.Foundation.Lines
import StratTrader.Foundation.Objects
import StratTrader.Screener.Accepted

/-!
# What the parser of criteria returns

No block, or errors that are told by their lines, or criteria within bounds and what is built from them.

## What is proved

* `parse_located`: the line of an error is the one that it is about.
* `sound_build`: what is built of sane criteria.
* `parse_sound`: what is returned, for every text.

## Honest scope

A text is a list of Unicode characters. Its lines end with `\n` only.
-/

namespace StratTrader.Screener

open StratTrader.Foundation

/-! ### Places -/

/-- The mark that is left out at the beginning. -/
def bomOf : List Char → List Char
  | '\ufeff' :: _ => ['\ufeff']
  | _ => []

theorem bomOf_append (text : List Char) : bomOf text ++ stripBom text = text := by
  unfold bomOf
  split
  case h_1 => rfl
  case h_2 hno =>
    unfold stripBom
    split
    · exact absurd rfl (hno _)
    · rfl

theorem not_mem_bomOf (text : List Char) : '\n' ∉ bomOf text := by
  unfold bomOf
  split
  · decide
  · exact List.not_mem_nil

/-- The part of a text that an error is about, between what is before it and behind it. -/
inductive About (py : PyStr) (text : List Char) (e : LineError) :
    (before part behind : List Char) → Prop where
  /-- The second of the opening tags. -/
  | duplicate (first second : Opening) (rest : List Opening) (tag : List Char)
      (hopen : openings [] (stripBom text) = first :: second :: rest) (hpart : second.text = tag ++ second.behind) :
      About py text e (bomOf text ++ second.before.reverse) tag second.behind
  /-- The opening tag of a block that is not closed. -/
  | unclosed (o : Opening) (tag : List Char) (hopen : openings [] (stripBom text) = [o]) (hclose : closing o.behind = none)
      (hpart : o.text = tag ++ o.behind) : About py text e (bomOf text ++ o.before.reverse) tag o.behind
  /-- The opening tag of a block that is too large. -/
  | cap (o : Opening) (tag body rest : List Char) (hopen : openings [] (stripBom text) = [o])
      (hclose : closing o.behind = some (body, rest)) (hpart : o.text = tag ++ o.behind)
      (hcap : maxBlockBytes < utf8Length body ∨ maxBlockLines < (body.splitOn '\n').length) :
      About py text e (bomOf text ++ o.before.reverse) tag o.behind
  /-- A line of the block. -/
  | line (o : Opening) (tag body close rest : List Char) (earlier : List (List Char)) (raw : List Char)
      (later : List (List Char)) (hopen : openings [] (stripBom text) = [o])
      (hclose : closing o.behind = some (body, rest)) (hpart : o.text = tag ++ o.behind)
      (hbehind : o.behind = body ++ close ++ rest) (hlines : bodyLines text = some (earlier ++ raw :: later))
      (hreports : Reports py (extractBlock (stripBom text)).firstLine ⟨.empty, [], []⟩ earlier raw e) :
      About py text e (bomOf text ++ o.before.reverse ++ tag ++ ended '\n' earlier) raw
        (begun '\n' later ++ (close ++ rest))

/-- No tag has a line break. -/
theorem not_mem_openTag {tag : List Char} (h : Spells foldsTo openTag tag) : '\n' ∉ tag :=
  h.not_mem (by decide)

section
variable {text s tag : List Char} {o : Opening}

/-- An opening is on the line on which its match begins. -/
theorem lineOf_start (h : IsOpening s o) : lineOf o.start = o.before.count '\n' + 1 := by
  have hblanks : '\n' ∉ o.before.takeWhile isBlank := fun hmem => by
    have hblank := isBlank_of_mem_takeWhile hmem
    exact absurd hblank (by decide)
  have hcount : o.before.count '\n' = o.start.count '\n' := by
    conv_lhs => rw [← List.takeWhile_append_dropWhile (p := isBlank) (l := o.before)]
    rw [List.count_append, List.count_eq_zero_of_not_mem hblanks, Nat.zero_add, h.start_eq]
  unfold lineOf
  rw [hcount]

theorem exists_tag (h : IsOpening s o) : ∃ tag, Spells foldsTo openTag tag ∧ o.text = tag ++ o.behind :=
  eat_eq_some.mp h.tag

theorem spells_of_text (h : IsOpening s o) (hpart : o.text = tag ++ o.behind) : Spells foldsTo openTag tag := by
  obtain ⟨tag', hspells, htext⟩ := exists_tag h
  rwa [List.append_cancel_right (hpart.symm.trans htext)]

/-- An opening in the text with the mark. -/
theorem text_eq (h : IsOpening (stripBom text) o) (hpart : o.text = tag ++ o.behind) :
    text = bomOf text ++ o.before.reverse ++ tag ++ o.behind := by
  have hstrip : stripBom text = o.before.reverse ++ (tag ++ o.behind) := by
    rw [← hpart]
    exact h.text_eq
  calc text = bomOf text ++ stripBom text := (bomOf_append text).symm
    _ = bomOf text ++ o.before.reverse ++ tag ++ o.behind := by rw [hstrip]; simp only [List.append_assoc]

/-- The line of an opening. -/
theorem onLine_opening (h : IsOpening (stripBom text) o) (hpart : o.text = tag ++ o.behind) :
    OnLine '\n' text (lineOf o.start) (bomOf text ++ o.before.reverse) tag o.behind := by
  have hline := onLine (bomOf text ++ o.before.reverse) o.behind
    (not_mem_openTag (spells_of_text h hpart))
  rwa [← text_eq h hpart, List.count_append, List.count_eq_zero_of_not_mem (not_mem_bomOf text), Nat.zero_add,
    List.count_reverse, ← lineOf_start h] at hline

/-- A line of the block. -/
theorem onLine_body {body close rest raw : List Char} {earlier later : List (List Char)}
    (h : IsOpening (stripBom text) o) (hpart : o.text = tag ++ o.behind) (hbehind : o.behind = body ++ close ++ rest)
    (hlines : body.splitOn '\n' = earlier ++ raw :: later) :
    OnLine '\n' text (lineOf o.start + earlier.length) (bomOf text ++ o.before.reverse ++ tag ++ ended '\n' earlier) raw
      (begun '\n' later ++ (close ++ rest)) := by
  have hcount : (bomOf text ++ o.before.reverse ++ tag).count '\n' + 1 = lineOf o.start := by
    rw [List.count_append, List.count_append, List.count_eq_zero_of_not_mem (not_mem_bomOf text), Nat.zero_add,
      List.count_reverse, List.count_eq_zero_of_not_mem (not_mem_openTag (spells_of_text h hpart)), Nat.add_zero,
      lineOf_start h]
  have htext : bomOf text ++ o.before.reverse ++ tag ++ body ++ (close ++ rest) = text := by
    have hwhole := text_eq h hpart
    rw [hbehind] at hwhole
    simpa only [List.append_assoc] using hwhole.symm
  have hline := onLine_of_splitOn (bomOf text ++ o.before.reverse ++ tag) (close ++ rest) hlines
  rwa [hcount, htext] at hline

/-- A block that is returned begins on the line of its opening tag. -/
theorem extractBlock_closed {body rest : List Char} (hopen : openings [] s = [o])
    (hclose : closing o.behind = some (body, rest)) : extractBlock s = ⟨some body, lineOf o.start, []⟩ := by
  have h : IsOpening s o := mem_openings.mp (by rw [hopen]; exact List.mem_singleton.mpr rfl)
  obtain ⟨tag, hspells, hpart⟩ := exists_tag h
  have htake : s.take (s.length - o.behind.length) = o.before.reverse ++ tag := by
    have hs : s = (o.before.reverse ++ tag) ++ o.behind := by rw [h.text_eq, hpart, List.append_assoc]
    rw [hs, List.length_append, Nat.add_sub_cancel, List.take_left]
  unfold extractBlock
  rw [hopen]
  dsimp only
  rw [hclose]
  dsimp only
  rw [htake, lineOf_start h]
  unfold lineOf
  rw [List.count_append, List.count_reverse, List.count_eq_zero_of_not_mem (not_mem_openTag hspells), Nat.add_zero]

end

/-- What is reported of a block is by one of its lines. -/
theorem reports_of_parseBody {py : PyStr} {lines : List (List Char)} {firstLine : ℕ} {r : Option ScreenCriteria}
    {errors : List LineError} (h : parseBody py lines firstLine = .ok (r, errors)) {e : LineError} (he : e ∈ errors) :
    ∃ earlier raw later, lines = earlier ++ raw :: later ∧ Reports py firstLine ⟨.empty, [], []⟩ earlier raw e := by
  unfold parseBody at h
  cases hsteps : bodySteps py firstLine lines ⟨.empty, [], []⟩ with
  | error e => rw [hsteps] at h; cases h
  | ok st =>
    rw [hsteps] at h
    obtain ⟨es, hes, hall⟩ := errors_bodySteps hsteps
    have hif : (if st.errors = [] then (some (build st.criteria), []) else (none, st.errors)) = (r, errors) :=
      Except.ok.inj h
    split_ifs at hif
    · cases hif
      cases he
    · cases hif
      rw [hes, List.nil_append] at he
      exact hall e he

/-- **The line of an error** is the one of what it is about. -/
theorem parse_located {py : PyStr} {text : List Char} {r : Option ScreenCriteria} {errors : List LineError}
    (h : parse py text = .ok (r, errors)) {e : LineError} (he : e ∈ errors) :
    ∃ before part behind, About py text e before part behind ∧ OnLine '\n' text e.line before part behind := by
  have hempty : text ≠ [] := by
    rintro rfl
    cases h
    cases he
  cases hopen : openings [] (stripBom text) with
  | nil =>
    unfold parse extractBlock at h
    rw [if_neg hempty, hopen] at h
    cases h
    cases he
  | cons first rest =>
    have hmem (o : Opening) (ho : o ∈ first :: rest) : IsOpening (stripBom text) o := mem_openings.mp (hopen ▸ ho)
    cases rest with
    | cons second rest =>
      unfold parse extractBlock at h
      rw [if_neg hempty, hopen] at h
      cases h
      cases List.mem_singleton.mp he
      have hsecond := hmem second (List.mem_cons_of_mem _ List.mem_cons_self)
      obtain ⟨tag, -, hpart⟩ := exists_tag hsecond
      exact ⟨_, _, _, .duplicate first second rest tag hopen hpart, onLine_opening hsecond hpart⟩
    | nil =>
      have hfirst := hmem first List.mem_cons_self
      obtain ⟨tag, htag, hpart⟩ := exists_tag hfirst
      have hline := onLine_opening hfirst hpart
      cases hclose : closing first.behind with
      | none =>
        unfold parse extractBlock at h
        rw [if_neg hempty, hopen] at h
        dsimp only at h
        rw [hclose] at h
        cases h
        cases List.mem_singleton.mp he
        exact ⟨_, _, _, .unclosed first tag hopen hclose hpart, hline⟩
      | some found =>
        obtain ⟨body, rest⟩ := found
        have hextract := extractBlock_closed hopen hclose
        obtain ⟨close, -, hbehind⟩ := upTo_eq_some hclose
        have hbody : bodyLines text = if maxBlockBytes < utf8Length body ∨ maxBlockLines < (body.splitOn '\n').length then
            none else some (body.splitOn '\n') := by
          unfold bodyLines
          rw [hextract]
          rfl
        by_cases hcap : maxBlockBytes < utf8Length body ∨ maxBlockLines < (body.splitOn '\n').length
        · have hat : e.line = lineOf first.start := by
            unfold parse at h
            rw [if_neg hempty, hextract] at h
            dsimp only at h
            rw [if_neg (not_not_intro rfl)] at h
            split_ifs at h with hbytes hmany
            · cases h
              cases List.mem_singleton.mp he
              rfl
            · cases h
              cases List.mem_singleton.mp he
              rfl
            · exact absurd hcap (not_or.mpr ⟨hbytes, hmany⟩)
          exact ⟨_, _, _, .cap first tag body rest hopen hclose hpart hcap, hat ▸ hline⟩
        · rw [if_neg hcap] at hbody
          rw [parse_of_some hbody, hextract] at h
          obtain ⟨earlier, raw, later, hlines, hreports⟩ := reports_of_parseBody h he
          refine ⟨_, _, _, .line first tag body close rest earlier raw later hopen hclose hpart hbehind ?_ ?_, ?_⟩
          · rw [hbody, hlines]
          · rw [hextract]
            exact hreports
          · rw [hreports.1]
            exact onLine_body hfirst hpart hbehind hlines

/-! ### What is built -/

/-- What is given for each of the parameters. -/
def vendorTable (c : Criteria) (limit : ℤ) : List (String × Option Param) :=
  (rangeKeys.flatMap fun k =>
      [(k.stem ++ "MoreThan", ((c (.range k)).bind Bounds.gte).map Param.number),
        (k.stem ++ "LowerThan", ((c (.range k)).bind Bounds.lte).map Param.number)]) ++
    stringKeys.map (fun k => (k.name, (c (.text k)).map Param.text)) ++
    [("isActivelyTrading", some (.flag true)), ("isEtf", some (.flag ((c .etf).getD false))),
      ("limit", some (.number limit))]

/-- No parameter is given twice. -/
theorem nodup_vendorTable (c : Criteria) (limit : ℤ) : ((vendorTable c limit).map Prod.fst).Nodup := by
  have hnames : (vendorTable c limit).map Prod.fst = (vendorTable .empty 0).map Prod.fst := rfl
  rw [hnames]
  decide

/-- The parameters are what is given. -/
theorem vendorOf_eq (c : Criteria) (limit : ℤ) : vendorOf c limit = givenEntries (vendorTable c limit) := by
  have hrange (k : RangeKey) : givenEntries [(k.stem ++ "MoreThan", ((c (.range k)).bind Bounds.gte).map Param.number),
      (k.stem ++ "LowerThan", ((c (.range k)).bind Bounds.lte).map Param.number)] = rangeParams c k := by
    unfold rangeParams
    cases c (.range k) with
    | none => rfl
    | some bounds =>
      obtain ⟨gte, lte⟩ := bounds
      cases gte <;> cases lte <;> rfl
  have htext : givenEntries (stringKeys.map fun k => (k.name, (c (.text k)).map Param.text)) =
      stringKeys.filterMap fun k => (c (.text k)).map fun s => (k.name, Param.text s) := by
    unfold givenEntries
    rw [List.filterMap_map]
    refine List.filterMap_congr fun k _ => ?_
    exact Option.map_map ..
  unfold vendorOf vendorTable
  rw [← htext]
  simp only [givenEntries, List.filterMap_append, List.filterMap_flatMap] at hrange ⊢
  simp only [hrange]
  rfl

/-- What is given for a parameter. -/
theorem lookup_vendorOf (c : Criteria) (limit : ℤ) (name : String) :
    (vendorOf c limit).lookup name = ((vendorTable c limit).lookup name).join := by
  rw [vendorOf_eq, lookup_givenEntries (nodup_vendorTable c limit)]

/-- Criteria within bounds, and what is built from them. -/
structure Sound (c : ScreenCriteria) : Prop where
  /-- No range is inverted. -/
  range : ∀ k bounds lo hi, c.criteria (.range k) = some bounds → bounds.gte = some lo → bounds.lte = some hi → lo ≤ hi
  /-- A lower bound is its parameter, and no parameter is given for none. -/
  moreThan : ∀ k : RangeKey, c.vendorParams.lookup (k.stem ++ "MoreThan") =
    ((c.criteria (.range k)).bind Bounds.gte).map .number
  /-- So is an upper bound. -/
  lowerThan : ∀ k : RangeKey, c.vendorParams.lookup (k.stem ++ "LowerThan") =
    ((c.criteria (.range k)).bind Bounds.lte).map .number
  /-- So is a text. -/
  text : ∀ k : StringKey, c.vendorParams.lookup k.name = (c.criteria (.text k)).map .text
  /-- No parameter is given twice. -/
  nodup : (c.vendorParams.map Prod.fst).Nodup
  /-- The limit is within its bounds. -/
  limit_bounds : 1 ≤ c.limit ∧ c.limit ≤ 100
  /-- It is the one of the criteria. -/
  limit_criteria : c.criteria .limit = some c.limit
  /-- It is the one of the parameters. -/
  limit_vendor : c.vendorParams.lookup "limit" = some (.number c.limit)
  /-- Windows increase, and are of two kinds. -/
  windows : ∀ k ws, c.criteria (.sma k) = some ws → ws.Pairwise (· < ·) ∧ ∀ w ∈ ws, w = 50 ∨ w = 200
  /-- A percentage is one. -/
  near : ∀ num, c.criteria .near52wHigh = some num → 1 ≤ num ∧ num ≤ 100
  /-- So many days of history. -/
  minHistory : ∀ days, c.criteria .minHistory = some days ∨ c.derived .minHistory = some days → 1 ≤ days ∧ days ≤ 2000
  /-- What is derived is of the criteria. -/
  derived : ∀ key, key ≠ .minHistory → (c.derived key).isSome = true → c.derived key = c.criteria key
  /-- A history is needed for whatever is derived. -/
  derived_minHistory : ∀ key, (c.derived key).isSome = true → (c.derived .minHistory).isSome = true

/-- **What is built of sane criteria.** -/
theorem sound_build {c : Criteria} (hc : c.Sane) : Sound (build c) := by
  have hlimit : Sane .limit ((c .limit).getD limitDefault) := by
    cases hset : c .limit with
    | none => exact (by decide : limitMin ≤ limitDefault ∧ limitDefault ≤ limitMax)
    | some n => exact hc .limit n hset
  have hset : (build c).criteria.Sane := hc.set hlimit
  have hkeep {key : Key} (hne : key ≠ .limit) : (build c).criteria key = c key := set_of_ne c _ hne
  have hvendor (name : String) : (build c).vendorParams.lookup name =
      ((vendorTable (build c).criteria (build c).limit).lookup name).join := lookup_vendorOf _ _ name
  refine
    { range := fun k bounds lo hi hbounds => hset (.range k) bounds hbounds lo hi
      moreThan := fun k => ?_
      lowerThan := fun k => ?_
      text := fun k => ?_
      nodup := ?_
      limit_bounds := hlimit
      limit_criteria := set_same c .limit _
      limit_vendor := hvendor "limit"
      windows := fun k ws hws => ?_
      near := fun num hnum => hset .near52wHigh num hnum
      minHistory := ?_
      derived := ?_
      derived_minHistory := ?_ }
  · rw [hvendor]
    cases k <;> rfl
  · rw [hvendor]
    cases k <;> rfl
  · rw [hvendor]
    cases k <;> rfl
  · change ((vendorOf (build c).criteria (build c).limit).map Prod.fst).Nodup
    rw [vendorOf_eq]
    exact (keys_givenEntries _).nodup (nodup_vendorTable _ _)
  · obtain ⟨-, hsorted, hall⟩ := hset (.sma k) ws hws
    refine ⟨hsorted, fun w hw => ?_⟩
    simpa only [smaWindows, List.mem_cons, List.not_mem_nil, or_false] using hall w hw
  · rintro days (hdays | hdays)
    · exact hset .minHistory days hdays
    · change derivedOf (build c).criteria .minHistory = some days at hdays
      unfold derivedOf at hdays
      dsimp only at hdays
      split_ifs at hdays
      cases hset' : (build c).criteria .minHistory with
      | none =>
        rw [hset'] at hdays
        cases hdays
        decide
      | some d =>
        rw [hset'] at hdays
        cases hdays
        exact hset .minHistory d hset'
  · intro key hne hsome
    change derivedOf (build c).criteria key = (build c).criteria key
    change (derivedOf (build c).criteria key).isSome = true at hsome
    unfold derivedOf at hsome ⊢
    split at hsome
    · rfl
    · rfl
    · exact absurd rfl hne
    · cases hsome
  · intro key hsome
    change (derivedOf (build c).criteria key).isSome = true at hsome
    change (derivedOf (build c).criteria .minHistory).isSome = true
    have hany (hset : ((build c).criteria (.sma .aboveSma)).isSome = true ∨
        ((build c).criteria (.sma .smaRising)).isSome = true ∨ ((build c).criteria .near52wHigh).isSome = true ∨
        ((build c).criteria .minHistory).isSome = true) : (derivedOf (build c).criteria .minHistory).isSome = true := by
      unfold derivedOf
      dsimp only
      rw [if_pos hset]
      rfl
    cases key with
    | sma k =>
      cases k with
      | aboveSma => exact hany (.inl hsome)
      | smaRising => exact hany (.inr (.inl hsome))
    | near52wHigh => exact hany (.inr (.inr (.inl hsome)))
    | minHistory => exact hsome
    | range k => cases hsome
    | text k => cases hsome
    | etf => cases hsome
    | limit => cases hsome

/-- **What is returned**, for every text: nothing, errors at the lines that they are about, or sound criteria. -/
theorem parse_sound (py : PyStr) (text : List Char) (r : Option ScreenCriteria) (errors : List LineError)
    (h : parse py text = .ok (r, errors)) :
    ((r = none ∧ errors = []) ∨ (r = none ∧ errors ≠ []) ∨ ∃ c, r = some c ∧ Sound c ∧ errors = []) ∧
      ∀ e ∈ errors, ∃ before part behind,
        About py text e before part behind ∧ OnLine '\n' text e.line before part behind := by
  refine ⟨?_, fun e he => parse_located h he⟩
  cases r with
  | none =>
    rcases eq_or_ne errors [] with rfl | hne
    · exact .inl ⟨rfl, rfl⟩
    · exact .inr (.inl ⟨rfl, hne⟩)
  | some c =>
    obtain ⟨rfl, lines, built, -, hfollow, rfl⟩ := parse_some_iff.mp h
    exact .inr (.inr ⟨_, rfl, sound_build (follow_invariant sane_addLine hfollow sane_empty), rfl⟩)

/-- A block behind a note, with windows out of order and a limit that is clamped. -/
theorem parse_sound_sample : ∃ c, parse asciiStr
    "note\n[screen]\r\nprice: 10..20\r\nabove_sma: 200\nabove_sma: 50\n# all\nlimit: 500\n[/screen]".toList =
      .ok (some c, []) ∧ Sound c := by
  have hok : (accepted (parse asciiStr
      "note\n[screen]\r\nprice: 10..20\r\nabove_sma: 200\nabove_sma: 50\n# all\nlimit: 500\n[/screen]".toList)).isSome =
        true := by decide +kernel
  obtain ⟨c, hc⟩ := Option.isSome_iff_exists.mp hok
  have hparse := accepted_eq_some hc
  obtain ⟨⟨hno, -⟩ | ⟨hno, -⟩ | ⟨c', heq, hsound, -⟩, -⟩ := parse_sound asciiStr _ (some c) [] hparse
  · cases hno
  · cases hno
  · cases heq
    exact ⟨c, hparse, hsound⟩

end StratTrader.Screener
