import StratTrader.Foundation.Ordered
import StratTrader.Foundation.Stretches
import StratTrader.Marketdata.Bars

/-!
# The bars of a backtest

`load_bars` of `backtest/data.py`: the stored bars of a symbol become the frame that the sweep and the replay run on.

## What is proved

* `loadBars_ok_iff`: a frame is loaded exactly if enough weekdays have a bar, and then it is the bars of the range
  behind the last ones before it, in order.
* `loadBars_congr`: the frame, or the error, does not depend on any bar from the end of the range on.
* `largestGaps_spec`: the gaps of the error are runs of weekdays without a bar that could not be longer, with the
  right ends and the right count; put together they are the weekdays that are missing, and none that is left out is
  longer.
* `loadBars_isOk_of_missingBars`: where `missing_bars` finds nothing, the bars are loaded.

## Honest scope

The coverage is compared as a fraction: for the dates there are, doubles make no difference. The text of a date and of
a percentage and the double of a decimal are parameters. A frame has no time zone of its own, and its instants are
those of the bars.
-/

namespace StratTrader.Backtest.Data

open StratTrader.Foundation StratTrader.Marketdata

/-- `BacktestError`, with the `present` and `expected` of its details, of which `coverage` is the quotient. -/
structure BacktestError where
  /-- `code`. -/
  code : String
  /-- `message`. -/
  message : String
  /-- `details`. -/
  details : Option (ℕ × ℕ)
  deriving DecidableEq

/-- `INSUFFICIENT_DATA`. -/
def INSUFFICIENT_DATA : String := "BACKTEST_INSUFFICIENT_DATA"

/-- `_to_utc_midnight`. -/
def toUtcMidnight (d : ℤ) : ℤ := d * dayMicros

/-! ### Coverage -/

/-- The loop of `_weekdays`, for so many more days. -/
def weekdaysFrom : ℕ → ℤ → List ℤ
  | 0, _ => []
  | n + 1, ts => if weekday ts < 5 then ts :: weekdaysFrom n (ts + 1) else weekdaysFrom n (ts + 1)

/-- `_weekdays`. -/
def weekdays (start endDate : ℤ) : List ℤ := weekdaysFrom (endDate - start).toNat start

/-- `_count`. -/
def count (expected : List ℤ) (a b : ℤ) : ℕ := (expected.filter fun d => a ≤ d ∧ d ≤ b).length

/-- A run of missing weekdays: its first, its last and how many they are. -/
abbrev Gap : Type := ℤ × ℤ × ℕ

/-- The loop of `_largest_gaps`, with `run_start` and `prev` while a run is open. -/
def runsFrom (expected present : List ℤ) : Option (ℤ × ℤ) → List ℤ → List Gap
  | none, [] => []
  | some (runStart, prev), [] => [(runStart, prev, count expected runStart prev)]
  | none, d :: days =>
    if d ∉ present then runsFrom expected present (some (d, d)) days else runsFrom expected present none days
  | some (runStart, prev), d :: days =>
    if d ∉ present then runsFrom expected present (some (runStart, d)) days
    else (runStart, prev, count expected runStart prev) :: runsFrom expected present none days

/-- The runs of missing weekdays. -/
def runs (expected present : List ℤ) : List Gap := runsFrom expected present none expected

/-- The runs that are reported: the longest ones. -/
def topRuns (expected present : List ℤ) (top : ℕ) : List Gap :=
  (orderByDesc (fun g : Gap => g.2.2) (runs expected present)).take top

section
variable (isoformat : ℤ → String) (percent : ℕ → ℕ → String)

/-- A run in words. -/
def gapText (g : Gap) : String := isoformat g.1 ++ ".." ++ isoformat g.2.1 ++ " (" ++ toString g.2.2 ++ "d)"

/-- `_largest_gaps`. -/
def largestGaps (expected present : List ℤ) : List String := (topRuns expected present 3).map (gapText isoformat)

/-- The text of a list of texts. -/
def listText (texts : List String) : String := "[" ++ ", ".intercalate (texts.map fun s => "'" ++ s ++ "'") ++ "]"

/-- `_validate_coverage`: none if there is nothing to say. -/
def validateCoverage (symbol : String) (inRangeRows : List Bar) (start endDate : ℤ) : Option BacktestError :=
  let presentDays := inRangeRows.map fun r => dateOf r.ts
  let expected := weekdays start endDate
  if expected = [] then
    some ⟨INSUFFICIENT_DATA,
      "Range [" ++ isoformat start ++ ", " ++ isoformat endDate ++ ") contains no weekdays.", none⟩
  else
    let present := (expected.filter fun d => d ∈ presentDays).length
    if 20 * present < 19 * expected.length then
      some ⟨INSUFFICIENT_DATA,
        symbol ++ ": only " ++ toString present ++ "/" ++ toString expected.length ++ " weekdays present (" ++
          percent present expected.length ++ " < 95%). Largest gaps: " ++
          listText (largestGaps isoformat expected presentDays) ++ ". Run the M06 backfill first.",
        some (present, expected.length)⟩
    else none

end

/-! ### `load_bars` -/

/-- A row of the frame. -/
structure FrameRow (F : Type) where
  /-- The index. -/
  ts : ℤ
  /-- `open`. -/
  open_ : F
  /-- `high`. -/
  high : F
  /-- `low`. -/
  low : F
  /-- `close`. -/
  close : F
  /-- `volume`. -/
  volume : ℤ

section
variable {F : Type} (float64 : ℚ → F)

/-- A bar as a row of the frame. -/
def frameRow (b : Bar) : FrameRow F := ⟨b.ts, float64 b.open_, float64 b.high, float64 b.low, float64 b.close, b.volume⟩

/-- The frame without the rows whose index comes once more. -/
def dropDuplicated : List (FrameRow F) → List (FrameRow F)
  | [] => []
  | r :: rows => if rows.any fun x => x.ts == r.ts then dropDuplicated rows else r :: dropDuplicated rows

variable (isoformat : ℤ → String) (percent : ℕ → ℕ → String) (upper : String → String) (bars : Table Bar.key)
  (symbol tf : String) (start endDate warmupBars : ℤ)

/-- The bars of a symbol. -/
def barsOf : List Bar := bars.rows.filter fun b => b.symbol = symbol ∧ b.tf = tf

/-- `in_range`. -/
def inRange : List Bar :=
  orderBy Bar.ts ((barsOf bars symbol tf).filter fun b => toUtcMidnight start ≤ b.ts ∧ b.ts < toUtcMidnight endDate)

/-- `warmup_rows`. -/
def warmupRows : List Bar :=
  if 0 < warmupBars then
    ((orderByDesc Bar.ts ((barsOf bars symbol tf).filter fun b => b.ts < toUtcMidnight start)).take
      warmupBars.toNat).reverse
  else []

/-- `load_bars`. -/
def loadBars : Except BacktestError (List (FrameRow F)) :=
  let inRangeRows := inRange bars (upper symbol) tf start endDate
  let warmup := warmupRows bars (upper symbol) tf start warmupBars
  match validateCoverage isoformat percent (upper symbol) inRangeRows start endDate with
  | some error => .error error
  | none =>
    if warmup ++ inRangeRows = [] then
      .error ⟨INSUFFICIENT_DATA, "No bars for " ++ upper symbol ++ " " ++ tf ++ " in [" ++ isoformat start ++ ", " ++
        isoformat endDate ++ ").", none⟩
    else .ok (orderBy FrameRow.ts (dropDuplicated ((warmup ++ inRangeRows).map (frameRow float64))))

end

/-! ### The weekdays of a range -/

section
variable {start endDate d : ℤ}

theorem mem_weekdaysFrom {n : ℕ} : d ∈ weekdaysFrom n start ↔ start ≤ d ∧ d < start + n ∧ weekday d < 5 := by
  induction n generalizing start with
  | zero =>
    simp only [weekdaysFrom, List.not_mem_nil, Nat.cast_zero, add_zero, false_iff]
    omega
  | succ n ih =>
    unfold weekdaysFrom
    split_ifs with hday
    · rw [List.mem_cons, ih]
      push_cast
      constructor
      · rintro (rfl | ⟨hfirst, hlast, hweek⟩)
        · exact ⟨le_rfl, by omega, hday⟩
        · exact ⟨by omega, by omega, hweek⟩
      · rintro ⟨hfirst, hlast, hweek⟩
        by_cases heq : d = start
        · exact .inl heq
        · exact .inr ⟨by omega, by omega, hweek⟩
    · rw [ih]
      push_cast
      constructor
      · rintro ⟨hfirst, hlast, hweek⟩
        exact ⟨by omega, by omega, hweek⟩
      · rintro ⟨hfirst, hlast, hweek⟩
        have hne : d ≠ start := fun heq => hday (heq ▸ hweek)
        exact ⟨by omega, by omega, hweek⟩

theorem mem_weekdays : d ∈ weekdays start endDate ↔ start ≤ d ∧ d < endDate ∧ weekday d < 5 := by
  unfold weekdays
  rw [mem_weekdaysFrom]
  constructor
  · rintro ⟨hfirst, hlast, hweek⟩
    exact ⟨hfirst, by omega, hweek⟩
  · rintro ⟨hfirst, hlast, hweek⟩
    exact ⟨hfirst, by omega, hweek⟩

theorem weekdaysFrom_pairwise {n : ℕ} : (weekdaysFrom n start).Pairwise (· < ·) := by
  induction n generalizing start with
  | zero => exact .nil
  | succ n ih =>
    unfold weekdaysFrom
    split_ifs
    · refine .cons (fun d hd => ?_) ih
      have hfirst := (mem_weekdaysFrom.mp hd).1
      omega
    · exact ih

theorem weekdays_pairwise : (weekdays start endDate).Pairwise (· < ·) := weekdaysFrom_pairwise

end

/-! ### The frame -/

section
variable {F : Type} {float64 : ℚ → F} {isoformat : ℤ → String} {percent : ℕ → ℕ → String} {upper : String → String}
  {bars bars' : Table Bar.key} {symbol tf : String} {start endDate warmupBars : ℤ} {frame : List (FrameRow F)}

theorem mem_barsOf {b : Bar} : b ∈ barsOf bars symbol tf ↔ b ∈ bars.rows ∧ b.symbol = symbol ∧ b.tf = tf := by
  rw [barsOf, List.mem_filter, decide_eq_true_iff]

/-- The bars of a symbol have different times. -/
theorem nodup_barsOf (bars : Table Bar.key) (symbol tf : String) : ((barsOf bars symbol tf).map Bar.ts).Nodup := by
  refine List.pairwise_map.mpr ?_
  have hkeys : (barsOf bars symbol tf).Pairwise fun a b => a.key ≠ b.key :=
    (List.pairwise_map.mp bars.nodup).filter _
  refine hkeys.imp_of_mem fun {a b} ha hb hkey hts => hkey ?_
  obtain ⟨-, hsymbol, htf⟩ := mem_barsOf.mp ha
  obtain ⟨-, hsymbol', htf'⟩ := mem_barsOf.mp hb
  rw [Bar.key, Bar.key, hsymbol, htf, hts, hsymbol', htf']

theorem nodup_filter_barsOf (q : Bar → Bool) : (((barsOf bars symbol tf).filter q).map Bar.ts).Nodup :=
  (nodup_barsOf bars symbol tf).sublist (List.filter_sublist.map _)

/-- The bars before the end of the range, in order. -/
def barsUntil (bars : Table Bar.key) (symbol tf : String) (endDate : ℤ) : List Bar :=
  orderBy Bar.ts ((barsOf bars symbol tf).filter fun b => b.ts < toUtcMidnight endDate)

/-- The warm-up, as the last bars before the range. -/
theorem warmupRows_eq : warmupRows bars symbol tf start warmupBars =
    (barsUntil bars symbol tf start).drop ((barsUntil bars symbol tf start).length - warmupBars.toNat) := by
  unfold warmupRows barsUntil
  split_ifs with hpos
  · exact newest_eq_drop (nodup_filter_barsOf _) _
  · have hzero : warmupBars.toNat = 0 := by omega
    rw [hzero, Nat.sub_zero, List.drop_length]

/-- The bars before the end are those before the start and those of the range. -/
theorem barsUntil_append (hrange : start ≤ endDate) :
    barsUntil bars symbol tf endDate = barsUntil bars symbol tf start ++ inRange bars symbol tf start endDate := by
  have hmidnight : toUtcMidnight start ≤ toUtcMidnight endDate := by
    unfold toUtcMidnight dayMicros
    omega
  refine eq_of_pairwise_lt (orderBy_lt (nodup_filter_barsOf _)) (List.pairwise_append.mpr
    ⟨orderBy_lt (nodup_filter_barsOf _), orderBy_lt (nodup_filter_barsOf _), ?_⟩) ?_
  · intro a ha b hb
    have hbefore := of_decide_eq_true (List.mem_filter.mp (mem_orderBy.mp ha)).2
    have hwithin := of_decide_eq_true (List.mem_filter.mp (mem_orderBy.mp hb)).2
    exact hbefore.trans_le hwithin.1
  · intro b
    simp only [barsUntil, inRange, List.mem_append, mem_orderBy, List.mem_filter, decide_eq_true_iff]
    constructor
    · rintro ⟨hb, hend⟩
      rcases lt_or_ge b.ts (toUtcMidnight start) with hlt | hge
      · exact .inl ⟨hb, hlt⟩
      · exact .inr ⟨hb, hge, hend⟩
    · rintro (⟨hb, hlt⟩ | ⟨hb, -, hend⟩)
      · exact ⟨hb, hlt.trans_le hmidnight⟩
      · exact ⟨hb, hend⟩

theorem dropDuplicated_eq_self {rows : List (FrameRow F)} (h : rows.Pairwise fun a b => a.ts < b.ts) :
    dropDuplicated rows = rows := by
  induction rows with
  | nil => rfl
  | cons r rows ih =>
    have hrest := List.pairwise_cons.mp h
    have hnone : (rows.any fun x => x.ts == r.ts) = false := by
      rw [List.any_eq_false]
      intro x hx
      rw [beq_iff_eq]
      exact (hrest.1 x hx).ne'
    rw [dropDuplicated, hnone, if_neg Bool.false_ne_true, ih hrest.2]

/-- How many of the weekdays have a bar. -/
def presentDays (bars : Table Bar.key) (symbol tf : String) (start endDate : ℤ) : ℕ :=
  ((weekdays start endDate).filter fun d => d ∈ (inRange bars symbol tf start endDate).map fun r => dateOf r.ts).length

/-- Enough of the weekdays have a bar. -/
def Covered (bars : Table Bar.key) (symbol tf : String) (start endDate : ℤ) : Prop :=
  weekdays start endDate ≠ [] ∧ 19 * (weekdays start endDate).length ≤ 20 * presentDays bars symbol tf start endDate

theorem validateCoverage_eq_none :
    validateCoverage isoformat percent symbol (inRange bars symbol tf start endDate) start endDate = none ↔
      Covered bars symbol tf start endDate := by
  unfold validateCoverage Covered presentDays
  dsimp only
  split_ifs with hempty hlow
  · exact iff_of_false (by simp) fun h => h.1 hempty
  · exact iff_of_false (by simp) fun h => absurd h.2 (not_le.mpr hlow)
  · exact iff_of_true rfl ⟨hempty, not_lt.mp hlow⟩

/-- Where enough weekdays have a bar, there is one. -/
theorem inRange_ne_nil (h : Covered bars symbol tf start endDate) : inRange bars symbol tf start endDate ≠ [] := by
  intro hnil
  obtain ⟨hdays, hcover⟩ := h
  have hlength := List.length_pos_iff.mpr hdays
  have hnone : presentDays bars symbol tf start endDate = 0 := by
    rw [presentDays, hnil]
    simp
  omega

theorem start_le_of_covered (h : Covered bars symbol tf start endDate) : start ≤ endDate := by
  obtain ⟨d, hd⟩ := List.exists_mem_of_ne_nil _ h.1
  obtain ⟨hfirst, hlast, -⟩ := mem_weekdays.mp hd
  omega

/-- The bars of a frame: of those before the end of the range, in order, the last so many before its start and all
behind it. -/
structure IsSplit (bars : Table Bar.key) (symbol tf : String) (start endDate warmupBars : ℤ)
    (earlier warmup inside : List Bar) : Prop where
  /-- They are in order. -/
  sorted : (earlier ++ warmup ++ inside).Pairwise fun a b => a.ts < b.ts
  /-- They are those before the end. -/
  mem : ∀ b, b ∈ earlier ++ warmup ++ inside ↔
    b ∈ bars.rows ∧ b.symbol = symbol ∧ b.tf = tf ∧ b.ts < toUtcMidnight endDate
  /-- The warm-up, and what is left out, is before the range. -/
  before : ∀ b ∈ earlier ++ warmup, b.ts < toUtcMidnight start
  /-- The others are not. -/
  behind : ∀ b ∈ inside, toUtcMidnight start ≤ b.ts
  /-- The warm-up is as long as it is asked for, or as long as it can be. -/
  length : warmup.length = min warmupBars.toNat (earlier ++ warmup).length

variable {earlier warmup inside : List Bar}

theorem mem_barsUntil {b : Bar} : b ∈ barsUntil bars symbol tf endDate ↔
    b ∈ bars.rows ∧ b.symbol = symbol ∧ b.tf = tf ∧ b.ts < toUtcMidnight endDate := by
  rw [barsUntil, mem_orderBy, List.mem_filter, mem_barsOf, decide_eq_true_iff, and_assoc, and_assoc]

theorem barsUntil_lt : (barsUntil bars symbol tf endDate).Pairwise fun a b => a.ts < b.ts :=
  orderBy_lt (nodup_filter_barsOf _)

/-- What is read is such a split. -/
theorem isSplit_read (hrange : start ≤ endDate) : IsSplit bars symbol tf start endDate warmupBars
    ((barsUntil bars symbol tf start).take ((barsUntil bars symbol tf start).length - warmupBars.toNat))
    (warmupRows bars symbol tf start warmupBars) (inRange bars symbol tf start endDate) := by
  have hbefore : (barsUntil bars symbol tf start).take ((barsUntil bars symbol tf start).length - warmupBars.toNat) ++
      warmupRows bars symbol tf start warmupBars = barsUntil bars symbol tf start := by
    rw [warmupRows_eq, List.take_append_drop]
  refine ⟨?_, ?_, ?_, ?_, ?_⟩
  · rw [hbefore, ← barsUntil_append hrange]
    exact barsUntil_lt
  · intro b
    rw [hbefore, ← barsUntil_append hrange, mem_barsUntil]
  · intro b hb
    rw [hbefore] at hb
    exact (mem_barsUntil.mp hb).2.2.2
  · intro b hb
    rw [inRange, mem_orderBy, List.mem_filter, decide_eq_true_iff] at hb
    exact hb.2.1
  · rw [hbefore, warmupRows_eq, List.length_drop]
    omega

/-- There is one such split. -/
theorem IsSplit.eq_read (h : IsSplit bars symbol tf start endDate warmupBars earlier warmup inside)
    (hrange : start ≤ endDate) : warmup = warmupRows bars symbol tf start warmupBars ∧
      inside = inRange bars symbol tf start endDate := by
  have hall : earlier ++ warmup ++ inside = barsUntil bars symbol tf endDate :=
    eq_of_pairwise_lt h.sorted barsUntil_lt fun b => by rw [h.mem, mem_barsUntil]
  have hfront : earlier ++ warmup = barsUntil bars symbol tf start := by
    refine eq_of_pairwise_lt (List.pairwise_append.mp h.sorted).1 barsUntil_lt fun b => ?_
    rw [mem_barsUntil]
    constructor
    · intro hb
      obtain ⟨hrow, hsymbol, htf, -⟩ := (h.mem b).mp (List.mem_append_left _ hb)
      exact ⟨hrow, hsymbol, htf, h.before b hb⟩
    · rintro ⟨hrow, hsymbol, htf, hlt⟩
      have hmidnight : toUtcMidnight start ≤ toUtcMidnight endDate := by
        unfold toUtcMidnight dayMicros
        omega
      rcases List.mem_append.mp ((h.mem b).mpr ⟨hrow, hsymbol, htf, hlt.trans_le hmidnight⟩) with hb | hb
      · exact hb
      · exact absurd (h.behind b hb) (not_le.mpr hlt)
  constructor
  · have hlength : (barsUntil bars symbol tf start).length - warmupBars.toNat = earlier.length := by
      have htotal := h.length
      rw [← hfront, List.length_append] at *
      omega
    rw [warmupRows_eq, hlength, ← hfront, List.drop_left]
  · rw [hfront, barsUntil_append hrange] at hall
    exact List.append_cancel_left hall

/-- The frame is in order already. -/
theorem frame_eq (h : IsSplit bars symbol tf start endDate warmupBars earlier warmup inside) :
    orderBy FrameRow.ts (dropDuplicated ((warmup ++ inside).map (frameRow float64))) =
      (warmup ++ inside).map (frameRow float64) := by
  have hsorted : (warmup ++ inside).Pairwise fun a b => a.ts < b.ts := by
    have hrest := h.sorted
    rw [List.append_assoc] at hrest
    exact (List.pairwise_append.mp hrest).2.1
  have hmap : ((warmup ++ inside).map (frameRow float64)).Pairwise fun a b => a.ts < b.ts :=
    List.pairwise_map.mpr hsorted
  rw [dropDuplicated_eq_self hmap, orderBy_eq_self hmap]

/-- **A frame is loaded** exactly if enough weekdays have a bar, and it is the bars of the range behind the last ones
before it, in order. -/
theorem loadBars_ok_iff : loadBars float64 isoformat percent upper bars symbol tf start endDate warmupBars = .ok frame ↔
    Covered bars (upper symbol) tf start endDate ∧ ∃ earlier warmup inside,
      IsSplit bars (upper symbol) tf start endDate warmupBars earlier warmup inside ∧
        frame = (warmup ++ inside).map (frameRow float64) := by
  unfold loadBars
  dsimp only
  constructor
  · intro h
    cases hcoverage : validateCoverage isoformat percent (upper symbol) (inRange bars (upper symbol) tf start endDate)
        start endDate with
    | some error =>
      rw [hcoverage] at h
      cases h
    | none =>
      have hcovered := validateCoverage_eq_none.mp hcoverage
      have hsplit : IsSplit bars (upper symbol) tf start endDate warmupBars _ _ _ :=
        isSplit_read (start_le_of_covered hcovered)
      rw [hcoverage] at h
      dsimp only at h
      split_ifs at h
      refine ⟨hcovered, _, _, _, hsplit, ?_⟩
      rw [frame_eq hsplit] at h
      exact (Except.ok.inj h).symm
  · rintro ⟨hcovered, earlier, warmup, inside, hsplit, rfl⟩
    obtain ⟨rfl, rfl⟩ := hsplit.eq_read (start_le_of_covered hcovered)
    have hne : warmupRows bars (upper symbol) tf start warmupBars ++ inRange bars (upper symbol) tf start endDate ≠ [] :=
      List.append_ne_nil_of_right_ne_nil _ (inRange_ne_nil hcovered)
    rw [validateCoverage_eq_none.mpr hcovered]
    dsimp only
    rw [if_neg hne, frame_eq hsplit]

/-- A frame is in order. -/
theorem loadBars_pairwise
    (h : loadBars float64 isoformat percent upper bars symbol tf start endDate warmupBars = .ok frame) :
    frame.Pairwise fun a b => a.ts < b.ts := by
  obtain ⟨-, earlier, warmup, inside, hsplit, rfl⟩ := loadBars_ok_iff.mp h
  have hrest := hsplit.sorted
  rw [List.append_assoc] at hrest
  exact List.pairwise_map.mpr (List.pairwise_append.mp hrest).2.1

/-- All of it is before the end of the range. -/
theorem loadBars_before
    (h : loadBars float64 isoformat percent upper bars symbol tf start endDate warmupBars = .ok frame) :
    frame.filter (fun r => decide (r.ts < toUtcMidnight endDate)) = frame := by
  obtain ⟨-, earlier, warmup, inside, hsplit, rfl⟩ := loadBars_ok_iff.mp h
  refine List.filter_eq_self.mpr fun r hr => ?_
  obtain ⟨b, hb, rfl⟩ := List.mem_map.mp hr
  have hmem : b ∈ earlier ++ warmup ++ inside := by
    rw [List.append_assoc]
    exact List.mem_append_right _ hb
  exact decide_eq_true ((hsplit.mem b).mp hmem).2.2.2

/-- **With a later end** a frame begins with the frame that it was. -/
theorem loadBars_filter {later : ℤ} {frame' : List (FrameRow F)} (hlater : endDate ≤ later)
    (h : loadBars float64 isoformat percent upper bars symbol tf start endDate warmupBars = .ok frame)
    (h' : loadBars float64 isoformat percent upper bars symbol tf start later warmupBars = .ok frame') :
    frame'.filter (fun r => decide (r.ts < toUtcMidnight endDate)) = frame := by
  obtain ⟨hcovered, earlier, warmup, inside, hsplit, rfl⟩ := loadBars_ok_iff.mp h
  obtain ⟨hcovered', earlier', warmup', inside', hsplit', rfl⟩ := loadBars_ok_iff.mp h'
  have hrange := start_le_of_covered hcovered
  have hmidnight : toUtcMidnight start ≤ toUtcMidnight endDate ∧ toUtcMidnight endDate ≤ toUtcMidnight later := by
    unfold toUtcMidnight dayMicros
    omega
  obtain ⟨rfl, rfl⟩ := hsplit.eq_read hrange
  obtain ⟨rfl, rfl⟩ := hsplit'.eq_read (start_le_of_covered hcovered')
  have hwarmup : (warmupRows bars (upper symbol) tf start warmupBars).filter
      (fun b => decide (b.ts < toUtcMidnight endDate)) = warmupRows bars (upper symbol) tf start warmupBars := by
    refine List.filter_eq_self.mpr fun b hb => decide_eq_true ?_
    exact (hsplit.before b (List.mem_append_right _ hb)).trans_le hmidnight.1
  have hinside : (inRange bars (upper symbol) tf start later).filter
      (fun b => decide (b.ts < toUtcMidnight endDate)) = inRange bars (upper symbol) tf start endDate := by
    refine eq_of_pairwise_lt ((orderBy_lt (nodup_filter_barsOf _)).filter _) (orderBy_lt (nodup_filter_barsOf _))
      fun b => ?_
    simp only [inRange, List.mem_filter, mem_orderBy, decide_eq_true_iff]
    constructor
    · rintro ⟨⟨hb, hfirst, -⟩, hlast⟩
      exact ⟨hb, hfirst, hlast⟩
    · rintro ⟨hb, hfirst, hlast⟩
      exact ⟨⟨hb, hfirst, hlast.trans_le hmidnight.2⟩, hlast⟩
  rw [List.filter_map, List.filter_append]
  change (List.filter (fun b : Bar => decide (b.ts < toUtcMidnight endDate)) _ ++
    List.filter (fun b : Bar => decide (b.ts < toUtcMidnight endDate)) _).map _ = _
  rw [hwarmup, hinside]

/-! ### What a frame depends on -/

theorem mem_barsOf_iff_find? {b : Bar} : b ∈ barsOf bars symbol tf ↔ bars.find? (symbol, tf, b.ts) = some b := by
  rw [mem_barsOf, Table.find?_eq_some]
  simp only [Bar.key, Prod.mk.injEq]
  rw [and_true]

/-- A query of bars with times before an instant is told by the bars before it. -/
theorem orderBy_barsOf_congr {limit : ℤ} {q : Bar → Bool} (hq : ∀ b, q b = true → b.ts < limit)
    (h : ∀ ts < limit, bars.find? (symbol, tf, ts) = bars'.find? (symbol, tf, ts)) :
    orderBy Bar.ts ((barsOf bars symbol tf).filter q) = orderBy Bar.ts ((barsOf bars' symbol tf).filter q) := by
  refine orderBy_congr (nodup_filter_barsOf _) (nodup_filter_barsOf _) fun b => ?_
  rw [List.mem_filter, List.mem_filter]
  refine and_congr_left fun hb => ?_
  rw [mem_barsOf_iff_find?, mem_barsOf_iff_find?, h b.ts (hq b hb)]

theorem weekdays_eq_nil (h : endDate ≤ start) : weekdays start endDate = [] := by
  have hzero : (endDate - start).toNat = 0 := by omega
  rw [weekdays, hzero]
  rfl

/-- **No look-ahead**: the bars from the end of the range on are not read. -/
theorem loadBars_congr
    (h : ∀ ts < toUtcMidnight endDate, bars.find? (upper symbol, tf, ts) = bars'.find? (upper symbol, tf, ts)) :
    loadBars float64 isoformat percent upper bars symbol tf start endDate warmupBars =
      loadBars float64 isoformat percent upper bars' symbol tf start endDate warmupBars := by
  have hinside : inRange bars (upper symbol) tf start endDate = inRange bars' (upper symbol) tf start endDate :=
    orderBy_barsOf_congr (fun b hb => (of_decide_eq_true hb).2) h
  unfold loadBars
  dsimp only
  rw [hinside]
  rcases le_or_gt start endDate with hrange | hrange
  · have hmidnight : toUtcMidnight start ≤ toUtcMidnight endDate := by
      unfold toUtcMidnight dayMicros
      omega
    have hfront : barsUntil bars (upper symbol) tf start = barsUntil bars' (upper symbol) tf start :=
      orderBy_barsOf_congr (fun b hb => of_decide_eq_true hb) fun ts hts => h ts (hts.trans_le hmidnight)
    rw [warmupRows_eq, warmupRows_eq, hfront]
  · -- a range that ends before it starts has no weekday, and no more is looked at
    unfold validateCoverage
    dsimp only
    rw [if_pos (weekdays_eq_nil hrange.le)]

/-- The bar of a Monday, which is day one. -/
def mondayBar : Bar := ⟨"SPY", "1d", dayMicros, 1, 2, 1, 2, 100, "FMP"⟩

/-- The bar of the day behind it. -/
def tuesdayBar : Bar := { mondayBar with ts := 2 * dayMicros }

/-- A bar of the Tuesday changes nothing for a range that ends with the Monday. -/
theorem loadBars_congr_tuesday :
    loadBars id toString (fun _ _ => "") id (Table.empty.put mondayBar) "SPY" "1d" 1 2 5 =
      loadBars id toString (fun _ _ => "") id ((Table.empty.put mondayBar).put tuesdayBar) "SPY" "1d" 1 2 5 := by
  refine loadBars_congr fun ts hts => ?_
  have hne : ("SPY", "1d", ts) ≠ tuesdayBar.key := by
    intro hkey
    have htime : ts = 2 * dayMicros := congrArg (fun k : String × String × ℤ => k.2.2) hkey
    rw [htime] at hts
    exact absurd hts (lt_irrefl _)
  rw [Table.find?_put _ tuesdayBar, id, if_neg hne]

/-! ### Behind a backfill -/

theorem dateOf_toUtcMidnight (d : ℤ) : dateOf (toUtcMidnight d) = d := by
  unfold dateOf toUtcMidnight dayMicros
  omega

/-- **Where no bar is missing**, the bars are loaded. -/
theorem loadBars_isOk_of_missingBars
    (hmissing : missingBars upper bars symbol "1d" (toUtcMidnight start) (toUtcMidnight endDate - 1) = some [])
    (hdays : weekdays start endDate ≠ []) :
    ∃ frame, loadBars float64 isoformat percent upper bars symbol "1d" start endDate warmupBars = .ok frame := by
  have hstored : ∀ d ∈ weekdays start endDate, (bars.find? (upper symbol, "1d", toUtcMidnight d)).isSome = true := by
    intro d hd
    obtain ⟨hfirst, hlast, hweek⟩ := mem_weekdays.mp hd
    rw [missingBars_eq, Option.some.injEq, List.filter_eq_nil_iff] at hmissing
    have hexpected : toUtcMidnight d ∈ expectedBars "1d" (toUtcMidnight start) (toUtcMidnight endDate - 1) := by
      have hdelta : tfDelta "1d" = some dayMicros := by decide
      unfold expectedBars
      rw [hdelta]
      dsimp only
      rw [List.mem_filter, mem_instants (by decide), decide_eq_true_iff, dateOf_toUtcMidnight]
      refine ⟨⟨?_, ?_, ⟨d - start, ?_⟩⟩, fun hweekend => by omega⟩
      · unfold toUtcMidnight dayMicros
        omega
      · unfold toUtcMidnight dayMicros
        omega
      · unfold toUtcMidnight
        ring
    have hsome := hmissing _ hexpected
    rwa [Option.isNone_iff_eq_none, ← ne_eq, ← Option.isSome_iff_ne_none] at hsome
  have hpresent : presentDays bars (upper symbol) "1d" start endDate = (weekdays start endDate).length := by
    unfold presentDays
    rw [List.filter_eq_self.mpr]
    intro d hd
    obtain ⟨hfirst, hlast, -⟩ := mem_weekdays.mp hd
    obtain ⟨b, hb⟩ := Option.isSome_iff_exists.mp (hstored d hd)
    have hkey := Table.key_of_find? hb
    simp only [Bar.key, Prod.mk.injEq] at hkey
    have hrow : b ∈ inRange bars (upper symbol) "1d" start endDate := by
      rw [inRange, mem_orderBy, List.mem_filter, mem_barsOf_iff_find?, hkey.2.2, decide_eq_true_iff]
      refine ⟨hb, ?_⟩
      unfold toUtcMidnight dayMicros
      omega
    refine decide_eq_true (List.mem_map.mpr ⟨b, hrow, ?_⟩)
    rw [hkey.2.2, dateOf_toUtcMidnight]
  have hcovered : Covered bars (upper symbol) "1d" start endDate := ⟨hdays, by omega⟩
  exact ⟨_, loadBars_ok_iff.mpr ⟨hcovered, _, _, _, isSplit_read (start_le_of_covered hcovered), rfl⟩⟩

theorem loadBars_isOk_monday : ∃ frame : List (FrameRow ℚ),
    loadBars id toString (fun _ _ => "") id (Table.empty.put mondayBar) "SPY" "1d" 1 2 5 = .ok frame :=
  loadBars_isOk_of_missingBars (by decide +kernel) (by decide +kernel)

end

/-! ### The largest gaps -/

section
variable {expected present before cur days : List ℤ}

/-- The first and the last day of a run, unless it is empty. -/
def ends : List ℤ → Option (ℤ × ℤ)
  | [] => none
  | a :: l => some (a, l.getLastD a)

/-- A run by its days. -/
def gapOf : List ℤ → Gap
  | [] => (0, 0, 0)
  | a :: l => (a, l.getLastD a, l.length + 1)

theorem le_getLastD {a : ℤ} {l : List ℤ} (h : (a :: l).Pairwise (· < ·)) : ∀ d ∈ a :: l, d ≤ l.getLastD a := by
  induction l generalizing a with
  | nil =>
    intro d hd
    rw [List.mem_singleton.mp hd]
    rfl
  | cons b l ih =>
    intro d hd
    obtain ⟨hfirst, hrest⟩ := List.pairwise_cons.mp h
    rw [List.getLastD_cons]
    rcases List.mem_cons.mp hd with rfl | hd
    · exact (hfirst b List.mem_cons_self).le.trans (ih hrest b List.mem_cons_self)
    · exact ih hrest d hd

/-- The days that are counted are those of the run. -/
theorem count_eq {a : ℤ} {l : List ℤ} (h : (before ++ (a :: l) ++ days).Pairwise (· < ·)) :
    count (before ++ (a :: l) ++ days) a (l.getLastD a) = l.length + 1 := by
  rw [List.append_assoc] at h
  obtain ⟨-, hrest, hbefore⟩ := List.pairwise_append.mp h
  obtain ⟨hrun, -, hdays⟩ := List.pairwise_append.mp hrest
  have hfront : before.filter (fun d => decide (a ≤ d ∧ d ≤ l.getLastD a)) = [] := by
    refine List.filter_eq_nil_iff.mpr fun d hd hin => ?_
    have hlt := hbefore d hd a (List.mem_append_left _ List.mem_cons_self)
    have hle := (of_decide_eq_true hin).1
    omega
  have hmiddle : (a :: l).filter (fun d => decide (a ≤ d ∧ d ≤ l.getLastD a)) = a :: l := by
    refine List.filter_eq_self.mpr fun d hd => decide_eq_true ⟨?_, le_getLastD hrun d hd⟩
    rcases List.mem_cons.mp hd with rfl | hd
    · exact le_rfl
    · exact ((List.pairwise_cons.mp hrun).1 d hd).le
  have hback : days.filter (fun d => decide (a ≤ d ∧ d ≤ l.getLastD a)) = [] := by
    refine List.filter_eq_nil_iff.mpr fun d hd hin => ?_
    have hlt := hdays _ List.getLastD_mem_cons d hd
    have hle := (of_decide_eq_true hin).2
    omega
  rw [count, List.filter_append, List.filter_append, hfront, hmiddle, hback, List.nil_append, List.append_nil,
    List.length_cons]

/-- The loop goes through the stretches of missing days. -/
theorem runsFrom_eq (before cur : List ℤ) (hsorted : (before ++ cur ++ days).Pairwise (· < ·)) :
    runsFrom (before ++ cur ++ days) present (ends cur) days =
      (stretchesFrom (fun d => decide (d ∉ present)) cur days).map gapOf := by
  induction days generalizing before cur with
  | nil =>
    cases cur with
    | nil => rfl
    | cons a l =>
      have hcount := count_eq hsorted
      simp only [ends, runsFrom, stretchesFrom, closed, List.isEmpty_cons, List.map_cons, List.map_nil, gapOf, hcount,
        Bool.false_eq_true, if_false]
  | cons d days ih =>
    by_cases hd : d ∉ present
    · have hopen := ih before (cur ++ [d]) (by simpa using hsorted)
      have hends : ends (cur ++ [d]) = some ((ends cur).elim d Prod.fst, d) := by
        cases cur with
        | nil => rfl
        | cons a l => simp [ends]
      rw [hends, List.append_assoc, List.append_assoc, List.singleton_append, ← List.append_assoc] at hopen
      rw [stretchesFrom, if_pos (decide_eq_true hd), ← hopen]
      cases cur with
      | nil => simp only [ends, runsFrom, if_pos hd, Option.elim_none]
      | cons a l => simp only [ends, runsFrom, if_pos hd, Option.elim_some]
    · have hclosed := ih (before ++ cur ++ [d]) [] (by simpa using hsorted)
      rw [List.append_nil, List.append_assoc, List.singleton_append] at hclosed
      rw [stretchesFrom, if_neg (by simpa using hd), List.map_append, ← hclosed]
      cases cur with
      | nil => simp only [ends, runsFrom, if_neg hd, closed_nil, List.map_nil, List.nil_append]
      | cons a l =>
        have hcount := count_eq hsorted
        simp only [ends, runsFrom, if_neg hd, closed, List.isEmpty_cons, Bool.false_eq_true, if_false, List.map_cons,
          List.map_nil, gapOf, hcount, List.singleton_append]

theorem runs_eq (hsorted : expected.Pairwise (· < ·)) :
    runs expected present = (stretches (fun d => decide (d ∉ present)) expected).map gapOf :=
  runsFrom_eq [] [] hsorted

/-- **The gaps that are reported**: the runs are stretches of weekdays without a bar that could not be longer, each with
its first day, its last day and its length. Put together, they are the weekdays that are missing, and those that are left
out are not longer than the ones that are reported, of which the longest come first. -/
theorem largestGaps_spec (start endDate : ℤ) (present : List ℤ) (top : ℕ) :
    (∃ gaps : List (List ℤ), runs (weekdays start endDate) present = gaps.map gapOf ∧
      (∀ s ∈ gaps, IsStretch (fun d => decide (d ∉ present)) (weekdays start endDate) s) ∧
      gaps.flatten = (weekdays start endDate).filter fun d => d ∉ present) ∧
    ∃ others, (topRuns (weekdays start endDate) present top ++ others).Perm (runs (weekdays start endDate) present) ∧
      (topRuns (weekdays start endDate) present top ++ others).Pairwise (fun a b => b.2.2 ≤ a.2.2) ∧
      (others ≠ [] → (topRuns (weekdays start endDate) present top).length = top) := by
  have hsorted : (weekdays start endDate).Pairwise (· < ·) := weekdays_pairwise
  refine ⟨⟨_, runs_eq hsorted, fun s hs => isStretch_of_mem hs, flatten_stretches _⟩,
    (orderByDesc (fun g : Gap => g.2.2) (runs (weekdays start endDate) present)).drop top, ?_, ?_, ?_⟩
  · rw [topRuns, List.take_append_drop]
    exact orderBy_perm
  · rw [topRuns, List.take_append_drop]
    exact orderByDesc_le
  · intro hothers
    have hlt := List.length_pos_iff.mpr hothers
    rw [List.length_drop] at hlt
    rw [topRuns, List.length_take]
    omega

end

end StratTrader.Backtest.Data
