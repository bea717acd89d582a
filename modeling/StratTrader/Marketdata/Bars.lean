import StratTrader.Foundation.Upserts
import StratTrader.Orders.Ingest
import Mathlib.Data.List.Range
import Mathlib.Data.Rat.Defs
import Mathlib.Tactic.Linarith
import Mathlib.Tactic.Ring

/-!
# The stored bars

`upsert_bars` and `missing_bars` of `marketdata/services.py`: bars are written one after another over what is there,
and the instants of a range are looked through for those that have none.

## What is proved

* `upsertBars_find`, `upsertBars_count`, `upsertBars_twice`: behind an upsert a key has the last bar that was written
  with it, as many bars are new as were created, and the same upsert again changes and creates nothing, also where it
  raises on the way.
* `missingBars_eq`: what is missing are the instants of the range, less the weekends of daily bars and those stored.
* `missingBars_upsert`: an upsert takes from what is missing the instants that it has written, and nothing else.

## Honest scope

The columns' rounding and lengths are left out. An instant is a number of microseconds, and day one of the calendar is
a Monday. An aware datetime is in UTC.
-/

namespace StratTrader.Marketdata

open StratTrader.Foundation StratTrader.Orders

/-! ### Instants -/

/-- A day. -/
def dayMicros : ℤ := 86400000000

/-- `ts.date()`, as its ordinal. -/
def dateOf (ts : ℤ) : ℤ := ts / dayMicros

/-- `weekday()` of an ordinal: Monday is zero. -/
def weekday (day : ℤ) : ℤ := (day + 6) % 7

/-- `_TF_DELTA`. -/
def tfDelta (tf : String) : Option ℤ :=
  if tf = "1m" then some 60000000
  else if tf = "5m" then some 300000000
  else if tf = "15m" then some 900000000
  else if tf = "1h" then some 3600000000
  else if tf = "1d" then some dayMicros
  else none

theorem tfDelta_pos {tf : String} {delta : ℤ} (h : tfDelta tf = some delta) : 0 < delta := by
  unfold tfDelta dayMicros at h
  split_ifs at h <;> cases h <;> decide

/-! ### `upsert_bars` -/

/-- `Bar`. -/
structure Bar where
  /-- `symbol`. -/
  symbol : String
  /-- `tf`. -/
  tf : String
  /-- `ts`. -/
  ts : ℤ
  /-- `open`. -/
  open_ : ℚ
  /-- `high`. -/
  high : ℚ
  /-- `low`. -/
  low : ℚ
  /-- `close`. -/
  close : ℚ
  /-- `volume`. -/
  volume : ℤ
  /-- `source`. -/
  source : String
  deriving DecidableEq

/-- The unique key. -/
def Bar.key (b : Bar) : String × String × ℤ := (b.symbol, b.tf, b.ts)

/-- The `ts` of a row. -/
inductive RowTs where
  /-- A text. -/
  | text (s : String)
  /-- A datetime, which is taken as UTC if it is naive. -/
  | datetime (t : ℤ)

/-- A row, with what `_dec` and `int` make of its values, if they do not raise. -/
structure BarRow where
  /-- `r["ts"]`. -/
  ts : RowTs
  /-- `_dec(r["open"])`. -/
  open_ : Option ℚ
  /-- `_dec(r["high"])`. -/
  high : Option ℚ
  /-- `_dec(r["low"])`. -/
  low : Option ℚ
  /-- `_dec(r["close"])`. -/
  close : Option ℚ
  /-- `int(r.get("volume", 0) or 0)`. -/
  volume : Option ℤ := some 0
  /-- `r.get("source", "FMP")`. -/
  source : String := "FMP"

section
variable (parseDatetime : String → ParsedDatetime) (upper : String → String) (symbol tf : String)

/-- The instant of a row: none if it raises, and none in it if the row is skipped. -/
def BarRow.instant (r : BarRow) : Option (Option ℤ) :=
  match r.ts with
  | .datetime t => some (some t)
  | .text s =>
    match parseDatetime s with
    | .invalid => none
    | .malformed => some none
    | .naive t | .aware t => some (some t)

/-- The bar of a row: none if it raises, and none in it if the row is skipped. -/
def BarRow.bar (r : BarRow) : Option (Option Bar) :=
  match r.instant parseDatetime with
  | none => none
  | some none => some none
  | some (some ts) =>
    match r.open_, r.high, r.low, r.close, r.volume with
    | some open_, some high, some low, some close, some volume =>
      some (some ⟨upper symbol, tf, ts, open_, high, low, close, volume, r.source⟩)
    | _, _, _, _, _ => none

/-- The counts of an upsert. -/
structure UpsertCounts where
  /-- `created`. -/
  created : ℕ
  /-- `updated`. -/
  updated : ℕ
  deriving DecidableEq

/-- `upsert_bars`, with the counts so far: the table, and the counts unless it raises. -/
def upsertFrom (bars : Table Bar.key) (created updated : ℕ) : List BarRow → Table Bar.key × Option UpsertCounts
  | [] => (bars, some ⟨created, updated⟩)
  | r :: rows =>
    match r.bar parseDatetime upper symbol tf with
    | none => (bars, none)
    | some none => upsertFrom bars created updated rows
    | some (some bar) =>
      if (bars.find? bar.key).isSome then upsertFrom (bars.put bar) created (updated + 1) rows
      else upsertFrom (bars.put bar) (created + 1) updated rows

/-- `upsert_bars`. -/
def upsertBars (bars : Table Bar.key) (rows : List BarRow) : Table Bar.key × Option UpsertCounts :=
  upsertFrom parseDatetime upper symbol tf bars 0 0 rows

/-- The bars that an upsert writes: those of the rows before the first that raises. -/
def written : List BarRow → List Bar
  | [] => []
  | r :: rows =>
    match r.bar parseDatetime upper symbol tf with
    | none => []
    | some none => written rows
    | some (some bar) => bar :: written rows

variable {parseDatetime upper symbol tf}
variable {bars : Table Bar.key} {rows : List BarRow} {created updated : ℕ}

/-- An upsert writes its bars, one after another. -/
theorem upsertFrom_table : (upsertFrom parseDatetime upper symbol tf bars created updated rows).1 =
    bars.putAll (written parseDatetime upper symbol tf rows) := by
  induction rows generalizing bars created updated with
  | nil => rfl
  | cons r rows ih =>
    unfold upsertFrom written
    cases hrow : r.bar parseDatetime upper symbol tf with
    | none => rfl
    | some skipped =>
      cases skipped with
      | none => exact ih
      | some bar =>
        dsimp only
        split_ifs
        · exact ih
        · exact ih

/-- Its counts are those of its bars, and the table has grown by what was created. -/
theorem upsertFrom_count {counts : UpsertCounts}
    (h : (upsertFrom parseDatetime upper symbol tf bars created updated rows).2 = some counts) :
    counts.created + counts.updated = created + updated + (written parseDatetime upper symbol tf rows).length ∧
      (bars.putAll (written parseDatetime upper symbol tf rows)).rows.length + created =
        bars.rows.length + counts.created := by
  induction rows generalizing bars created updated with
  | nil =>
    cases h
    exact ⟨rfl, rfl⟩
  | cons r rows ih =>
    unfold upsertFrom at h
    unfold written
    cases hrow : r.bar parseDatetime upper symbol tf with
    | none =>
      rw [hrow] at h
      cases h
    | some skipped =>
      rw [hrow] at h
      cases skipped with
      | none => exact ih h
      | some bar =>
        have hlength := Table.length_put bars bar
        dsimp only at h ⊢
        rw [Table.putAll_cons, List.length_cons]
        split_ifs at h hlength
        · obtain ⟨hsum, hrows⟩ := ih h
          omega
        · obtain ⟨hsum, hrows⟩ := ih h
          omega

/-- Where every bar is known, nothing is created. -/
theorem upsertFrom_known
    (hknown : ∀ bar ∈ written parseDatetime upper symbol tf rows, (bars.find? bar.key).isSome = true) :
    ∀ counts, (upsertFrom parseDatetime upper symbol tf bars created updated rows).2 = some counts →
      counts.created = created := by
  induction rows generalizing bars created updated with
  | nil =>
    intro counts h
    cases h
    rfl
  | cons r rows ih =>
    intro counts h
    unfold upsertFrom at h
    unfold written at hknown
    cases hrow : r.bar parseDatetime upper symbol tf with
    | none =>
      rw [hrow] at h
      cases h
    | some skipped =>
      rw [hrow] at h hknown
      cases skipped with
      | none => exact ih hknown counts h
      | some bar =>
        dsimp only at h
        rw [if_pos (hknown bar List.mem_cons_self)] at h
        exact ih (fun b hb => Table.isSome_find?_put bar (hknown b (List.mem_cons_of_mem _ hb))) counts h

/-- An upsert raises where a row does. -/
theorem upsertFrom_isSome : (upsertFrom parseDatetime upper symbol tf bars created updated rows).2.isSome =
    rows.all fun r => (r.bar parseDatetime upper symbol tf).isSome := by
  induction rows generalizing bars created updated with
  | nil => rfl
  | cons r rows ih =>
    rw [List.all_cons]
    unfold upsertFrom
    cases hrow : r.bar parseDatetime upper symbol tf with
    | none => rfl
    | some skipped =>
      cases skipped with
      | none => exact ih
      | some bar =>
        dsimp only
        split_ifs <;> exact ih

/-- **A key has the last bar** that was written with it, or the bar that it had. -/
theorem upsertBars_find (bars : Table Bar.key) (rows : List BarRow) (k : String × String × ℤ) :
    (upsertBars parseDatetime upper symbol tf bars rows).1.find? k =
      (Table.lastWith Bar.key (written parseDatetime upper symbol tf rows) k).or (bars.find? k) := by
  rw [upsertBars, upsertFrom_table, Table.find?_putAll]

/-- Each bar is new or not, and as many are new as the table has grown by. -/
theorem upsertBars_count {counts : UpsertCounts}
    (h : (upsertBars parseDatetime upper symbol tf bars rows).2 = some counts) :
    counts.created + counts.updated = (written parseDatetime upper symbol tf rows).length ∧
      (upsertBars parseDatetime upper symbol tf bars rows).1.rows.length = bars.rows.length + counts.created := by
  obtain ⟨hsum, hrows⟩ := upsertFrom_count h
  rw [upsertBars, upsertFrom_table]
  omega

/-- **The same upsert again** changes nothing and creates nothing, and it raises where it did. -/
theorem upsertBars_twice (bars : Table Bar.key) (rows : List BarRow) :
    (upsertBars parseDatetime upper symbol tf (upsertBars parseDatetime upper symbol tf bars rows).1 rows) =
      ((upsertBars parseDatetime upper symbol tf bars rows).1,
        (upsertBars parseDatetime upper symbol tf bars rows).2.map fun counts =>
          ⟨0, counts.created + counts.updated⟩) := by
  have htable : (upsertBars parseDatetime upper symbol tf bars rows).1 =
      bars.putAll (written parseDatetime upper symbol tf rows) := upsertFrom_table
  refine Prod.ext ?_ ?_
  · rw [upsertBars, upsertFrom_table, htable, Table.putAll_putAll]
  · have hknown : ∀ bar ∈ written parseDatetime upper symbol tf rows,
        ((upsertBars parseDatetime upper symbol tf bars rows).1.find? bar.key).isSome = true := by
      intro bar hbar
      rw [upsertBars_find, Option.isSome_or, Table.lastWith_isSome hbar, Bool.true_or]
    have hraises : (upsertBars parseDatetime upper symbol tf
        (upsertBars parseDatetime upper symbol tf bars rows).1 rows).2.isSome =
          (upsertBars parseDatetime upper symbol tf bars rows).2.isSome :=
      upsertFrom_isSome.trans upsertFrom_isSome.symm
    cases hfirst : (upsertBars parseDatetime upper symbol tf bars rows).2 with
    | none =>
      rw [hfirst, Option.isSome_none, Option.isSome_eq_false_iff, Option.isNone_iff_eq_none] at hraises
      exact hraises
    | some counts =>
      rw [hfirst, Option.isSome_some] at hraises
      obtain ⟨again, hagain⟩ := Option.isSome_iff_exists.mp hraises
      have hcreated : again.created = 0 := upsertFrom_known hknown again hagain
      have hsum := (upsertBars_count hfirst).1
      have hsum' := (upsertBars_count hagain).1
      have hupdated : again.updated = counts.created + counts.updated := by omega
      rw [hagain, Option.map_some, ← hcreated, ← hupdated]

end

/-! ### `missing_bars` -/

/-- The loop of `missing_bars`, from an instant on, in so many turns. -/
def missingFrom (has : ℤ → Bool) (tf : String) (delta endTs : ℤ) : ℕ → ℤ → Option (List ℤ)
  | 0, _ => none
  | n + 1, cur =>
    if cur ≤ endTs then
      if tf = "1d" ∧ 5 ≤ weekday (dateOf cur) then missingFrom has tf delta endTs n (cur + delta)
      else if has cur then missingFrom has tf delta endTs n (cur + delta)
      else (missingFrom has tf delta endTs n (cur + delta)).map (cur :: ·)
    else some []

/-- A bar is stored for the instant, and within the range. -/
def hasBar (bars : Table Bar.key) (symbol tf : String) (start endTs ts : ℤ) : Bool :=
  bars.rows.any fun b => b.symbol == symbol && b.tf == tf && decide (start ≤ b.ts) && decide (b.ts ≤ endTs) && b.ts == ts

/-- `missing_bars`; none if the loop is not over in the turns that it is given. -/
def missingBars (upper : String → String) (bars : Table Bar.key) (symbol tf : String) (start endTs : ℤ) :
    Option (List ℤ) :=
  match tfDelta tf with
  | none => some []
  | some delta => missingFrom (hasBar bars (upper symbol) tf start endTs) tf delta endTs
      (((endTs - start) / delta).toNat + 2) start

/-- The instants of a range. -/
def instants (delta endTs : ℤ) (start : ℤ) : List ℤ :=
  if start ≤ endTs then (List.range (((endTs - start) / delta).toNat + 1)).map fun i : ℕ => start + i * delta else []

/-- The instants at which a bar is expected. -/
def expectedBars (tf : String) (start endTs : ℤ) : List ℤ :=
  match tfDelta tf with
  | none => []
  | some delta => (instants delta endTs start).filter fun ts => ¬(tf = "1d" ∧ 5 ≤ weekday (dateOf ts))

section
variable {delta endTs cur : ℤ}

/-- The first instant, and those behind it. -/
theorem instants_of_le (hdelta : 0 < delta) (hle : cur ≤ endTs) :
    instants delta endTs cur = cur :: instants delta endTs (cur + delta) := by
  have hquot : (endTs - (cur + delta)) / delta = (endTs - cur) / delta - 1 := by
    have hshift := Int.add_mul_ediv_right (endTs - cur) (-1) hdelta.ne'
    rw [← sub_eq_add_neg] at hshift
    rw [← hshift]
    congr 1
    ring
  have hnonneg : 0 ≤ (endTs - cur) / delta := Int.ediv_nonneg (sub_nonneg.mpr hle) hdelta.le
  unfold instants
  rw [if_pos hle, List.range_succ_eq_map, List.map_cons, List.map_map]
  congr 1
  · simp
  split_ifs with hnext
  · have hturns : ((endTs - cur) / delta).toNat = ((endTs - (cur + delta)) / delta).toNat + 1 := by
      have hnonneg' : 0 ≤ (endTs - (cur + delta)) / delta := Int.ediv_nonneg (sub_nonneg.mpr hnext) hdelta.le
      omega
    rw [hturns]
    refine List.map_congr_left fun i _ => ?_
    simp only [Function.comp, Nat.succ_eq_add_one, Nat.cast_add, Nat.cast_one]
    ring
  · have hzero : (endTs - cur) / delta = 0 := Int.ediv_eq_zero_of_lt (sub_nonneg.mpr hle) (by omega)
    rw [hzero]
    rfl

theorem mem_instants (hdelta : 0 < delta) {ts : ℤ} :
    ts ∈ instants delta endTs cur ↔ cur ≤ ts ∧ ts ≤ endTs ∧ delta ∣ ts - cur := by
  unfold instants
  constructor
  · intro hts
    split_ifs at hts with hle
    · obtain ⟨i, hi, rfl⟩ := List.mem_map.mp hts
      rw [List.mem_range] at hi
      have hnonneg : 0 ≤ (endTs - cur) / delta := Int.ediv_nonneg (sub_nonneg.mpr hle) hdelta.le
      have hlast : (i : ℤ) * delta ≤ endTs - cur := by
        refine (Int.le_ediv_iff_mul_le hdelta).mp ?_
        omega
      have hfirst : 0 ≤ (i : ℤ) * delta := Int.mul_nonneg (Int.natCast_nonneg i) hdelta.le
      exact ⟨by omega, by omega, ⟨i, by ring⟩⟩
    · cases hts
  · rintro ⟨hfirst, hlast, k, hk⟩
    have hle : cur ≤ endTs := hfirst.trans hlast
    rw [if_pos hle]
    have hk0 : 0 ≤ k := by
      refine Int.le_of_mul_le_mul_left (a := delta) ?_ hdelta
      omega
    have hkle : k ≤ (endTs - cur) / delta := by
      refine (Int.le_ediv_iff_mul_le hdelta).mpr ?_
      rw [mul_comm]
      omega
    refine List.mem_map.mpr ⟨k.toNat, List.mem_range.mpr (by omega), ?_⟩
    rw [Int.toNat_of_nonneg hk0, mul_comm, ← hk]
    ring

variable {has : ℤ → Bool} {tf : String}

/-- The loop is over when the range is, and leaves out the weekends and what is there. -/
theorem missingFrom_eq (hdelta : 0 < delta) {n : ℕ} (hn : ((endTs - cur) / delta + 1).toNat < n) :
    missingFrom has tf delta endTs n cur = some ((instants delta endTs cur).filter fun ts =>
      ¬(tf = "1d" ∧ 5 ≤ weekday (dateOf ts)) && !has ts) := by
  induction n generalizing cur with
  | zero => exact absurd hn (Nat.not_lt_zero _)
  | succ n ih =>
    unfold missingFrom
    by_cases hle : cur ≤ endTs
    · have hquot : (endTs - (cur + delta)) / delta + 1 = (endTs - cur) / delta := by
        have hshift := Int.add_mul_ediv_right (endTs - (cur + delta)) 1 hdelta.ne'
        rw [← hshift]
        congr 1
        ring
      have hnonneg : 0 ≤ (endTs - cur) / delta := Int.ediv_nonneg (sub_nonneg.mpr hle) hdelta.le
      have hrest : missingFrom has tf delta endTs n (cur + delta) = some _ := ih (by rw [hquot]; omega)
      rw [if_pos hle, hrest, instants_of_le hdelta hle]
      by_cases hweekend : tf = "1d" ∧ 5 ≤ weekday (dateOf cur)
      · rw [if_pos hweekend, List.filter_cons_of_neg (by simp [hweekend])]
      · cases hhas : has cur with
        | true => rw [if_neg hweekend, if_pos rfl, List.filter_cons_of_neg (by simp [hhas])]
        | false =>
          have hexpected : (decide ¬(tf = "1d" ∧ 5 ≤ weekday (dateOf cur)) && !has cur) = true := by
            rw [decide_eq_true hweekend, hhas]
            rfl
          rw [if_neg hweekend, if_neg Bool.false_ne_true, List.filter_cons, if_pos hexpected]
          rfl
    · rw [if_neg hle]
      unfold instants
      rw [if_neg hle, List.filter_nil]

end

section
variable {bars : Table Bar.key} {symbol tf : String} {start endTs : ℤ} {upper : String → String}

theorem hasBar_iff {ts : ℤ} (hstart : start ≤ ts) (hend : ts ≤ endTs) :
    hasBar bars symbol tf start endTs ts = (bars.find? (symbol, tf, ts)).isSome := by
  rw [Bool.eq_iff_iff]
  constructor
  · intro h
    obtain ⟨b, hb, hall⟩ := List.any_eq_true.mp h
    simp only [Bool.and_eq_true, beq_iff_eq] at hall
    have hkey : Bar.key b = (symbol, tf, ts) := by simp [Bar.key, hall]
    rw [Table.find?_eq_some.mpr ⟨hb, hkey⟩]
    rfl
  · intro h
    obtain ⟨b, hfind⟩ := Option.isSome_iff_exists.mp h
    obtain ⟨hb, hkey⟩ := Table.find?_eq_some.mp hfind
    simp only [Bar.key, Prod.mk.injEq] at hkey
    refine List.any_eq_true.mpr ⟨b, hb, ?_⟩
    simp [hkey, hstart, hend]

/-- **What is missing**: the instants at which a bar is expected and none is stored. -/
theorem missingBars_eq : missingBars upper bars symbol tf start endTs = some ((expectedBars tf start endTs).filter
    fun ts => (bars.find? (upper symbol, tf, ts)).isNone) := by
  unfold missingBars expectedBars
  cases htf : tfDelta tf with
  | none => rfl
  | some delta =>
    have hdelta := tfDelta_pos htf
    dsimp only
    rw [missingFrom_eq hdelta (by omega), List.filter_filter, Option.some.injEq]
    refine List.filter_congr fun ts hts => ?_
    obtain ⟨hstart, hend, -⟩ := (mem_instants hdelta).mp hts
    rw [hasBar_iff hstart hend, Bool.and_comm]
    cases bars.find? (upper symbol, tf, ts) <;> simp

variable {parseDatetime : String → ParsedDatetime} {rows : List BarRow}

theorem key_of_written {bar : Bar} (h : bar ∈ written parseDatetime upper symbol tf rows) :
    bar.symbol = upper symbol ∧ bar.tf = tf := by
  induction rows with
  | nil => cases h
  | cons r rows ih =>
    unfold written at h
    split at h
    · cases h
    · exact ih h
    · case h_3 bar' hrow =>
      rcases List.mem_cons.mp h with rfl | hrest
      · unfold BarRow.bar at hrow
        split at hrow
        · cases hrow
        · cases hrow
        · split at hrow
          · cases hrow
            exact ⟨rfl, rfl⟩
          · cases hrow
      · exact ih hrest

/-- **The loop ends, and an upsert takes from what is missing** the instants that it has written, and nothing else. -/
theorem missingBars_upsert (bars : Table Bar.key) :
    ∃ missing, missingBars upper bars symbol tf start endTs = some missing ∧
      missingBars upper (upsertBars parseDatetime upper symbol tf bars rows).1 symbol tf start endTs =
        some (missing.filter fun ts => ts ∉ (written parseDatetime upper symbol tf rows).map Bar.ts) := by
  refine ⟨_, missingBars_eq, ?_⟩
  rw [missingBars_eq, List.filter_filter, Option.some.injEq]
  refine List.filter_congr fun ts _ => ?_
  have hwritten : (Table.lastWith Bar.key (written parseDatetime upper symbol tf rows) (upper symbol, tf, ts)).isNone =
      decide (ts ∉ (written parseDatetime upper symbol tf rows).map Bar.ts) := by
    rw [Bool.eq_iff_iff, Option.isNone_iff_eq_none, Table.lastWith_eq_none, decide_eq_true_iff, List.mem_map]
    constructor
    · rintro hnone ⟨bar, hbar, rfl⟩
      obtain ⟨hsymbol, htf⟩ := key_of_written hbar
      exact hnone bar hbar (by simp [Bar.key, hsymbol, htf])
    · intro hnone bar hbar hkey
      simp only [Bar.key, Prod.mk.injEq] at hkey
      exact hnone ⟨bar, hbar, hkey.2.2⟩
  rw [upsertBars_find, ← hwritten]
  cases Table.lastWith Bar.key (written parseDatetime upper symbol tf rows) (upper symbol, tf, ts) <;> simp

end

end StratTrader.Marketdata
