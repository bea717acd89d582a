import StratTrader.Screener.Enrich
import StratTrader.Screener.Raises
import StratTrader.Screener.Tasks

/-!
# The enrichment of the candidates

`_enrich_candidates` of `screener/tasks.py`: the daily bars of one candidate after another are asked for. A client error
costs the candidate; a limit, an open circuit or an outage costs the rest of them.

## What is proved

* `accounts_of_ok`: what a run that ends has counted, and which rows it gives.
* `enrichCandidates_accounts_iff`: it ends, with every candidate accounted for, where no price that is fetched
  overflows.

## Honest scope

What the client answers is free, and may depend on all it was asked before. The bars are also stored, which cannot fail
here. A symbol is a text, if it is there at all.
-/

namespace StratTrader.Screener

open Foundation (bind_eq_ok_iff)

/-- What `daily_bars` returns or raises. -/
inductive Fetch (F : Type) where
  /-- Bars. -/
  | bars (bars : List (DailyBar F))
  /-- `FMPRateLimited`. -/
  | rateLimited
  /-- `FMPCircuitOpen`. -/
  | circuitOpen
  /-- `FMPServerError`. -/
  | serverError
  /-- A bare `FMPError`. -/
  | clientError

/-- A count that a candidate may be booked under. -/
inductive Booking where
  /-- `enriched`. -/
  | enriched
  /-- `insufficient_history`. -/
  | insufficientHistory
  /-- `skipped_rate_limited`. -/
  | skippedRateLimited
  /-- `skipped_unavailable`. -/
  | skippedUnavailable
  deriving DecidableEq

/-- Whether the candidate is skipped. -/
def Booking.isSkipped : Booking → Bool
  | enriched | insufficientHistory => false
  | skippedRateLimited | skippedUnavailable => true

/-- `counts`. -/
structure Counts where
  /-- `vendor_matches`. -/
  vendorMatches : ℕ := 0
  /-- `returned`. -/
  returned : ℕ := 0
  /-- The other counts. -/
  of : Booking → ℕ := fun _ => 0

/-- The dict. -/
def Counts.entries (c : Counts) : List (String × ℕ) :=
  [("vendor_matches", c.vendorMatches), ("enriched", c.of .enriched), ("returned", c.returned),
    ("insufficient_history", c.of .insufficientHistory), ("skipped_rate_limited", c.of .skippedRateLimited),
    ("skipped_unavailable", c.of .skippedUnavailable)]

/-- The dict in the beginning is `_empty_counts()`. -/
example : ({} : Counts).entries = emptyCounts := rfl

/-- `counts[booking] += n`. -/
def Counts.add (c : Counts) (booking : Booking) (n : ℕ) : Counts :=
  { c with of := Function.update c.of booking (c.of booking + n) }

theorem Counts.of_add (c : Counts) (booking : Booking) (n : ℕ) (b : Booking) :
    (c.add booking n).of b = c.of b + if booking = b then n else 0 := by
  unfold Counts.add
  by_cases h : booking = b
  · rw [if_pos h, ← h]
    exact Function.update_self ..
  · rw [if_neg h]
    exact Function.update_of_ne (Ne.symm h) ..

/-- What the loop keeps. -/
structure LoopState (σ F V : Type) where
  /-- The client. -/
  client : σ
  /-- `rows`. -/
  rows : List (ResultRow F V) := []
  /-- `degraded`. -/
  degraded : Bool := false
  /-- `counts`. -/
  counts : Counts

section
variable {σ F V : Type} [MetricFloat F] (py : PyStr) (dailyBars : σ → String → Fetch F × σ) (derived : Derived F)

/-- Candidates are skipped. -/
def LoopState.skip (st : LoopState σ F V) (booking : Booking) (n : ℕ) : LoopState σ F V :=
  { st with degraded := true, counts := st.counts.add booking n }

/-- What becomes of a candidate whose metrics are computed. -/
def LoopState.examine (st : LoopState σ F V) (row : VendorRow V) : Option (Metrics F) → LoopState σ F V
  | none => { st with counts := st.counts.add .insufficientHistory 1 }
  | some m =>
    if m.nBars < derived.minHistory then { st with counts := st.counts.add .insufficientHistory 1 }
    else
      { st with
        counts := st.counts.add .enriched 1
        rows := if passes m derived then st.rows ++ [resultRow py row (some m)] else st.rows }

/-- The body of the loop, and whether the loop goes on. -/
def enrichStep (total index : ℕ) (row : VendorRow V) (st : LoopState σ F V) :
    Except FloatError (Bool × LoopState σ F V) :=
  if row.upperSymbol py = "" then .ok (true, st.skip .skippedUnavailable 1)
  else
    let (answer, client) := dailyBars st.client (row.upperSymbol py)
    let st := { st with client := client }
    match answer with
    | .rateLimited | .circuitOpen => .ok (false, st.skip .skippedRateLimited (total - index))
    | .serverError => .ok (false, st.skip .skippedUnavailable (total - index))
    | .clientError => .ok (true, st.skip .skippedUnavailable 1)
    | .bars bars => do
      let metrics ← computeMetrics bars
      return (true, st.examine py derived row metrics)

/-- The loop. -/
def enrichFrom (total : ℕ) : ℕ → List (VendorRow V) → LoopState σ F V → Except FloatError (LoopState σ F V)
  | _, [], st => .ok st
  | index, row :: rest, st => do
    let (goes, st) ← enrichStep py dailyBars derived total index row st
    if goes then enrichFrom total (index + 1) rest st else return st

/-- `_enrich_candidates`. -/
def enrichCandidates (client : σ) (candidates : List (VendorRow V)) (counts : Counts) :
    Except FloatError (LoopState σ F V) :=
  enrichFrom py dailyBars derived candidates.length 0 candidates { client := client, counts := counts }

/-! ### What the candidates are owed -/

/-- What is learned about a candidate. -/
inductive Record (F : Type) where
  /-- Its bars. -/
  | bars (bars : List (DailyBar F))
  /-- That a limit or an open circuit costs it. -/
  | rateLimited
  /-- That an error costs it, or its lack of a symbol. -/
  | unavailable

/-- What is learned about each of the candidates, in their order. -/
def recorded : σ → List (VendorRow V) → List (VendorRow V × Record F)
  | _, [] => []
  | client, row :: rest =>
    if row.upperSymbol py = "" then (row, .unavailable) :: recorded client rest
    else
      match dailyBars client (row.upperSymbol py) with
      | (.bars bars, client) => (row, .bars bars) :: recorded client rest
      | (.clientError, client) => (row, .unavailable) :: recorded client rest
      | (.rateLimited, _) | (.circuitOpen, _) => (row :: rest).map (·, .rateLimited)
      | (.serverError, _) => (row :: rest).map (·, .unavailable)

/-- The metrics of bars that are enough. -/
def longMetrics (bars : List (DailyBar F)) : Option (Metrics F) :=
  match computeMetrics bars with
  | .ok (some m) => if m.nBars < derived.minHistory then none else some m
  | _ => none

/-- Where a candidate is booked. -/
def Record.booking : Record F → Booking
  | .bars found => if (longMetrics derived found).isSome then .enriched else .insufficientHistory
  | .rateLimited => .skippedRateLimited
  | .unavailable => .skippedUnavailable

/-- The row of a candidate that passes. -/
def passingRow : VendorRow V × Record F → Option (ResultRow F V)
  | (row, .bars found) =>
    ((longMetrics derived found).filter fun m => passes m derived).map fun m => resultRow py row (some m)
  | (_, .rateLimited) | (_, .unavailable) => none

/-- The candidates that are booked under a count. -/
def countOf (records : List (VendorRow V × Record F)) (b : Booking) : ℕ :=
  records.countP fun p => decide (p.2.booking derived = b)

omit [MetricFloat F] in
/-- Every candidate is there, in order. -/
theorem map_fst_recorded (client : σ) (candidates : List (VendorRow V)) :
    (recorded py dailyBars client candidates).map Prod.fst = candidates := by
  have hall (record : Record F) (rows : List (VendorRow V)) : (rows.map (·, record)).map Prod.fst = rows := by
    rw [List.map_map]
    exact List.map_id rows
  induction candidates generalizing client with
  | nil => rfl
  | cons row rest ih =>
    unfold recorded
    split
    · exact congrArg _ (ih client)
    · split
      · exact congrArg _ (ih _)
      · exact congrArg _ (ih _)
      · exact hall _ _
      · exact hall _ _
      · exact hall _ _

/-- What candidates of whom that is learned do to the state. -/
structure Accounts (records : List (VendorRow V × Record F)) (st st' : LoopState σ F V) : Prop where
  /-- Every candidate is booked where it belongs. -/
  counts : ∀ b, st'.counts.of b = st.counts.of b + countOf derived records b
  /-- The rows. -/
  rows : st'.rows = st.rows ++ records.filterMap (passingRow py derived)
  /-- Whether someone is skipped. -/
  degraded : st'.degraded = true ↔ st.degraded = true ∨ ∃ p ∈ records, (p.2.booking derived).isSkipped = true

/-! ### One candidate -/

/-- What a turn of the loop does, and what it learns about its candidate. -/
inductive Turn (total index : ℕ) (row : VendorRow V) (st : LoopState σ F V) :
    Except FloatError (Bool × LoopState σ F V) → Prop where
  /-- The candidate is skipped. -/
  | skips (client : σ)
    (hnext : ∀ rest,
      recorded py dailyBars st.client (row :: rest) = (row, .unavailable) :: recorded py dailyBars client rest) :
    Turn total index row st (.ok (true, { st with client := client }.skip .skippedUnavailable 1))
  /-- All the rest are skipped. -/
  | stops (client : σ) (record : Record F) (hskipped : (record.booking derived).isSkipped = true)
    (hnorow : ∀ row, passingRow py derived (row, record) = (none : Option (ResultRow F V)))
    (hnext : ∀ rest, recorded py dailyBars st.client (row :: rest) = (row :: rest).map (·, record)) :
    Turn total index row st (.ok (false, { st with client := client }.skip (record.booking derived) (total - index)))
  /-- The bars are fetched. -/
  | fetches (client : σ) (bars : List (DailyBar F))
    (hnext : ∀ rest,
      recorded py dailyBars st.client (row :: rest) = (row, .bars bars) :: recorded py dailyBars client rest) :
    Turn total index row st (do
      let metrics ← computeMetrics bars
      return (true, { st with client := client }.examine py derived row metrics))

theorem turn_enrichStep (total index : ℕ) (row : VendorRow V) (st : LoopState σ F V) :
    Turn py dailyBars derived total index row st (enrichStep py dailyBars derived total index row st) := by
  unfold enrichStep
  split_ifs with hsymbol
  · exact .skips st.client fun rest => by rw [recorded, if_pos hsymbol]
  · have hnext (rest : List (VendorRow V)) := by
      simpa only [if_neg hsymbol] using recorded.eq_2 py dailyBars st.client row rest
    cases hanswer : dailyBars st.client (row.upperSymbol py) with
    | mk answer client =>
      rw [hanswer] at hnext
      cases answer with
      | bars bars => exact .fetches client bars hnext
      | clientError => exact .skips client hnext
      | rateLimited => exact .stops client .rateLimited rfl (fun _ => rfl) hnext
      | circuitOpen => exact .stops client .rateLimited rfl (fun _ => rfl) hnext
      | serverError => exact .stops client .unavailable rfl (fun _ => rfl) hnext

variable {py dailyBars derived}

/-- A candidate whose bars are fetched is not skipped. -/
theorem isSkipped_bars (bars : List (DailyBar F)) : (Record.booking derived (.bars bars)).isSkipped = false := by
  simp only [Record.booking]
  split_ifs <;> rfl

theorem countOf_cons (p : VendorRow V × Record F) (records : List (VendorRow V × Record F)) (b : Booking) :
    countOf derived (p :: records) b = (if p.2.booking derived = b then 1 else 0) + countOf derived records b := by
  unfold countOf
  rw [List.countP_cons, Nat.add_comm]
  simp only [decide_eq_true_eq]

/-- Candidates of whom the same is learned are booked alike. -/
theorem countOf_map (rows : List (VendorRow V)) (record : Record F) (b : Booking) :
    countOf derived (rows.map (·, record)) b = if record.booking derived = b then rows.length else 0 := by
  induction rows with
  | nil => exact (ite_self 0).symm
  | cons row rows ih =>
    rw [List.map_cons, countOf_cons, ih, List.length_cons]
    split_ifs
    · exact Nat.add_comm _ _
    · rfl

/-- A candidate that is skipped, and then the rest. -/
theorem Accounts.skip {row : VendorRow V} {records : List (VendorRow V × Record F)} {st st' : LoopState σ F V} {client : σ}
    (h : Accounts py derived records ({ st with client := client }.skip .skippedUnavailable 1) st') :
    Accounts py derived ((row, .unavailable) :: records) st st' where
  counts b := by
    rw [h.counts, countOf_cons, ← Nat.add_assoc]
    exact congrArg (· + _) (Counts.of_add _ _ _ _)
  rows := h.rows
  degraded := by
    have hskipped : ∃ p ∈ (row, Record.unavailable) :: records, (p.2.booking derived).isSkipped = true :=
      ⟨_, .head _, rfl⟩
    exact ⟨fun _ => .inr hskipped, fun _ => h.degraded.mpr (.inl rfl)⟩

/-- The rest are skipped. -/
theorem Accounts.stop {rows : List (VendorRow V)} {record : Record F} {st : LoopState σ F V} {client : σ} (hrows : rows ≠ [])
    (hskipped : (record.booking derived).isSkipped = true)
    (hnorow : ∀ row, passingRow py derived (row, record) = (none : Option (ResultRow F V))) :
    Accounts py derived (rows.map (·, record)) st
      ({ st with client := client }.skip (record.booking derived) rows.length) where
  counts b := by
    rw [countOf_map]
    exact Counts.of_add _ _ _ _
  rows := by
    have hnone : (rows.map (·, record)).filterMap (passingRow py derived) = [] := by
      rw [List.filterMap_map, List.filterMap_eq_nil_iff]
      exact fun row _ => hnorow row
    rw [hnone, List.append_nil]
    rfl
  degraded := by
    obtain ⟨row, rest, rfl⟩ := List.exists_cons_of_ne_nil hrows
    exact ⟨fun _ => .inr ⟨_, .head _, hskipped⟩, fun _ => rfl⟩

/-- A candidate that is not skipped, and then the rest. -/
theorem Accounts.keep {row : VendorRow V} {bars : List (DailyBar F)} {records : List (VendorRow V × Record F)}
    {st st' : LoopState σ F V} {client : σ}
    (h : Accounts py derived records
      { st with
        client := client
        counts := st.counts.add (Record.booking derived (.bars bars)) 1
        rows := st.rows ++ (passingRow py derived (row, .bars bars)).toList } st') :
    Accounts py derived ((row, .bars bars) :: records) st st' where
  counts b := by
    rw [h.counts, countOf_cons, ← Nat.add_assoc]
    exact congrArg (· + _) (Counts.of_add _ _ _ _)
  rows := by
    rw [h.rows]
    cases hrow : passingRow py derived (row, .bars bars) with
    | none =>
      rw [List.filterMap_cons_none hrow]
      exact congrArg (· ++ _) (List.append_nil _)
    | some found =>
      rw [List.filterMap_cons_some hrow]
      exact List.append_assoc _ _ _
  degraded := by
    rw [h.degraded, List.exists_mem_cons_iff, isSkipped_bars]
    simp only [Bool.false_eq_true, false_or]

/-- A candidate whose bars are fetched is booked by their metrics. -/
theorem examine_eq {row : VendorRow V} {bars : List (DailyBar F)} {st : LoopState σ F V} {metrics : Option (Metrics F)}
    (hmetrics : computeMetrics bars = .ok metrics) :
    st.examine py derived row metrics =
      { st with
        counts := st.counts.add (Record.booking derived (.bars bars)) 1
        rows := st.rows ++ (passingRow py derived (row, .bars bars)).toList } := by
  have hshort (hlong : longMetrics derived bars = none) : Record.booking derived (.bars bars) = .insufficientHistory ∧
      passingRow py derived (row, Record.bars bars) = none := by
    simp [Record.booking, passingRow, hlong]
  cases metrics with
  | none =>
    have hlong : longMetrics derived bars = none := by rw [longMetrics, hmetrics]
    rw [(hshort hlong).1, (hshort hlong).2, Option.toList_none, List.append_nil]
    rfl
  | some m =>
    by_cases hlt : m.nBars < derived.minHistory
    · have hlong : longMetrics derived bars = none := by
        rw [longMetrics, hmetrics]
        exact if_pos hlt
      rw [(hshort hlong).1, (hshort hlong).2, Option.toList_none, List.append_nil, LoopState.examine, if_pos hlt]
    · have hlong : longMetrics derived bars = some m := by
        rw [longMetrics, hmetrics]
        exact if_neg hlt
      have hbooking : Record.booking derived (.bars bars) = .enriched := by simp [Record.booking, hlong]
      rw [hbooking, LoopState.examine, if_neg hlt]
      cases hpasses : passes m derived with
      | true =>
        have hrow : passingRow py derived (row, .bars bars) = some (resultRow py row (some m)) := by
          simp [passingRow, hlong, hpasses]
        rw [hrow]
        rfl
      | false =>
        have hrow : passingRow py derived (row, .bars bars) = none := by simp [passingRow, hlong, hpasses]
        rw [hrow, Option.toList_none, List.append_nil]
        rfl

/-! ### All candidates -/

/-- **What a run that ends has counted.** -/
theorem accounts_of_ok {total index : ℕ} {candidates : List (VendorRow V)} {st st' : LoopState σ F V}
    (htotal : index + candidates.length = total)
    (h : enrichFrom py dailyBars derived total index candidates st = .ok st') :
    Accounts py derived (recorded py dailyBars st.client candidates) st st' := by
  induction candidates generalizing index st with
  | nil =>
    cases h
    exact ⟨fun _ => rfl, (List.append_nil _).symm, ⟨.inl, fun h => h.elim id fun ⟨_, hp, _⟩ => nomatch hp⟩⟩
  | cons row rest ih =>
    rw [List.length_cons] at htotal
    obtain ⟨⟨goes, st₁⟩, hstep, hrest⟩ := bind_eq_ok_iff.mp h
    generalize hturn : enrichStep py dailyBars derived total index row st = turn at hstep
    have hkind := turn_enrichStep py dailyBars derived total index row st
    rw [hturn] at hkind
    cases hkind with
    | skips client hnext =>
      cases hstep
      rw [hnext rest]
      exact Accounts.skip (ih (by omega) hrest)
    | stops client record hskipped hnorow hnext =>
      cases hstep
      cases hrest
      have hlen : total - index = (row :: rest).length := by
        rw [List.length_cons]
        omega
      rw [hnext rest, hlen]
      exact Accounts.stop (List.cons_ne_nil _ _) hskipped hnorow
    | fetches client bars hnext =>
      obtain ⟨metrics, hmetrics, hpure⟩ := bind_eq_ok_iff.mp hstep
      cases hpure
      have hih := ih (by omega) hrest
      rw [examine_eq hmetrics] at hih
      rw [hnext rest]
      exact Accounts.keep hih

/-- **Whether it ends.** -/
theorem enrichFrom_returns_iff {total index : ℕ} {candidates : List (VendorRow V)} {st : LoopState σ F V} :
    (∃ st', enrichFrom py dailyBars derived total index candidates st = .ok st') ↔
      ∀ row bars, (row, .bars bars) ∈ recorded py dailyBars st.client candidates → ¬ PricesOverflow bars := by
  induction candidates generalizing index st with
  | nil => exact ⟨fun _ _ _ hp => absurd hp List.not_mem_nil, fun _ => ⟨st, rfl⟩⟩
  | cons row rest ih =>
    have hkind := turn_enrichStep py dailyBars derived total index row st
    unfold enrichFrom
    generalize enrichStep py dailyBars derived total index row st = turn at hkind ⊢
    cases hkind with
    | skips client hnext =>
      rw [hnext rest]
      simp only [List.mem_cons, Prod.mk.injEq, reduceCtorEq, and_false, false_or]
      exact ih
    | stops client record hskipped hnorow hnext =>
      rw [hnext rest]
      refine ⟨fun _ other bars hp => ?_, fun _ => ⟨_, rfl⟩⟩
      obtain ⟨_, _, hpair⟩ := List.mem_map.mp hp
      obtain ⟨rfl, rfl⟩ := Prod.mk.inj hpair
      rw [isSkipped_bars] at hskipped
      cases hskipped
    | fetches client bars hnext =>
      rw [hnext rest]
      simp only [List.mem_cons, Prod.mk.injEq, Record.bars.injEq]
      cases hmetrics : computeMetrics bars with
      | error e =>
        have hoverflow := (computeMetrics_raises_iff.mp hmetrics).1
        exact ⟨nofun, fun h => absurd hoverflow (h row bars (.inl ⟨rfl, rfl⟩))⟩
      | ok metrics =>
        have hfits : ¬ PricesOverflow bars := by
          intro hoverflow
          have hraises := computeMetrics_raises_iff.mpr ⟨hoverflow, rfl⟩
          rw [hmetrics] at hraises
          cases hraises
        have hih := @ih (index + 1) ({ st with client := client }.examine py derived row metrics)
        rw [examine_eq hmetrics] at hih
        refine (Iff.trans ?_ hih).trans ⟨fun h other found hp => ?_, fun h other found hp => h other found (.inr hp)⟩
        · rw [← examine_eq hmetrics]
          rfl
        · rcases hp with ⟨-, rfl⟩ | hp
          · exact hfits
          · exact h other found hp

variable (py derived)

/-- What is promised of the result for candidates of whom that is learned. -/
structure Accounted (candidates : List (VendorRow V)) (records : List (VendorRow V × Record F))
    (result : LoopState σ F V) : Prop where
  /-- Something is learned about every candidate, in order. -/
  inOrder : records.map Prod.fst = candidates
  /-- Every candidate is booked once. -/
  booked : result.counts.of .enriched + result.counts.of .insufficientHistory + result.counts.of .skippedRateLimited +
    result.counts.of .skippedUnavailable = candidates.length
  /-- There are not more rows than candidates that are enriched. -/
  length_rows_le : result.rows.length ≤ result.counts.of .enriched
  /-- There is a row for each candidate that passes, in order. -/
  rows : result.rows = records.filterMap (passingRow py derived)
  /-- The run is degraded if a candidate is skipped. -/
  degraded : result.degraded = true ↔ ∃ p ∈ records, (p.2.booking derived).isSkipped = true

/-- Every candidate is booked under one of the counts. -/
theorem countOf_total (records : List (VendorRow V × Record F)) :
    countOf derived records .enriched + countOf derived records .insufficientHistory +
      countOf derived records .skippedRateLimited + countOf derived records .skippedUnavailable = records.length := by
  induction records with
  | nil => rfl
  | cons p records ih =>
    rw [countOf_cons, countOf_cons, countOf_cons, countOf_cons, List.length_cons, ← ih]
    cases p.2.booking derived <;> simp only [reduceCtorEq, if_true, if_false] <;> omega

/-- Only a candidate that is enriched gives a row. -/
theorem length_filterMap_passingRow_le (records : List (VendorRow V × Record F)) :
    (records.filterMap (passingRow py derived)).length ≤ countOf derived records .enriched := by
  rw [List.length_filterMap_eq_countP]
  refine List.countP_mono_left fun p _ hrow => decide_eq_true ?_
  obtain ⟨row, record⟩ := p
  cases record with
  | rateLimited | unavailable => cases hrow
  | bars found =>
    cases hlong : longMetrics derived found with
    | none =>
      rw [passingRow, hlong] at hrow
      cases hrow
    | some m =>
      simp only [Record.booking]
      rw [hlong]
      rfl

variable (dailyBars)

/-- **Every candidate is accounted for unless a price overflows.** -/
theorem enrichCandidates_accounts_iff (client : σ) (candidates : List (VendorRow V)) (vendorMatches : ℕ) :
    (∃ result, enrichCandidates py dailyBars derived client candidates { vendorMatches := vendorMatches } = .ok result ∧
        Accounted py derived candidates (recorded py dailyBars client candidates) result) ↔
      ∀ row bars, (row, .bars bars) ∈ recorded py dailyBars client candidates → ¬ PricesOverflow bars := by
  have hreturns : (∃ result, enrichCandidates py dailyBars derived client candidates
        { vendorMatches := vendorMatches } = .ok result) ↔
      ∀ row bars, (row, .bars bars) ∈ recorded py dailyBars client candidates → ¬ PricesOverflow bars :=
    enrichFrom_returns_iff
  rw [← hreturns]
  constructor
  · rintro ⟨result, hok, -⟩
    exact ⟨result, hok⟩
  · rintro ⟨result, hok⟩
    obtain ⟨hcounts, hrows, hdegraded⟩ := accounts_of_ok (Nat.zero_add _) hok
    have hcount (b : Booking) : result.counts.of b = countOf derived (recorded py dailyBars client candidates) b :=
      (hcounts b).trans (Nat.zero_add _)
    have hinOrder := map_fst_recorded py dailyBars client candidates
    have hlen : (recorded py dailyBars client candidates).length = candidates.length := by
      rw [← List.length_map Prod.fst, hinOrder]
    refine ⟨result, hok, hinOrder, ?_, ?_, hrows, ?_⟩
    · rw [hcount, hcount, hcount, hcount, ← hlen]
      exact countOf_total derived _
    · rw [hrows, hcount]
      exact length_filterMap_passingRow_le py derived _
    · rw [hdegraded]
      exact or_iff_right Bool.false_ne_true

end

/-- A day with a price of 10⁴⁰⁰. -/
def hugeBars : List (DailyBar ℚ) := [⟨"2026-01-02", some (.int (10 ^ 400)), some (.int (10 ^ 400))⟩]

/-- **A price of 10⁴⁰⁰ ends the enrichment.** -/
theorem not_enrichCandidates_accounts :
    ¬ ∀ (dailyBars : Unit → String → Fetch ℚ × Unit) (candidates : List (VendorRow ℚ)) (derived : Derived ℚ),
      ∃ result, enrichCandidates asciiStr dailyBars derived () candidates {} = .ok result ∧
        Accounted asciiStr derived candidates (recorded asciiStr dailyBars () candidates) result := by
  intro h
  obtain ⟨result, hok, -⟩ := h (fun _ _ => (.bars hugeBars, ())) [{ symbol := some "AAA" }] {}
  have hfits := enrichFrom_returns_iff.mp ⟨result, hok⟩ { symbol := some "AAA" } hugeBars (.head _)
  refine hfits (.inl ⟨[], 10 ^ 400, [], ?_, by decide +kernel, fun c hc => absurd hc List.not_mem_nil⟩)
  rw [sortedCloses, hugeBars, List.mergeSort_singleton]
  rfl

end StratTrader.Screener
