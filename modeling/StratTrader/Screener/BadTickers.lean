import StratTrader.Marketdata.Fmp
import StratTrader.Screener.Enrichment

/-!
# Candidates that the vendor does not know

The enrichment of `screener/tasks.py` with the client of `marketdata/fmp.py`: every candidate comes with the call that is
made for it. A candidate is bad where its call is made and the vendor answers with a client error. What is learned about
the others is compared with a run without the bad ones.

## What is proved

* `records_of_others`: where no call does to the circuit what it does not do without the client errors before it, bad
  candidates change nothing for the others.
* `breaker_and_bad_tickers`: with that, what has failed when a circuit is opened.

## Honest scope

What the vendor answers, and when, is fixed for each candidate, and so are the requests that its minute had before. A
response is a list of bars, and a call has its key with it.
-/

namespace StratTrader.Screener

open Foundation (Run AnyStep)
open Marketdata (FmpError Response FmpCache Call Config Log Opens counting_of_run opens_on_server_errors_iff)

/-- A candidate, and the call that is made for it. -/
structure Asked (F V : Type) where
  /-- The candidate. -/
  row : VendorRow V
  /-- The call. -/
  call : Call (List (DailyBar F))

section
variable {F V : Type} (py : PyStr) (cfg : Config)

/-- What becomes of the result of `get`. -/
def fetchOf : Except FmpError (Option (List (DailyBar F))) → Fetch F
  | .ok data => .bars (data.getD [])
  | .error .rateLimited => .rateLimited
  | .error .circuitOpen => .circuitOpen
  | .error .serverError => .serverError
  | .error .clientError => .clientError

/-- `daily_bars`, with the next of the calls. -/
def nextBars : FmpCache (List (DailyBar F)) × List (Call (List (DailyBar F))) → String →
    Fetch F × (FmpCache (List (DailyBar F)) × List (Call (List (DailyBar F))))
  | (cache, []), _ => (.circuitOpen, cache, [])
  | (cache, call :: calls), _ => (fetchOf (cache.get cfg call), cache.afterGet cfg call, calls)

/-- Whether the bars of a candidate are asked for. -/
def Asked.isNamed (a : Asked F V) : Bool := decide (a.row.upperSymbol py ≠ "")

/-- The calls that are made. -/
def callsOf (asked : List (Asked F V)) : List (Call (List (DailyBar F))) :=
  (asked.filter (Asked.isNamed py)).map Asked.call

/-- Whether a candidate's call is made and answered with a client error. -/
def Asked.isBad (cache : FmpCache (List (DailyBar F))) (a : Asked F V) : Bool :=
  a.isNamed py &&
    match cache.outcome cfg a.call with
    | .error .clientError => true
    | _ => false

/-- Whether the run goes on behind what is returned for a candidate. -/
def Fetch.goesOn : Fetch F → Bool
  | .bars _ | .clientError => true
  | .rateLimited | .circuitOpen | .serverError => false

/-- The cache behind a candidate. -/
def Asked.after (cache : FmpCache (List (DailyBar F))) (a : Asked F V) : FmpCache (List (DailyBar F)) :=
  if a.isNamed py then cache.afterGet cfg a.call else cache

/-- Whether the run goes on behind a candidate. -/
def Asked.goesOn (cache : FmpCache (List (DailyBar F))) (a : Asked F V) : Bool :=
  !a.isNamed py || (fetchOf (cache.get cfg a.call)).goesOn

/-- Who is bad, of the candidates up to where the run stops. -/
def badOf : FmpCache (List (DailyBar F)) → List (Asked F V) → List Bool
  | _, [] => []
  | cache, a :: rest => if a.goesOn py cfg cache then a.isBad py cfg cache :: badOf (a.after py cfg cache) rest else []

/-- Those who are not marked. -/
def unmarked {α : Type} : List Bool → List α → List α
  | true :: marks, _ :: rest => unmarked marks rest
  | false :: marks, a :: rest => a :: unmarked marks rest
  | [], rest => rest
  | _ :: _, [] => []

/-- The others. -/
def othersOf (cache : FmpCache (List (DailyBar F))) (asked : List (Asked F V)) : List (Asked F V) :=
  unmarked (badOf py cfg cache asked) asked

/-- Of the calls behind which the run goes on, none does to the circuit what it does not do without the client errors of the
run: the second cache is that of the run without the bad candidates. -/
def Unmoved : FmpCache (List (DailyBar F)) → FmpCache (List (DailyBar F)) → List (Asked F V) → Prop
  | _, _, [] => True
  | cache, cache', a :: rest =>
    a.goesOn py cfg cache = true →
      (a.isNamed py = true → cache.Unmoved cfg cache' a.call) ∧
        Unmoved (a.after py cfg cache) (if a.isBad py cfg cache then cache' else a.after py cfg cache') rest

/-- What is learned about each of the candidates. -/
def recordsOf (cache : FmpCache (List (DailyBar F))) (asked : List (Asked F V)) : List (Asked F V × Record F) :=
  asked.zip ((recorded py (nextBars cfg) (cache, callsOf py asked) (asked.map Asked.row)).map Prod.snd)

variable {py cfg}

theorem callsOf_cons_of_named {a : Asked F V} {rest : List (Asked F V)} (h : a.isNamed py = true) :
    callsOf py (a :: rest) = a.call :: callsOf py rest := by
  rw [callsOf, List.filter_cons_of_pos h]
  rfl

theorem callsOf_cons_of_unnamed {a : Asked F V} {rest : List (Asked F V)} (h : a.isNamed py = false) :
    callsOf py (a :: rest) = callsOf py rest := by
  rw [callsOf, List.filter_cons_of_neg (Bool.eq_false_iff.mp h)]
  rfl

/-- A candidate without a symbol. -/
theorem recordsOf_cons_of_unnamed {cache : FmpCache (List (DailyBar F))} {a : Asked F V} {rest : List (Asked F V)}
    (h : a.isNamed py = false) :
    recordsOf py cfg cache (a :: rest) = (a, .unavailable) :: recordsOf py cfg cache rest := by
  have hsymbol : a.row.upperSymbol py = "" := by simpa [Asked.isNamed] using h
  rw [recordsOf, List.map_cons, recorded, if_pos hsymbol, callsOf_cons_of_unnamed h]
  rfl

/-- What is learned about a candidate and the rest of them from what is returned for it. -/
def recordsWith (a : Asked F V) (rest : List (Asked F V)) (next : List (Asked F V × Record F)) :
    Fetch F → List (Asked F V × Record F)
  | .bars bars => (a, .bars bars) :: next
  | .clientError => (a, .unavailable) :: next
  | .rateLimited | .circuitOpen => (a :: rest).map (·, .rateLimited)
  | .serverError => (a :: rest).map (·, .unavailable)

/-- A candidate with a symbol. -/
theorem recordsOf_cons_of_named {cache : FmpCache (List (DailyBar F))} {a : Asked F V} {rest : List (Asked F V)}
    (h : a.isNamed py = true) :
    recordsOf py cfg cache (a :: rest) =
      recordsWith a rest (recordsOf py cfg (cache.afterGet cfg a.call) rest) (fetchOf (cache.get cfg a.call)) := by
  have hsymbol : ¬ a.row.upperSymbol py = "" := by simpa [Asked.isNamed] using h
  have hall (record : Record F) :
      (a :: rest).zip ((((a :: rest).map Asked.row).map (·, record)).map Prod.snd) = (a :: rest).map (·, record) := by
    rw [List.map_map, List.map_map]
    exact List.map_prod_left_eq_zip.symm
  rw [recordsOf, callsOf_cons_of_named h, List.map_cons, recorded, if_neg hsymbol]
  simp only [nextBars]
  cases fetchOf (cache.get cfg a.call) with
  | bars bars => rfl
  | clientError => rfl
  | rateLimited => exact hall _
  | circuitOpen => exact hall _
  | serverError => exact hall _

theorem outcome_of_isBad {cache : FmpCache (List (DailyBar F))} {a : Asked F V} (h : a.isBad py cfg cache = true) :
    a.isNamed py = true ∧ cache.outcome cfg a.call = .error .clientError := by
  obtain ⟨hnamed, h⟩ := Bool.and_eq_true_iff.mp h
  split at h
  · exact ⟨hnamed, by assumption⟩
  · cases h

theorem outcome_of_not_isBad {cache : FmpCache (List (DailyBar F))} {a : Asked F V} (hnamed : a.isNamed py = true)
    (h : a.isBad py cfg cache = false) : cache.outcome cfg a.call ≠ .error .clientError := by
  intro hout
  rw [Asked.isBad, hnamed, hout] at h
  cases h

/-- The run stops. -/
theorem recordsWith_of_stops {a : Asked F V} {rest rest' : List (Asked F V)} {next next' : List (Asked F V × Record F)}
    {r : Fetch F} (h : r.goesOn = false) (hrest : rest = rest') : recordsWith a rest next r = recordsWith a rest' next' r := by
  rw [hrest]
  cases r with
  | bars bars => cases h
  | clientError => cases h
  | rateLimited | circuitOpen | serverError => rfl

/-- What is learned about a candidate comes first, where the run goes on. -/
theorem recordsWith_of_goesOn {a : Asked F V} {r : Fetch F} (h : r.goesOn = true) :
    ∃ record, ∀ rest next, recordsWith a rest next r = (a, record) :: next := by
  cases r with
  | bars bars => exact ⟨.bars bars, fun _ _ => rfl⟩
  | clientError => exact ⟨.unavailable, fun _ _ => rfl⟩
  | rateLimited | circuitOpen | serverError => cases h

/-- What is learned about the first candidate, where the run goes on. -/
theorem recordsOf_cons_of_goesOn {cache cache' : FmpCache (List (DailyBar F))} {a : Asked F V}
    (hsame : cache.Alike cache') (h : a.goesOn py cfg cache = true) :
    ∃ record,
      (∀ rest, recordsOf py cfg cache (a :: rest) = (a, record) :: recordsOf py cfg (a.after py cfg cache) rest) ∧
      ∀ rest, recordsOf py cfg cache' (a :: rest) = (a, record) :: recordsOf py cfg (a.after py cfg cache') rest := by
  unfold Asked.after
  cases hnamed : a.isNamed py with
  | false => exact ⟨.unavailable, fun _ => recordsOf_cons_of_unnamed hnamed, fun _ => recordsOf_cons_of_unnamed hnamed⟩
  | true =>
    rw [Asked.goesOn, hnamed] at h
    obtain ⟨record, hrecord⟩ := recordsWith_of_goesOn (a := a) h
    refine ⟨record, fun rest => ?_, fun rest => ?_⟩
    · exact (recordsOf_cons_of_named hnamed).trans (hrecord _ _)
    · rw [recordsOf_cons_of_named hnamed, ← hsame.get_eq]
      exact hrecord _ _

/-- **Bad candidates change nothing for the others**, where no call does to the circuit what it does not do without the
client errors. -/
theorem records_of_others {cache cache' : FmpCache (List (DailyBar F))} {asked : List (Asked F V)}
    (hsame : cache.Alike cache') (h : Unmoved py cfg cache cache' asked) :
    unmarked (badOf py cfg cache asked) (recordsOf py cfg cache asked) = recordsOf py cfg cache' (othersOf py cfg cache asked) := by
  unfold othersOf
  induction asked generalizing cache cache' with
  | nil => rfl
  | cons a rest ih =>
    rw [badOf]
    cases hgoes : a.goesOn py cfg cache with
    | false =>
      -- the run stops for both
      obtain ⟨hunnamed, hstops⟩ := Bool.or_eq_false_iff.mp hgoes
      have hnamed : a.isNamed py = true := by simpa using hunnamed
      rw [recordsOf_cons_of_named hnamed]
      change recordsWith _ _ _ _ = recordsOf py cfg cache' (a :: rest)
      rw [recordsOf_cons_of_named hnamed, ← hsame.get_eq]
      exact recordsWith_of_stops hstops rfl
    | true =>
      obtain ⟨hcall, hrest⟩ := h hgoes
      obtain ⟨record, hrecord, hrecord'⟩ := recordsOf_cons_of_goesOn hsame hgoes
      rw [if_pos rfl, hrecord]
      cases hbad : a.isBad py cfg cache with
      | true =>
        obtain ⟨hnamed, hout⟩ := outcome_of_isBad hbad
        rw [hbad, if_pos rfl] at hrest
        have hafter : (a.after py cfg cache).Alike cache' := by
          rw [Asked.after, if_pos hnamed]
          exact hsame.after_clientError hout (hcall hnamed)
        exact ih hafter hrest
      | false =>
        rw [hbad, if_neg Bool.false_ne_true] at hrest
        have hafter : (a.after py cfg cache).Alike (a.after py cfg cache') := by
          unfold Asked.after
          split_ifs with hnamed
          · exact hsame.after (outcome_of_not_isBad hnamed hbad) (hcall hnamed)
          · exact hsame
        change (a, record) :: unmarked _ _ = recordsOf py cfg cache' (a :: unmarked _ _)
        rw [hrecord', ih hafter hrest]

variable (py cfg)

/-- **What opens a circuit, and what bad candidates change.** -/
theorem breaker_and_bad_tickers {D : Type} :
    (∀ (responses : String → Option (Option D × ℕ)) (log : Log D) (call : Call D),
      Run (Marketdata.Step cfg) AnyStep (Log.start responses) log → log.now ≤ call.startedAt → Opens cfg log call →
        (cfg.cbThreshold ≤ (log.after cfg call).since.count .serverError ↔
          cfg.cbThreshold = 0 ∨ .clientError ∉ (log.after cfg call).since)) ∧
      ∀ (cache : FmpCache (List (DailyBar F))) (asked : List (Asked F V)), Unmoved py cfg cache cache asked →
        unmarked (badOf py cfg cache asked) (recordsOf py cfg cache asked) =
          recordsOf py cfg cache (othersOf py cfg cache asked) := by
  constructor
  · intro responses log call hrun _ hopens
    exact opens_on_server_errors_iff (counting_of_run hrun) hopens
  · intro cache asked hunmoved
    exact records_of_others ⟨rfl, rfl⟩ hunmoved

end

/-- A call that is answered alike each time. -/
def callOf {D : Type} (response : Response D) : Call D where
  key := "AAA"
  startedAt := 0
  responses _ := response
  endedAt := 0
  started_le := Nat.le_refl 0

/-- The log after `n` such calls. -/
def logOf {D : Type} (response : Response D) : ℕ → Log D
  | 0 => .start fun _ => none
  | n + 1 => (logOf response n).after {} (callOf response)

theorem run_logOf {D : Type} (response : Response D) (n : ℕ) :
    Run (Marketdata.Step {}) AnyStep (.start fun _ => none) (logOf response n) := by
  have hnow (n : ℕ) : (logOf response n).now = 0 := by cases n <;> rfl
  induction n with
  | zero => exact Run.refl _
  | succ n ih => exact ih.step (a := callOf response) ⟨Nat.le_of_eq (hnow n), rfl⟩ trivial

/-- A candidate with such a call. -/
def askedOf (response : Response (List (DailyBar ℚ))) : Asked ℚ ℚ := ⟨{ symbol := some "AAA" }, callOf response⟩

/-- Candidates of whom every second one is not known. -/
def inTurn : ℕ → List (Asked ℚ ℚ)
  | 0 => []
  | n + 1 => askedOf (.status 404 none) :: askedOf (.status 200 (some none)) :: inTurn n

/-- A success resets the count, so that none of their calls opens the circuit. -/
theorem unmoved_inTurn (n : ℕ) (responses responses' : String → Option (Option (List (DailyBar ℚ)) × ℕ)) :
    Unmoved asciiStr {} { responses := responses } { responses := responses' } (inTurn n) := by
  induction n generalizing responses responses' with
  | zero => trivial
  | succ n ih =>
    have hone : 1 < 5 := by decide
    refine fun _ => ⟨fun _ => hone, fun _ => ⟨fun _ => trivial, ?_⟩⟩
    exact ih _ _

/-- Five outages open the circuit, and six candidates who are not known leave the others alone where they come in turn. -/
theorem breaker_and_bad_tickers_outages :
    (5 ≤ ((logOf (.requestError : Response ℕ) 4).after {} (callOf .requestError)).since.count .serverError ↔
        (5 = 0 ∨ .clientError ∉ ((logOf (.requestError : Response ℕ) 4).after {} (callOf .requestError)).since)) ∧
      unmarked (badOf asciiStr {} {} (inTurn 6)) (recordsOf asciiStr {} {} (inTurn 6)) =
        recordsOf asciiStr {} {} (othersOf asciiStr {} {} (inTurn 6)) := by
  have hopens : Opens {} (logOf (.requestError : Response ℕ) 4) (callOf .requestError) :=
    ⟨.serverError, rfl, rfl, by decide⟩
  exact ⟨(breaker_and_bad_tickers (F := ℚ) (V := ℚ) asciiStr {}).1 _ _ _ (run_logOf .requestError 4) (Nat.le_refl _) hopens,
    (breaker_and_bad_tickers (D := ℕ) asciiStr {}).2 {} _ (unmoved_inTurn 6 _ _)⟩

/-- **Five candidates who are not known open the circuit, and the sixth one pays for it.** -/
theorem not_breaker_ignores_bad_tickers :
    (¬ ∀ (log : Log ℕ) (call : Call ℕ), Run (Marketdata.Step {}) AnyStep (.start fun _ => none) log →
      log.now ≤ call.startedAt → Opens {} log call → 5 ≤ (log.after {} call).since.count .serverError) ∧
      ¬ ∀ asked : List (Asked ℚ ℚ), unmarked (badOf asciiStr {} {} asked) (recordsOf asciiStr {} {} asked) =
        recordsOf asciiStr {} {} (othersOf asciiStr {} {} asked) := by
  constructor
  · intro h
    have hfive := h (logOf (.status 404 none) 4) (callOf (.status 404 none)) (run_logOf _ 4) (Nat.le_refl _)
      ⟨.clientError, rfl, rfl, by decide⟩
    exact absurd hfive (by decide)
  · intro h
    have hsix : [Record.rateLimited (F := ℚ)] = [.bars []] := congrArg (List.map Prod.snd)
      (h (List.replicate 5 (askedOf (.status 404 none)) ++ [askedOf (.status 200 (some none))]))
    cases hsix

end StratTrader.Screener
