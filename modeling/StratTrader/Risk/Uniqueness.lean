import StratTrader.Foundation.Runs
import StratTrader.Risk.KillSwitch
import Mathlib.Data.Fintype.EquivFin

/-!
# One halt of a scope

`trigger_halt` and `release_halt` as transactions under READ COMMITTED, any number of them
at once. A locking read (`SELECT … FOR UPDATE`) takes the rows that were committed when it
began, one after the other: it waits while another transaction holds the row, and takes it
if it still fits what is asked for. What another transaction has inserted it cannot lock,
and what was committed after it began it does not see. So `trigger_halt`, which inserts a
halt when the read comes back empty, may insert a second one.

## What is proved

* `one_halt_of_a_scope`: as long as no read comes back empty while a halt of its scope is
  active, or while the read of another transaction under way has come back empty for it, at most
  one halt of each scope and level is active, and the release of it leaves none.
* `duplicates_of_overlap`: from a read that does, two active halts of the scope are reached.

## Honest scope

A transaction may be killed at any time, and then changes nothing. Locks are those of rows;
a transaction that waits for another forever is one that is never taken further.
-/

namespace StratTrader.Risk

open StratTrader.Brokers StratTrader.Foundation

/-! ### Transactions -/

/-- A transaction under way. -/
inductive Tx where
  /-- `trigger_halt`, reading: the rows left to look at. -/
  | searching (call : TriggerCall) (candidates : List HaltId)
  /-- `trigger_halt`, with a halt found and locked. -/
  | found (id : HaltId)
  /-- `trigger_halt`, with a halt inserted. -/
  | inserted (halt : TradingHalt)
  /-- `release_halt`, reading: the row was active when it began. -/
  | waiting (id : HaltId)
  /-- `release_halt`, with the halt locked. -/
  | locked (halt : TradingHalt)

namespace Tx

/-- The row that is locked. -/
def lock : Tx → Option HaltId
  | found id => some id
  | locked halt => some halt.id
  | searching _ _ | inserted _ | waiting _ => none

/-- The row that is inserted. -/
def row : Tx → Option TradingHalt
  | inserted halt => some halt
  | searching _ _ | found _ | waiting _ | locked _ => none

/-- The row that is inserted, or is going to be: the read has come back empty. Its identifier and its time do
not matter here. -/
def coming : Tx → Option TradingHalt
  | searching call [] => some (call.newHalt "" 0)
  | inserted halt => some halt
  | searching _ (_ :: _) | found _ | waiting _ | locked _ => none

end Tx

/-- The committed rows, and the transactions. -/
structure TxState where
  /-- The rows. -/
  halts : List TradingHalt
  /-- The transactions. -/
  txs : List Tx

namespace TxState

/-- No transaction under way. -/
def init : TxState := ⟨[], []⟩

/-- The rows that are not committed yet. -/
def pending (s : TxState) : List TradingHalt := s.txs.filterMap Tx.coming

/-- The active halts of a scope, committed and not. -/
def ofScope (s : TxState) (call : TriggerCall) : List TradingHalt := (s.halts ++ s.pending).filter call.inScope

end TxState

/-- The rows a locking read goes through: `.first()` orders them by primary key. -/
def candidates (halts : List TradingHalt) (call : TriggerCall) : List HaltId :=
  ((halts.filter call.inScope).map TradingHalt.id).mergeSort fun a b => decide (a ≤ b)

/-- No other transaction holds a row. -/
def Free (others : List Tx) (id : HaltId) : Prop := ∀ tx ∈ others, tx.lock ≠ some id

/-- What happens in a step. -/
inductive TxAct where
  /-- `trigger_halt` begins. -/
  | beginTrigger (call : TriggerCall)
  /-- `release_halt` begins. -/
  | beginRelease
  /-- A transaction finds a row, and locks it. -/
  | look
  /-- A read for `call` passes over a row; `left` are the rows that are left. -/
  | skip (call : TriggerCall) (left : List HaltId)
  /-- A halt is inserted. -/
  | insert
  /-- `trigger_halt` commits. -/
  | commit
  /-- `release_halt` commits the release of a halt. -/
  | release (id : HaltId)
  /-- A transaction ends without a change. -/
  | finish

/-- The steps. -/
inductive TxStep (calendar : Calendar) : TxState → TxAct → TxState → Prop where
  /-- `trigger_halt` begins: its read is of the rows committed now. -/
  | beginTrigger (halts : List TradingHalt) (txs : List Tx) (call : TriggerCall) :
      TxStep calendar ⟨halts, txs⟩ (.beginTrigger call) ⟨halts, txs ++ [.searching call (candidates halts call)]⟩
  /-- The next row still is an active halt of the scope. -/
  | find {halts : List TradingHalt} {ps qs : List Tx} {call : TriggerCall} {id : HaltId} {ids : List HaltId}
      (hfree : Free (ps ++ qs) id) (h : ∃ halt ∈ halts, halt.id = id ∧ call.inScope halt = true) :
      TxStep calendar ⟨halts, ps ++ .searching call (id :: ids) :: qs⟩ .look ⟨halts, ps ++ .found id :: qs⟩
  /-- The next row is one no longer. -/
  | skip {halts : List TradingHalt} {ps qs : List Tx} {call : TriggerCall} {id : HaltId} {ids : List HaltId}
      (hfree : Free (ps ++ qs) id) (h : ∀ halt ∈ halts, halt.id = id → call.inScope halt = false) :
      TxStep calendar ⟨halts, ps ++ .searching call (id :: ids) :: qs⟩ (.skip call ids)
        ⟨halts, ps ++ .searching call ids :: qs⟩
  /-- No row is left. -/
  | insert {halts : List TradingHalt} {ps qs : List Tx} {call : TriggerCall} {id : HaltId} (now : ℤ)
      (hfresh : ∀ halt ∈ halts ++ (ps ++ qs).filterMap Tx.row, halt.id ≠ id) :
      TxStep calendar ⟨halts, ps ++ .searching call [] :: qs⟩ .insert
        ⟨halts, ps ++ .inserted (call.newHalt id now) :: qs⟩
  /-- `trigger_halt` commits what it has inserted. -/
  | commit (halts : List TradingHalt) (ps qs : List Tx) (halt : TradingHalt) :
      TxStep calendar ⟨halts, ps ++ .inserted halt :: qs⟩ .commit ⟨halts ++ [halt], ps ++ qs⟩
  /-- `release_halt` begins, and finds the row active. -/
  | beginRelease {halts : List TradingHalt} (txs : List Tx) {id : HaltId}
      (h : ∃ halt ∈ halts, halt.id = id ∧ halt.isActive = true) :
      TxStep calendar ⟨halts, txs⟩ .beginRelease ⟨halts, txs ++ [.waiting id]⟩
  /-- The row still is active. -/
  | lock {halts : List TradingHalt} {ps qs : List Tx} {halt : TradingHalt} (hfree : Free (ps ++ qs) halt.id)
      (h : halt ∈ halts) (hactive : halt.isActive = true) :
      TxStep calendar ⟨halts, ps ++ .waiting halt.id :: qs⟩ .look ⟨halts, ps ++ .locked halt :: qs⟩
  /-- `release_halt` commits. -/
  | release {halts : List TradingHalt} {ps qs : List Tx} {halt : TradingHalt} {today : ℤ} (now : ℤ)
      (releasedBy : Option UserId) (hunlocked : halt.isLocked calendar today = false) :
      TxStep calendar ⟨halts, ps ++ .locked halt :: qs⟩ (.release halt.id)
        ⟨release halts halt.id releasedBy now, ps ++ qs⟩
  /-- A transaction ends without a change: it is killed, or has found what it returns, or the row it is to
  release is released already or cannot be released today. -/
  | finish (halts : List TradingHalt) (ps qs : List Tx) (tx : Tx) :
      TxStep calendar ⟨halts, ps ++ tx :: qs⟩ .finish ⟨halts, ps ++ qs⟩

/-! ### At most one -/

/-- A read does not come back empty while a halt of its scope is active, or while that of another transaction has:
it comes back empty at once, or when it has passed over the last row. -/
def NoOverlap (s : TxState) : TxAct → Prop
  | .beginTrigger call => candidates s.halts call = [] → s.ofScope call = []
  | .skip call left => left = [] → s.ofScope call = []
  | .beginRelease | .look | .insert | .commit | .release _ | .finish => True

/-- At most one row of each scope is active, inserted, or going to be. -/
def AtMostOne (s : TxState) : Prop := ∀ call, (s.ofScope call).length ≤ 1

/-- A scope with a halt created for another call is the scope of that call. -/
theorem inScope_eq_of_newHalt {call other : TriggerCall} {id : HaltId} {now : ℤ}
    (h : other.inScope (call.newHalt id now) = true) : other.inScope = call.inScope := by
  funext g
  unfold TriggerCall.inScope TriggerCall.newHalt at *
  simp only [Bool.and_eq_true, decide_eq_true_eq] at h
  obtain ⟨⟨-, hlevel⟩, hscope⟩ := h
  rw [← hlevel] at hscope ⊢
  cases hl : call.level <;> simp [hl] at hscope ⊢
  · simp [hscope.1, hscope.2]
  · simp [hscope]
  · simp [hscope]

/-- The scopes of a halt do not depend on its identifier and its time. -/
theorem inScope_newHalt_congr (call other : TriggerCall) (id id' : HaltId) (now now' : ℤ) :
    other.inScope (call.newHalt id now) = other.inScope (call.newHalt id' now') := rfl

theorem length_ofScope (s : TxState) (call : TriggerCall) :
    (s.ofScope call).length = s.halts.countP call.inScope + s.pending.countP call.inScope := by
  rw [TxState.ofScope, ← List.countP_eq_length_filter, List.countP_append]

/-- What one of the transactions inserts, beside the others. -/
theorem pending_at (halts : List TradingHalt) (ps qs : List Tx) (tx : Tx) :
    TxState.pending ⟨halts, ps ++ tx :: qs⟩ = ps.filterMap Tx.coming ++ (tx.coming.toList ++ qs.filterMap Tx.coming) := by
  unfold TxState.pending
  rw [List.filterMap_append, List.filterMap_cons]
  cases tx.coming <;> rfl

theorem pending_without (halts : List TradingHalt) (ps qs : List Tx) :
    TxState.pending ⟨halts, ps ++ qs⟩ = ps.filterMap Tx.coming ++ qs.filterMap Tx.coming :=
  List.filterMap_append

/-- A transaction beside the others adds to each scope what it is going to insert. -/
theorem length_ofScope_at (halts : List TradingHalt) (ps qs : List Tx) (tx : Tx) (call : TriggerCall) :
    (TxState.ofScope ⟨halts, ps ++ tx :: qs⟩ call).length =
      (TxState.ofScope ⟨halts, ps ++ qs⟩ call).length + tx.coming.toList.countP call.inScope := by
  rw [length_ofScope, length_ofScope, pending_at, pending_without]
  simp only [List.countP_append]
  omega

/-- A read that comes back empty makes the first halt of its scope. -/
theorem AtMostOne.empty {halts : List TradingHalt} {ps qs : List Tx} {call : TriggerCall}
    (h : ∀ other, (TxState.ofScope ⟨halts, ps ++ qs⟩ other).length ≤ 1)
    (hnone : TxState.ofScope ⟨halts, ps ++ qs⟩ call = []) : AtMostOne ⟨halts, ps ++ .searching call [] :: qs⟩ := by
  intro other
  rw [length_ofScope_at]
  simp only [Tx.coming, Option.toList_some, List.countP_singleton]
  split_ifs with hscope
  · have hempty : (TxState.ofScope ⟨halts, ps ++ qs⟩ other) = [] := by
      unfold TxState.ofScope at hnone ⊢
      rwa [inScope_eq_of_newHalt hscope]
    rw [hempty]
    rfl
  · exact h other

/-- A release adds no halt to a scope. -/
theorem countP_release_le (halts : List TradingHalt) (id : HaltId) (releasedBy : Option UserId) (now : ℤ)
    (call : TriggerCall) : (release halts id releasedBy now).countP call.inScope ≤ halts.countP call.inScope := by
  unfold release
  rw [List.countP_map]
  refine List.countP_mono_left fun h _ hscope => ?_
  show call.inScope h = true
  rw [Function.comp_apply] at hscope
  split_ifs at hscope
  · simp [TriggerCall.inScope, TradingHalt.isActive] at hscope
  · exact hscope

section
variable {calendar : Calendar} {s t : TxState} {a : TxAct}

/-- Every step keeps the number of halts of a scope, but for a read that comes back empty. -/
theorem AtMostOne.step (h : TxStep calendar s a t) (hs : AtMostOne s) (hclear : NoOverlap s a) : AtMostOne t := by
  cases h with
  | beginTrigger halts txs call =>
    cases hrows : candidates halts call with
    | nil =>
      have hnone : TxState.ofScope ⟨halts, txs ++ []⟩ call = [] := by
        rw [List.append_nil]
        exact hclear hrows
      have hothers : ∀ other, (TxState.ofScope ⟨halts, txs ++ []⟩ other).length ≤ 1 := by
        rw [List.append_nil]
        exact hs
      exact AtMostOne.empty hothers hnone
    | cons id ids =>
      intro other
      rw [length_ofScope_at, List.append_nil]
      exact hs other
  | find hfree h =>
    intro other
    have hone := hs other
    rwa [length_ofScope_at] at hone ⊢
  | @skip halts ps qs call id ids hfree h =>
    have hothers : ∀ other, (TxState.ofScope ⟨halts, ps ++ qs⟩ other).length ≤ 1 := fun other => by
      have hone := hs other
      rwa [length_ofScope_at] at hone
    cases ids with
    | nil =>
      have hnone : TxState.ofScope ⟨halts, ps ++ qs⟩ call = [] := by
        have hlength := congrArg List.length (hclear rfl)
        rw [length_ofScope_at] at hlength
        exact List.length_eq_zero_iff.mp hlength
      exact AtMostOne.empty hothers hnone
    | cons id' ids =>
      intro other
      rw [length_ofScope_at]
      exact hothers other
  | @insert halts ps qs call id now hfresh =>
    intro other
    have hone := hs other
    rw [length_ofScope_at] at hone ⊢
    exact hone
  | commit halts ps qs halt =>
    intro other
    have hone := hs other
    rw [length_ofScope_at, length_ofScope] at hone
    rw [length_ofScope, List.countP_append]
    simp only [Tx.coming, Option.toList_some] at hone
    have hpending : TxState.pending ⟨halts ++ [halt], ps ++ qs⟩ = TxState.pending ⟨halts, ps ++ qs⟩ := rfl
    rw [hpending]
    omega
  | beginRelease txs h =>
    intro other
    rw [length_ofScope_at, List.append_nil]
    exact hs other
  | lock hfree h hactive =>
    intro other
    have hone := hs other
    rwa [length_ofScope_at] at hone ⊢
  | @release halts ps qs halt today now releasedBy hunlocked =>
    intro other
    have hone := hs other
    rw [length_ofScope_at, length_ofScope] at hone
    rw [length_ofScope]
    exact (Nat.add_le_add_right (countP_release_le halts halt.id releasedBy now other) _).trans hone
  | finish halts ps qs tx =>
    intro other
    have hone := hs other
    rw [length_ofScope_at] at hone
    exact (Nat.le_add_right _ _).trans hone

/-- The release of an active halt, where at most one of its scope is active, leaves none. -/
theorem release_leaves_none {id : HaltId} (h : TxStep calendar s (.release id) t) (hs : AtMostOne s)
    {halt : TradingHalt} (hmem : halt ∈ s.halts) (hid : halt.id = id) {call : TriggerCall}
    (hscope : call.inScope halt = true) : ∀ g ∈ t.halts, call.inScope g = false := by
  have hone := hs call
  rw [length_ofScope, List.countP_eq_length_filter] at hone
  cases h with
  | @release halts ps qs locked today now releasedBy hunlocked =>
    intro g hg
    obtain ⟨f, hf, rfl⟩ := List.mem_map.mp hg
    split_ifs with heq
    · simp [TriggerCall.inScope, TradingHalt.isActive]
    · by_contra hscope'
      have hscope' : call.inScope f = true := by simpa using hscope'
      -- both the released halt and `f` are of the scope
      have hlen : (halts.filter call.inScope).length ≤ 1 := by
        dsimp only at hone
        omega
      have hsame : ∀ x ∈ halts.filter call.inScope, ∀ y ∈ halts.filter call.inScope, x = y := by
        rcases hfilter : halts.filter call.inScope with _ | ⟨z, zs⟩
        · simp
        · rw [hfilter, List.length_cons] at hlen
          obtain rfl : zs = [] := List.length_eq_zero_iff.mp (by omega)
          simp
      have hfh := hsame f (List.mem_filter.mpr ⟨hf, hscope'⟩) halt (List.mem_filter.mpr ⟨hmem, hscope⟩)
      exact heq (hfh ▸ hid)

/-- **At most one halt of each scope and level is active**, and its release leaves none, in every run
in which no read comes back empty while a halt of its scope is active or the read of another transaction has
come back empty for it. -/
theorem one_halt_of_a_scope (h : Run (TxStep calendar) NoOverlap TxState.init s) (call : TriggerCall) :
    (s.halts.filter call.inScope).length ≤ 1 ∧
    ∀ id t, TxStep calendar s (.release id) t → ∀ halt ∈ s.halts, halt.id = id → call.inScope halt = true →
      ∀ g ∈ t.halts, call.inScope g = false := by
  have hs : AtMostOne s :=
    h.invariant AtMostOne (fun _ => Nat.zero_le 1) fun hstep hclear hs => hs.step hstep hclear
  refine ⟨?_, fun id t hstep halt hmem hid hscope => release_leaves_none hstep hs hmem hid hscope⟩
  have hone := hs call
  rw [length_ofScope, List.countP_eq_length_filter] at hone
  omega

/-! ### More than one -/

/-- There always is another identifier. -/
theorem exists_newId (ids : List HaltId) : ∃ id, id ∉ ids := by
  have hinjective : Function.Injective fun n => String.ofList (List.replicate n 'h') := fun m n h => by
    simpa using congrArg List.length (String.ofList_injective h)
  have := Infinite.of_injective _ hinjective
  obtain ⟨id, hid⟩ := Infinite.exists_notMem_finset ids.toFinset
  exact ⟨id, fun hmem => hid (List.mem_toFinset.mpr hmem)⟩

/-- A transaction that inserts a halt of a scope goes on and commits one. -/
theorem exists_committed (calendar : Calendar) (halts : List TradingHalt) (ps qs : List Tx) {tx : Tx} {g : TradingHalt}
    (h : tx.coming = some g) :
    ∃ halt, (∀ call : TriggerCall, call.inScope halt = call.inScope g) ∧
      Run (TxStep calendar) AnyStep ⟨halts, ps ++ tx :: qs⟩ ⟨halts ++ [halt], ps ++ qs⟩ := by
  cases tx with
  | found id | waiting id | locked halt => cases h
  | inserted halt =>
    obtain rfl := Option.some.inj h
    exact ⟨halt, fun _ => rfl, Run.single (.commit halts ps qs halt) trivial⟩
  | searching call ids =>
    cases ids with
    | cons id ids => cases h
    | nil =>
      obtain rfl := Option.some.inj h
      obtain ⟨id, hid⟩ := exists_newId ((halts ++ (ps ++ qs).filterMap Tx.row).map TradingHalt.id)
      have hfresh : ∀ halt ∈ halts ++ (ps ++ qs).filterMap Tx.row, halt.id ≠ id := by
        rintro halt hmem rfl
        exact hid (List.mem_map_of_mem hmem)
      refine ⟨call.newHalt id 0, fun other => inScope_newHalt_congr call other id "" 0 0, ?_⟩
      exact (Run.single (.insert 0 hfresh) trivial).step (.commit halts ps qs _) trivial

/-- A read has come back empty while a halt of its scope is active, or while another transaction inserts one: all
commit, and two are active. -/
theorem duplicates_of_empty (calendar : Calendar) {halts : List TradingHalt} {ps qs : List Tx} {call : TriggerCall}
    (hoverlap : TxState.ofScope ⟨halts, ps ++ qs⟩ call ≠ []) :
    ∃ u, Run (TxStep calendar) AnyStep ⟨halts, ps ++ .searching call [] :: qs⟩ u ∧
      2 ≤ (u.halts.filter call.inScope).length := by
  obtain ⟨halt, hscope, hrun⟩ := @exists_committed calendar halts ps qs (.searching call []) _ rfl
  have hnew : call.inScope halt = true := (hscope call).trans (call.inScope_newHalt "" 0)
  obtain ⟨g, hg⟩ := List.exists_mem_of_ne_nil _ hoverlap
  obtain ⟨hmem, hold⟩ := List.mem_filter.mp hg
  obtain hmem | hmem := List.mem_append.mp hmem
  · refine ⟨_, hrun, ?_⟩
    have hpos := List.length_pos_of_mem (List.mem_filter.mpr ⟨hmem, hold⟩)
    rw [List.filter_append, List.length_append, List.filter_singleton, hnew]
    exact Nat.succ_le_succ hpos
  · obtain ⟨tx, htx, hcoming⟩ := List.mem_filterMap.mp hmem
    obtain ⟨as, bs, hsplit⟩ : ∃ as bs, ps ++ qs = as ++ tx :: bs := List.append_of_mem htx
    obtain ⟨other, hother, hrun'⟩ := exists_committed calendar (halts ++ [halt]) as bs hcoming
    rw [hsplit] at hrun
    refine ⟨_, hrun.trans hrun', ?_⟩
    have hsecond : call.inScope other = true := (hother call).trans hold
    simp [List.filter_append, hnew, hsecond]

/-- **A read that comes back empty too early** leads to two active halts of its scope. -/
theorem duplicates_of_overlap (h : TxStep calendar s a t) (hoverlap : ¬ NoOverlap s a) :
    ∃ u call, Run (TxStep calendar) AnyStep t u ∧ 2 ≤ (u.halts.filter (TriggerCall.inScope call)).length := by
  cases h with
  | beginTrigger halts txs call =>
    obtain ⟨hrows, hne⟩ := Classical.not_imp.mp hoverlap
    rw [hrows]
    have hne' : TxState.ofScope ⟨halts, txs ++ []⟩ call ≠ [] := by rwa [List.append_nil]
    obtain ⟨u, hrun, htwo⟩ := duplicates_of_empty calendar hne'
    exact ⟨u, call, hrun, htwo⟩
  | @skip halts ps qs call id ids hfree h =>
    obtain ⟨hleft, hne⟩ := Classical.not_imp.mp hoverlap
    rw [hleft] at hne ⊢
    have hne' : TxState.ofScope ⟨halts, ps ++ qs⟩ call ≠ [] := fun hnone => hne <| by
      refine List.length_eq_zero_iff.mp ?_
      rw [length_ofScope_at, hnone]
      rfl
    obtain ⟨u, hrun, htwo⟩ := duplicates_of_empty calendar hne'
    exact ⟨u, call, hrun, htwo⟩
  | find | insert | commit | beginRelease | lock | release | finish => exact absurd trivial hoverlap

end

/-! ### Samples -/

/-- A read that begins with no halt in the table is left with no row to look at. -/
theorem TxStep.begin_empty (calendar : Calendar) (txs : List Tx) (call : TriggerCall) :
    TxStep calendar ⟨[], txs⟩ (.beginTrigger call) ⟨[], txs ++ [.searching call []]⟩ := by
  have hbegin := @TxStep.beginTrigger calendar [] txs call
  rwa [show candidates [] call = [] from List.mergeSort_nil] at hbegin

/-- Two activations of a user's kill switch at once: both reads come back empty. -/
theorem not_one_halt_of_a_scope_twice :
    ¬ ∀ (calendar : Calendar) (s : TxState), Run (TxStep calendar) AnyStep TxState.init s →
      ∀ call : TriggerCall, (s.halts.filter call.inScope).length ≤ 1 := by
  intro hall
  have hbegin : Run (TxStep newYork2026) AnyStep TxState.init
      ⟨[], [.searching (userActivation "u") [], .searching (userActivation "u") []]⟩ :=
    (Run.single (TxStep.begin_empty _ [] _) trivial).step (TxStep.begin_empty _ _ _) trivial
  have hfirst : TxStep newYork2026
      ⟨[], [] ++ .searching (userActivation "u") [] :: [.searching (userActivation "u") []]⟩ .insert
      ⟨[], [] ++ .inserted ((userActivation "u").newHalt "h1" 0) :: [.searching (userActivation "u") []]⟩ :=
    .insert 0 (by simp [Tx.row])
  have hsecond : TxStep newYork2026
      ⟨[], [.inserted ((userActivation "u").newHalt "h1" 0)] ++ .searching (userActivation "u") [] :: []⟩ .insert
      ⟨[], [.inserted ((userActivation "u").newHalt "h1" 0)] ++ .inserted ((userActivation "u").newHalt "h2" 0) :: []⟩ :=
    .insert 0 (by simp [Tx.row, TriggerCall.newHalt])
  have hcommitted := (((hbegin.step hfirst trivial).step hsecond trivial).step
    (TxStep.commit [] [] [.inserted ((userActivation "u").newHalt "h2" 0)] _) trivial).step
    (TxStep.commit [(userActivation "u").newHalt "h1" 0] [] [] _) trivial
  exact absurd (hall newYork2026 _ hcommitted (userActivation "u")) (by decide +kernel)

/-- One activation, and its release. -/
theorem one_halt_of_a_scope_released :
    ([(userActivation "u").newHalt "h1" 0].filter (userActivation "u").inScope).length ≤ 1 ∧
    ∀ id t, TxStep newYork2026 ⟨[(userActivation "u").newHalt "h1" 0], [.locked ((userActivation "u").newHalt "h1" 0)]⟩
      (.release id) t → ∀ halt ∈ [(userActivation "u").newHalt "h1" 0], halt.id = id →
        (userActivation "u").inScope halt = true → ∀ g ∈ t.halts, (userActivation "u").inScope g = false := by
  generalize hhalt : (userActivation "u").newHalt "h1" 0 = halt
  have hactive : halt.isActive = true := hhalt ▸ rfl
  have hinsert : TxStep newYork2026 ⟨[], [] ++ .searching (userActivation "u") [] :: []⟩ .insert
      ⟨[], [] ++ .inserted halt :: []⟩ := hhalt ▸ .insert 0 (by simp)
  have hlock : TxStep newYork2026 ⟨[halt], [] ++ .waiting halt.id :: []⟩ .look ⟨[halt], [] ++ .locked halt :: []⟩ :=
    .lock (fun _ h => absurd h List.not_mem_nil) (List.mem_singleton_self halt) hactive
  have hmade : Run (TxStep newYork2026) NoOverlap TxState.init ⟨[halt], []⟩ :=
    ((Run.single (TxStep.begin_empty _ [] _) fun _ => rfl).step hinsert trivial).step (TxStep.commit [] [] [] halt) trivial
  have hrelease : TxStep newYork2026 ⟨[halt], []⟩ .beginRelease ⟨[halt], [.waiting halt.id]⟩ :=
    .beginRelease [] ⟨halt, List.mem_singleton_self halt, rfl, hactive⟩
  exact one_halt_of_a_scope ((hmade.step hrelease trivial).step hlock trivial) (userActivation "u")

end StratTrader.Risk
