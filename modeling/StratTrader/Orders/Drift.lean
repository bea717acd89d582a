import StratTrader.Orders.Reconcile
import StratTrader.Orders.Stored

/-!
# Drifts and their healing

`_apply_reconcile` of `orders/reconcile.py`: our positions of an account are compared with
the broker's, symbol by symbol. A difference is recorded as a drift; when a drift of the
symbol is open already, ours is set to the broker's and the drifts are resolved. That the
second drift follows the first at once is not stored: it is taken from the drift being open
still. A cycle resolves the open drift of a symbol in sync, but it only goes through the
symbols that one of the sides has a row for.

## What is proved

* `view_applyReconcile`: what a cycle makes of one symbol.
* `healing_iff`: a position is changed only by the second of two consecutive drifts, a heal
  leaves no difference and no open drift, and neither does a cycle in sync leave an open
  drift, in every cycle of a sequence, exactly if no symbol with an open drift is on
  neither side in one of the cycles, and none drifts again at a quantity of more than eight
  decimals.

## Honest scope

One account; the cycles do not overlap. The text of an event's `detail`, pushes and metrics
are left out.
-/

namespace StratTrader.Orders

open StratTrader.Brokers StratTrader.Foundation

/-- `ReconEvent.Kind`, of the events that are written. -/
inductive ReconKind where
  /-- `DRIFT`. -/
  | drift
  /-- `HEAL`. -/
  | heal
  deriving DecidableEq

/-- `ReconEvent`. -/
structure ReconEvent where
  /-- The owner. -/
  user : UserId
  /-- The account. -/
  brokerAccount : AccountId
  /-- The symbol. -/
  symbol : String
  /-- The kind. -/
  kind : ReconKind
  /-- Our quantity. -/
  ourQty : ℚ
  /-- The broker's quantity. -/
  brokerQty : ℚ
  /-- When it was resolved, in microseconds. -/
  resolvedAt : Option ℤ := none
  deriving DecidableEq

/-- The owner and the primary key of an account. -/
structure Owned where
  /-- `account.user`. -/
  user : UserId
  /-- `account.id`. -/
  id : AccountId

/-- The tables a cycle writes, and the events it has created so far. -/
structure Recon where
  /-- The positions. -/
  positions : Table Position.key
  /-- The events, in the order of their creation. -/
  events : List ReconEvent
  /-- What is returned. -/
  created : List ReconEvent := []

/-- An event as its columns keep it. -/
def ReconEvent.stored (e : ReconEvent) : ReconEvent :=
  { e with ourQty := toPlaces 8 e.ourQty, brokerQty := toPlaces 8 e.brokerQty }

/-- The tables as their columns keep them. -/
def Recon.stored (r : Recon) : Recon :=
  { r with positions := r.positions.mapRows Position.stored Position.key_stored, events := r.events.map ReconEvent.stored }

/-- `_TOLERANCE`. -/
def tolerance : ℚ := 1 / 100

section
variable (account : Owned)

/-- A drift of a symbol that is open. -/
def ReconEvent.isOpenDrift (symbol : String) (e : ReconEvent) : Bool :=
  decide (e.brokerAccount = account.id) && decide (e.symbol = symbol) && decide (e.kind = .drift) &&
    e.resolvedAt.isNone

/-- `_open_drift`: the drift created last. -/
def openDrift (events : List ReconEvent) (symbol : String) : Option ReconEvent :=
  (events.filter (ReconEvent.isOpenDrift account symbol)).getLast?

/-- Resolve the open drifts of a symbol. -/
def resolveDrifts (events : List ReconEvent) (symbol : String) (now : ℤ) : List ReconEvent :=
  events.map fun e => if e.isOpenDrift account symbol then { e with resolvedAt := some now } else e

/-- A new event. -/
def newEvent (symbol : String) (kind : ReconKind) (ourQty brokerQty : ℚ) (resolvedAt : Option ℤ) : ReconEvent where
  user := account.user
  brokerAccount := account.id
  symbol := symbol
  kind := kind
  ourQty := ourQty
  brokerQty := brokerQty
  resolvedAt := resolvedAt

/-- `_heal`, of the broker's position if there is one. -/
def heal (positions : Table Position.key) (symbol : String) (brokerPos : Option PositionDTO) :
    Table Position.key :=
  match brokerPos with
  | none => positions.modify (account.id, symbol) fun pos => { pos with qty := 0, avgCost := 0 }
  | some bp =>
    if bp.qty = 0 then positions.modify (account.id, symbol) fun pos => { pos with qty := 0, avgCost := 0 }
    else positions.put ⟨account.user, account.id, symbol, bp.qty, bp.avgCost, bp.marketPrice⟩

variable (broker : Table PositionDTO.symbol) (ours : Table Position.key)

/-- `bq`: a symbol the broker does not report is flat. -/
def brokerQty (symbol : String) : ℚ := ((broker.find? symbol).map PositionDTO.qty).getD 0

/-- `oq`: a symbol without a row is flat. -/
def ourQty (symbol : String) : ℚ := ((ours.find? (account.id, symbol)).map Position.qty).getD 0

/-- The quantities differ by no more than the tolerance. -/
def InSync (symbol : String) : Prop := |brokerQty broker symbol - ourQty account ours symbol| ≤ tolerance

instance (symbol : String) : Decidable (InSync account broker ours symbol) :=
  inferInstanceAs (Decidable (_ ≤ _))

/-- The body of the loop: `ours` are the rows as they were read at the start. -/
def reconcileSymbol (now : ℤ) (r : Recon) (symbol : String) : Recon :=
  let bq := brokerQty broker symbol
  let oq := ourQty account ours symbol
  if InSync account broker ours symbol then
    { r with events := resolveDrifts account r.events symbol now }
  else
    let prior := openDrift account r.events symbol
    let drift := newEvent account symbol .drift oq bq none
    let healed := newEvent account symbol .heal oq bq (some now)
    if prior.isSome then {
      positions := heal account r.positions symbol (broker.find? symbol)
      events := resolveDrifts account (r.events ++ [drift, healed]) symbol now
      created := r.created ++ [drift, healed] }
    else { r with events := r.events ++ [drift], created := r.created ++ [drift] }

/-- `_apply_reconcile`, going through the symbols in some order. -/
def applyReconcile (events : List ReconEvent) (symbols : List String) (now : ℤ) : Recon :=
  symbols.foldl (reconcileSymbol account broker ours now) ⟨ours, events, []⟩

end

/-! ### One symbol -/

section
variable {account : Owned} {broker : Table PositionDTO.symbol} {ours : Table Position.key} {now : ℤ}

/-- What there is of one symbol: our row, whether a drift is open, and what has been created. -/
structure SymbolView where
  /-- Our row. -/
  position : Option Position
  /-- Whether a drift is open. -/
  isOpen : Bool
  /-- The kinds of the events created. -/
  created : List ReconKind
  deriving DecidableEq

/-- What a state of a cycle holds of one symbol. -/
def Recon.view (account : Owned) (symbol : String) (r : Recon) : SymbolView where
  position := r.positions.find? (account.id, symbol)
  isOpen := r.events.any (ReconEvent.isOpenDrift account symbol)
  created := (r.created.filter fun e => decide (e.symbol = symbol)).map ReconEvent.kind

/-- Our row after a heal. -/
def healedPosition (account : Owned) (symbol : String) (brokerPos : Option PositionDTO) (pos : Option Position) :
    Option Position :=
  match brokerPos with
  | none => pos.map fun pos => { pos with qty := 0, avgCost := 0 }
  | some bp =>
    if bp.qty = 0 then pos.map fun pos => { pos with qty := 0, avgCost := 0 }
    else some ⟨account.user, account.id, symbol, bp.qty, bp.avgCost, bp.marketPrice⟩

/-- What the turn of a symbol makes of it. -/
def turn (account : Owned) (broker : Table PositionDTO.symbol) (ours : Table Position.key) (symbol : String)
    (v : SymbolView) : SymbolView :=
  if InSync account broker ours symbol then { v with isOpen := false }
  else if v.isOpen then
    ⟨healedPosition account symbol (broker.find? symbol) v.position, false, v.created ++ [.drift, .heal]⟩
  else ⟨v.position, true, v.created ++ [.drift]⟩

theorem isSome_openDrift (events : List ReconEvent) (symbol : String) :
    (openDrift account events symbol).isSome = events.any (ReconEvent.isOpenDrift account symbol) := by
  unfold openDrift
  rw [Bool.eq_iff_iff, List.getLast?_isSome, List.any_eq_true]
  constructor
  · intro h
    obtain ⟨e, he⟩ := List.exists_mem_of_ne_nil _ h
    exact ⟨e, List.mem_filter.mp he⟩
  · rintro ⟨e, he⟩ h
    exact List.not_mem_nil (h ▸ List.mem_filter.mpr he)

/-- After they are resolved, no drift of the symbol is open, and those of another are as before. -/
theorem any_resolveDrifts (events : List ReconEvent) (symbol other : String) :
    (resolveDrifts account events symbol now).any (ReconEvent.isOpenDrift account other) =
      (decide (other ≠ symbol) && events.any (ReconEvent.isOpenDrift account other)) := by
  unfold resolveDrifts
  rw [List.any_map]
  by_cases hsame : other = symbol
  · subst hsame
    rw [decide_eq_false (not_not.mpr rfl), Bool.false_and, List.any_eq_false]
    intro e _
    rw [Function.comp_apply]
    split_ifs with hopen
    · simp [ReconEvent.isOpenDrift]
    · exact hopen
  · rw [decide_eq_true hsame, Bool.true_and]
    refine List.any_congr rfl fun e => ?_
    rw [Function.comp_apply]
    split_ifs with hopen
    · simp only [ReconEvent.isOpenDrift, Bool.and_eq_true, decide_eq_true_eq] at hopen
      have hne : e.symbol ≠ other := fun h => hsame (h.symm.trans hopen.1.1.2)
      simp [ReconEvent.isOpenDrift, hne]
    · rfl

theorem find?_heal (positions : Table Position.key) (symbol other : String) (brokerPos : Option PositionDTO) :
    (heal account positions symbol brokerPos).find? (account.id, other) =
      if other = symbol then healedPosition account symbol brokerPos (positions.find? (account.id, symbol))
      else positions.find? (account.id, other) := by
  have hkey : (account.id, other) = (account.id, symbol) ↔ other = symbol := by
    rw [Prod.mk.injEq, eq_self_iff_true, true_and]
  have hflat := Table.find?_modify positions (account.id, symbol) (f := fun pos => { pos with qty := 0, avgCost := 0 })
    (fun pos => rfl) (account.id, other)
  simp only [hkey] at hflat
  unfold heal healedPosition
  cases brokerPos with
  | none => exact hflat
  | some bp =>
    dsimp only
    split_ifs with hzero hsame hsame
    · rw [hflat, if_pos hsame]
    · rw [hflat, if_neg hsame]
    · rw [Table.find?_put]
      exact if_pos (hkey.mpr hsame)
    · rw [Table.find?_put]
      exact if_neg fun h => hsame (hkey.mp h)

/-- A new event is an open drift of its symbol or of none. -/
theorem isOpenDrift_newEvent (symbol other : String) (kind : ReconKind) (oq bq : ℚ) (resolvedAt : Option ℤ) :
    (newEvent account symbol kind oq bq resolvedAt).isOpenDrift account other =
      (decide (symbol = other) && decide (kind = .drift) && resolvedAt.isNone) := by
  show (decide (account.id = account.id) && decide (symbol = other) && decide (kind = .drift) && resolvedAt.isNone) = _
  rw [decide_eq_true rfl, Bool.true_and]

theorem view_reconcileSymbol_self (r : Recon) (symbol : String) :
    (reconcileSymbol account broker ours now r symbol).view account symbol =
      turn account broker ours symbol (r.view account symbol) := by
  unfold reconcileSymbol turn
  dsimp only
  rw [isSome_openDrift, show (r.view account symbol).isOpen = r.events.any (ReconEvent.isOpenDrift account symbol) from rfl]
  split_ifs with hsync hopen
  · simp only [Recon.view, any_resolveDrifts, ne_eq, not_true_eq_false, decide_false, Bool.false_and]
  · simp only [Recon.view, any_resolveDrifts, find?_heal, ne_eq, not_true_eq_false, decide_false, Bool.false_and,
      if_true, List.filter_append, List.map_append]
    simp [newEvent]
  · simp only [Recon.view, List.any_append, List.any_cons, List.any_nil, isOpenDrift_newEvent, List.filter_append,
      List.map_append]
    simp [newEvent]

theorem view_reconcileSymbol_other (r : Recon) {symbol other : String} (hne : other ≠ symbol) :
    (reconcileSymbol account broker ours now r other).view account symbol = r.view account symbol := by
  unfold reconcileSymbol
  dsimp only
  split_ifs with hsync hopen
  · simp only [Recon.view, any_resolveDrifts, ne_eq, hne.symm, not_false_eq_true, decide_true, Bool.true_and]
  · simp only [Recon.view, any_resolveDrifts, find?_heal, hne.symm, ne_eq, not_false_eq_true, decide_true,
      Bool.true_and, if_false, List.any_append, List.any_cons, List.any_nil, isOpenDrift_newEvent,
      List.filter_append, List.map_append]
    simp [newEvent, hne]
  · simp only [Recon.view, List.any_append, List.any_cons, List.any_nil, isOpenDrift_newEvent, List.filter_append,
      List.map_append]
    simp [newEvent, hne]

/-- What a cycle makes of a symbol: its turn, if it goes through it. -/
theorem view_applyReconcile (events : List ReconEvent) {symbols : List String} (hnd : symbols.Nodup)
    (symbol : String) :
    (applyReconcile account broker ours events symbols now).view account symbol =
      if symbol ∈ symbols then turn account broker ours symbol (Recon.view account symbol ⟨ours, events, []⟩)
      else Recon.view account symbol ⟨ours, events, []⟩ :=
  Table.foldl_view (fun r _ hne => view_reconcileSymbol_other r hne) (fun r => view_reconcileSymbol_self r symbol)
    hnd _

end

/-- What a cycle leaves of a symbol in the tables. -/
theorem view_stored (account : Owned) (symbol : String) (r : Recon) :
    r.stored.view account symbol =
      { r.view account symbol with position := (r.view account symbol).position.map Position.stored } := by
  unfold Recon.view
  have hopen : r.stored.events.any (ReconEvent.isOpenDrift account symbol) =
      r.events.any (ReconEvent.isOpenDrift account symbol) := by
    rw [show r.stored.events = r.events.map ReconEvent.stored from rfl, List.any_map]
    rfl
  rw [hopen, show r.stored.positions.find? (account.id, symbol) = (r.positions.find? (account.id, symbol)).map Position.stored
    from Table.find?_mapRows _ _ Position.key_stored _]
  rfl

/-! ### Cycles -/

/-- What a cycle works on: our rows as they are by then, what the broker reports, and the order in which
the union of the symbols is gone through. -/
structure Cycle (account : Owned) where
  /-- Our positions. -/
  positions : Table Position.key
  /-- The broker's positions, by symbol. -/
  broker : Table PositionDTO.symbol
  /-- `set(broker_positions) | set(our_positions)`. -/
  symbols : List String
  /-- `timezone.now()`. -/
  now : ℤ
  /-- Our rows are as their columns keep them. -/
  stored : ∀ pos ∈ positions.rows, pos.stored = pos
  /-- No symbol is gone through twice. -/
  nodup : symbols.Nodup
  /-- The symbols are those that a side has a row for. -/
  mem_symbols : ∀ symbol, symbol ∈ symbols ↔
    (broker.find? symbol).isSome = true ∨ (positions.find? (account.id, symbol)).isSome = true

section
variable {account : Owned}

namespace Cycle

/-- `_apply_reconcile`, and what it leaves in the tables. -/
def run (c : Cycle account) (events : List ReconEvent) : Recon :=
  (applyReconcile account c.broker c.positions events c.symbols c.now).stored

/-- The quantities of a symbol differ by more than the tolerance. -/
def Differs (c : Cycle account) (symbol : String) : Prop :=
  tolerance < |brokerQty c.broker symbol - ourQty account c.positions symbol|

/-- Neither side has a row for a symbol. -/
def Absent (c : Cycle account) (symbol : String) : Prop :=
  c.broker.find? symbol = none ∧ c.positions.find? (account.id, symbol) = none

end Cycle

/-- Whether a drift of a symbol is open. -/
def isDriftOpen (account : Owned) (events : List ReconEvent) (symbol : String) : Bool :=
  events.any (ReconEvent.isOpenDrift account symbol)

/-- The events before the `k`th cycle of a sequence; there are none before the first. -/
def eventsBefore (cycles : ℕ → Cycle account) : ℕ → List ReconEvent
  | 0 => []
  | k + 1 => ((cycles k).run (eventsBefore cycles k)).events

/-- The `k`th cycle of a sequence treats a symbol as it should. -/
structure HealsSecondDrift (cycles : ℕ → Cycle account) (k : ℕ) (symbol : String) : Prop where
  /-- Our position is changed only on the second of two drifts in a row. -/
  twice : ((cycles k).run (eventsBefore cycles k)).positions.find? (account.id, symbol) ≠
      (cycles k).positions.find? (account.id, symbol) →
    (cycles k).Differs symbol ∧ ∃ j, k = j + 1 ∧ (cycles j).Differs symbol
  /-- After a heal our quantity is the broker's, and no drift is open. -/
  healed : (∃ e ∈ ((cycles k).run (eventsBefore cycles k)).created, e.symbol = symbol ∧ e.kind = .heal) →
    ourQty account ((cycles k).run (eventsBefore cycles k)).positions symbol = brokerQty (cycles k).broker symbol ∧
      isDriftOpen account (eventsBefore cycles (k + 1)) symbol = false
  /-- After a cycle in sync no drift is open; a symbol on neither side is in sync. -/
  inSync : ¬ (cycles k).Differs symbol → isDriftOpen account (eventsBefore cycles (k + 1)) symbol = false

/-- A drift of a symbol is open, and the symbol is on neither side. -/
def Vanishes (cycles : ℕ → Cycle account) (k : ℕ) (symbol : String) : Prop :=
  isDriftOpen account (eventsBefore cycles k) symbol = true ∧ (cycles k).Absent symbol

/-- A drift of a symbol is open, and the symbol drifts again at a quantity of more than eight decimals. -/
def DriftsFiner (cycles : ℕ → Cycle account) (k : ℕ) (symbol : String) : Prop :=
  isDriftOpen account (eventsBefore cycles k) symbol = true ∧ (cycles k).Differs symbol ∧
    ¬ HasPlaces 8 (brokerQty (cycles k).broker symbol)

/-! ### What a cycle does -/

section
variable {c : Cycle account} {events : List ReconEvent} {symbol : String}

theorem Cycle.differs_iff : c.Differs symbol ↔ ¬ InSync account c.broker c.positions symbol := not_le.symm

theorem Cycle.absent_iff : c.Absent symbol ↔ symbol ∉ c.symbols := by
  rw [c.mem_symbols, not_or, Option.not_isSome_iff_eq_none, Option.not_isSome_iff_eq_none]
  rfl

/-- A symbol on neither side is in sync. -/
theorem Cycle.Absent.not_differs (h : c.Absent symbol) : ¬ c.Differs symbol := by
  unfold Cycle.Differs brokerQty ourQty
  rw [h.1, h.2]
  show ¬ tolerance < |(0 : ℚ) - 0|
  rw [sub_zero, abs_zero]
  decide +kernel

theorem Cycle.map_stored (c : Cycle account) (k : AccountId × String) :
    (c.positions.find? k).map Position.stored = c.positions.find? k := by
  cases hpos : c.positions.find? k with
  | none => rfl
  | some pos => exact congrArg some (c.stored pos (Table.mem_of_find? hpos))

/-- An open drift stays open, untouched, while its symbol is on neither side. -/
theorem view_run_of_absent (h : c.Absent symbol) :
    (c.run events).view account symbol = Recon.view account symbol ⟨c.positions, events, []⟩ := by
  rw [Cycle.run, view_stored, view_applyReconcile events c.nodup symbol, if_neg (Cycle.absent_iff.mp h)]
  exact congrArg (fun pos => SymbolView.mk pos _ _) (c.map_stored _)

theorem view_run_of_present (h : ¬ c.Absent symbol) :
    (c.run events).view account symbol =
      { turn account c.broker c.positions symbol (Recon.view account symbol ⟨c.positions, events, []⟩) with
        position := (turn account c.broker c.positions symbol
          (Recon.view account symbol ⟨c.positions, events, []⟩)).position.map Position.stored } := by
  rw [Cycle.run, view_stored, view_applyReconcile events c.nodup symbol, if_pos (not_not.mp (mt Cycle.absent_iff.mpr h))]

/-- A symbol in sync: the row is as it was, no drift is open, and nothing is created. -/
theorem view_run_of_inSync (h : ¬ c.Absent symbol) (hsync : ¬ c.Differs symbol) :
    (c.run events).view account symbol = ⟨c.positions.find? (account.id, symbol), false, []⟩ := by
  rw [view_run_of_present h, turn, if_pos (not_not.mp fun hnot => hsync (Cycle.differs_iff.mpr hnot))]
  exact congrArg (fun pos => SymbolView.mk pos _ _) (c.map_stored _)

/-- A first drift: the row is as it was, and the drift is open. -/
theorem view_run_of_first (hdiffers : c.Differs symbol) (hopen : isDriftOpen account events symbol = false) :
    (c.run events).view account symbol = ⟨c.positions.find? (account.id, symbol), true, [.drift]⟩ := by
  rw [view_run_of_present fun h => h.not_differs hdiffers, turn, if_neg (Cycle.differs_iff.mp hdiffers),
    if_neg (by rw [Recon.view]; exact Bool.eq_false_iff.mp hopen)]
  exact congrArg (fun pos => SymbolView.mk pos _ _) (c.map_stored _)

/-- A second drift: the row is healed, and no drift is open. -/
theorem view_run_of_second (hdiffers : c.Differs symbol) (hopen : isDriftOpen account events symbol = true) :
    (c.run events).view account symbol =
      ⟨(healedPosition account symbol (c.broker.find? symbol) (c.positions.find? (account.id, symbol))).map Position.stored,
        false, [.drift, .heal]⟩ := by
  rw [view_run_of_present fun h => h.not_differs hdiffers, turn, if_neg (Cycle.differs_iff.mp hdiffers),
    if_pos (by rw [Recon.view]; exact hopen)]
  rfl

/-! ### Whether a drift is open after a cycle -/

theorem isDriftOpen_run (c : Cycle account) (events : List ReconEvent) (symbol : String) :
    isDriftOpen account (c.run events).events symbol = ((c.run events).view account symbol).isOpen := rfl

theorem isDriftOpen_of_absent (h : c.Absent symbol) :
    isDriftOpen account (c.run events).events symbol = isDriftOpen account events symbol := by
  rw [isDriftOpen_run, view_run_of_absent h]
  rfl

theorem isDriftOpen_of_inSync (h : ¬ c.Absent symbol) (hsync : ¬ c.Differs symbol) :
    isDriftOpen account (c.run events).events symbol = false := by
  rw [isDriftOpen_run, view_run_of_inSync h hsync]

/-- A position is changed, and a heal is recorded, only on a drift while one is open. -/
theorem open_of_heals (h : (c.run events).positions.find? (account.id, symbol) ≠ c.positions.find? (account.id, symbol) ∨
    ∃ e ∈ (c.run events).created, e.symbol = symbol ∧ e.kind = .heal) :
    c.Differs symbol ∧ isDriftOpen account events symbol = true := by
  have hview : ∀ {v : SymbolView}, (c.run events).view account symbol = v →
      v.position ≠ c.positions.find? (account.id, symbol) ∨ ReconKind.heal ∈ v.created := by
    rintro v rfl
    refine h.imp id fun ⟨e, he, hsymbol, hkind⟩ => ?_
    exact List.mem_map.mpr ⟨e, List.mem_filter.mpr ⟨he, decide_eq_true hsymbol⟩, hkind⟩
  by_cases habsent : c.Absent symbol
  · rcases hview (view_run_of_absent habsent) with hpos | hheal
    · exact absurd rfl hpos
    · exact absurd hheal List.not_mem_nil
  by_cases hdiffers : c.Differs symbol
  · refine ⟨hdiffers, Bool.not_eq_false _ ▸ fun hclosed => ?_⟩
    rcases hview (view_run_of_first hdiffers hclosed) with hpos | hheal
    · exact hpos rfl
    · exact absurd (List.mem_singleton.mp hheal) (by decide)
  · rcases hview (view_run_of_inSync habsent hdiffers) with hpos | hheal
    · exact absurd rfl hpos
    · exact absurd hheal List.not_mem_nil

/-- The quantity after a heal is the broker's, in the decimals of the column. -/
theorem qty_healedPosition (brokerPos : Option PositionDTO) (pos : Option Position) :
    (((healedPosition account symbol brokerPos pos).map Position.stored).map Position.qty).getD 0 =
      toPlaces 8 ((brokerPos.map PositionDTO.qty).getD 0) := by
  have hflat : (((pos.map fun pos => { pos with qty := 0, avgCost := 0 }).map Position.stored).map Position.qty).getD 0 =
      (0 : ℚ) := by
    cases pos with
    | none => rfl
    | some pos => exact toPlaces_zero 8
  unfold healedPosition
  cases brokerPos with
  | none => exact hflat.trans (toPlaces_zero 8).symm
  | some bp =>
    dsimp only
    split_ifs with hzero
    · rw [Option.map_some, Option.getD_some, hzero, toPlaces_zero]
      exact hflat
    · rfl

/-- The quantity after a second drift. -/
theorem ourQty_run_of_second (hdiffers : c.Differs symbol) (hopen : isDriftOpen account events symbol = true) :
    ourQty account (c.run events).positions symbol = toPlaces 8 (brokerQty c.broker symbol) := by
  have hpos := congrArg SymbolView.position (view_run_of_second hdiffers hopen)
  exact (congrArg (fun pos : Option Position => (pos.map Position.qty).getD 0) hpos).trans (qty_healedPosition _ _)

/-! ### Sequences of cycles -/

variable {cycles : ℕ → Cycle account}

/-- An open drift is one of the cycle before, if none has vanished. -/
theorem differs_of_open {k : ℕ} (hkept : ∀ j < k, ¬ Vanishes cycles j symbol)
    (hopen : isDriftOpen account (eventsBefore cycles k) symbol = true) :
    ∃ j, k = j + 1 ∧ (cycles j).Differs symbol := by
  cases k with
  | zero => cases hopen
  | succ j =>
    refine ⟨j, rfl, ?_⟩
    rw [eventsBefore] at hopen
    by_contra hsync
    by_cases habsent : (cycles j).Absent symbol
    · rw [isDriftOpen_of_absent habsent] at hopen
      exact hkept j (Nat.lt_succ_self j) ⟨hopen, habsent⟩
    · rw [isDriftOpen_of_inSync habsent hsync] at hopen
      cases hopen

theorem healsSecondDrift {k : ℕ} (hkept : ∀ j ≤ k, ¬ Vanishes cycles j symbol)
    (hplaces : ¬ DriftsFiner cycles k symbol) : HealsSecondDrift cycles k symbol where
  twice hchanged := by
    obtain ⟨hdiffers, hopen⟩ := open_of_heals (.inl hchanged)
    exact ⟨hdiffers, differs_of_open (fun j hj => hkept j hj.le) hopen⟩
  healed hheal := by
    obtain ⟨hdiffers, hopen⟩ := open_of_heals (.inr hheal)
    refine ⟨(ourQty_run_of_second hdiffers hopen).trans (toPlaces_of_hasPlaces ?_), ?_⟩
    · by_contra hfiner
      exact hplaces ⟨hopen, hdiffers, hfiner⟩
    · rw [eventsBefore, isDriftOpen_run, view_run_of_second hdiffers hopen]
  inSync hsync := by
    rw [eventsBefore]
    by_cases habsent : (cycles k).Absent symbol
    · rw [isDriftOpen_of_absent habsent]
      exact Bool.eq_false_iff.mpr fun hopen => hkept k le_rfl ⟨hopen, habsent⟩
    · exact isDriftOpen_of_inSync habsent hsync

/-- On a second drift a heal is recorded. -/
theorem exists_heal (hdiffers : c.Differs symbol) (hopen : isDriftOpen account events symbol = true) :
    ∃ e ∈ (c.run events).created, e.symbol = symbol ∧ e.kind = .heal := by
  have hcreated := congrArg SymbolView.created (view_run_of_second hdiffers hopen)
  have hheal : ReconKind.heal ∈ ((c.run events).view account symbol).created := by
    rw [hcreated]
    exact .tail _ (.head _)
  obtain ⟨e, he, hkind⟩ := List.mem_map.mp hheal
  obtain ⟨he, hsymbol⟩ := List.mem_filter.mp he
  exact ⟨e, he, of_decide_eq_true hsymbol, hkind⟩

/-- **A drift is healed on its second cycle in a row**, and resolved otherwise, in each of the first `n`
cycles of any sequence, exactly if in none of them a symbol with an open drift is on neither side or drifts at a
quantity of more than eight decimals. -/
theorem healing_iff (cycles : ℕ → Cycle account) (n : ℕ) :
    (∀ k < n, ∀ symbol, HealsSecondDrift cycles k symbol) ↔
      ∀ k < n, ∀ symbol, ¬ Vanishes cycles k symbol ∧ ¬ DriftsFiner cycles k symbol := by
  constructor
  · intro hheals k hk symbol
    constructor
    · rintro ⟨hopen, habsent⟩
      have hclosed := (hheals k hk symbol).inSync habsent.not_differs
      rw [eventsBefore, isDriftOpen_of_absent habsent, hopen] at hclosed
      cases hclosed
    · rintro ⟨hopen, hdiffers, hfiner⟩
      obtain ⟨hqty, -⟩ := (hheals k hk symbol).healed (exists_heal hdiffers hopen)
      rw [ourQty_run_of_second hdiffers hopen] at hqty
      exact hfiner (hasPlaces_iff.mpr hqty)
  · intro hkept k hk symbol
    exact healsSecondDrift (fun j hj => (hkept j (hj.trans_lt hk) symbol).1) (hkept k hk symbol).2

end

end

/-! ### A drift that vanishes -/

/-- The broker holds 5 of `AAPL`, and we have no row. -/
def sampleDrift : Cycle ⟨"u", "acct"⟩ where
  positions := Table.empty
  broker := Table.empty.put ⟨"AAPL", 5, 100, none⟩
  symbols := ["AAPL"]
  now := 0
  stored := fun _ h => absurd h List.not_mem_nil
  nodup := List.nodup_singleton _
  mem_symbols symbol := by
    rw [Table.find?_put, Table.find?_empty, Table.find?_empty, List.mem_singleton]
    split_ifs with h <;> simp [h]

/-- Neither side has a row. -/
def sampleFlat : Cycle ⟨"u", "acct"⟩ where
  positions := Table.empty
  broker := Table.empty
  symbols := []
  now := 1
  stored := fun _ h => absurd h List.not_mem_nil
  nodup := List.nodup_nil
  mem_symbols symbol := by simp

/-- A drift whose position is closed at the broker before the next cycle stays open: the second cycle
goes through no symbol. -/
theorem not_healsSecondDrift_vanished :
    ¬ ∀ (account : Owned) (cycles : ℕ → Cycle account) (k : ℕ) (symbol : String), HealsSecondDrift cycles k symbol := by
  intro hheals
  have hsync := (hheals ⟨"u", "acct"⟩ (fun k => if k = 0 then sampleDrift else sampleFlat) 1 "AAPL").inSync
  have habsent : sampleFlat.Absent "AAPL" := ⟨rfl, rfl⟩
  exact absurd (hsync habsent.not_differs) (by decide +kernel)

end StratTrader.Orders
