import StratTrader.Foundation.Runs
import StratTrader.Orders.Conservation
import StratTrader.Orders.Reconcile

/-!
# Snapped positions and streamed executions

Our position of a symbol is written in two ways. Ingestion moves it by each execution;
`reconcile_positions` overwrites it with the broker's quantity. The broker's quantity
contains every execution that has happened, also those whose events are still on their
way, so an event drained after the snap is counted twice.

A state here is the database, the executions of one account that are not published yet,
those in the stream, and those drained, with the lists of positions that snaps have
fetched and not written yet. The executions may be published and drained in any order,
and drained events may be delivered again.

## What is proved

* `positionQty_snap`: after a snap every position of the account is what the list says.
* `TrackedStored.step`: as long as the executions have eight decimals and every snap writes what
  has been drained, our stored position is what has been drained.
* `position_eq_broker`: so it is the broker's once everything has been drained.
* `snap_tracked_iff`: for a single snap the condition is exact.
* `run_reconcilePositions`: a reconciliation that nobody interrupts is a run of these steps.

## Honest scope

A snap writes all rows of the account in one step. The account starts with any positions,
ours equal to the broker's. What a step writes is kept in the decimals of its columns
(`StratTrader.Orders.Stored`).
-/

namespace StratTrader.Orders

open StratTrader.Brokers StratTrader.Foundation

/-! ### What a snap writes -/

/-- What a list of positions says of a symbol; a symbol that is not in it is flat. -/
def reportedQty (positions : List PositionDTO) (symbol : String) : ℚ :=
  match (bySymbol positions).find? symbol with
  | some bp => bp.qty
  | none => 0

@[simp] theorem snapped_key (pos : Position) (bp : PositionDTO) : (snapped pos bp).key = pos.key := by
  unfold snapped; split_ifs <;> rfl

@[simp] theorem snapped_qty (pos : Position) (bp : PositionDTO) : (snapped pos bp).qty = bp.qty := by
  unfold snapped
  split_ifs with h
  · rfl
  · exact not_not.mp (not_or.mp h).1

@[simp] theorem flattened_qty (pos : Position) : (flattened pos).qty = 0 := by
  unfold flattened
  split_ifs with h
  · rfl
  · exact not_not.mp h

/-- The row of one symbol is snapped, and no other row changes. -/
theorem find?_snapPosition (user : UserId) (account : AccountId) (rows : Table Position.key)
    (bp : PositionDTO) (k : AccountId × String) :
    (snapPosition user account rows bp).find? k =
      if k = (account, bp.symbol) then
        some (snapped ((rows.find? k).getD ⟨user, account, bp.symbol, 0, 0, none⟩) bp)
      else rows.find? k := by
  unfold snapPosition
  rw [Table.find?_put, snapped_key, positionRow_key]
  split_ifs with h
  · rw [h, positionRow]
    cases rows.find? (account, bp.symbol) <;> rfl
  · rfl

/-- **After a snap every position of the account is what the broker's list says.** -/
theorem positionQty_snap (user : UserId) (account : AccountId) (db : Db)
    (positions : List PositionDTO) (symbol : String) :
    ({ db with positions := snapPositions user account db.positions positions } : Db).positionQty
      account symbol = reportedQty positions symbol := by
  have hnd : ((bySymbol positions).rows.map fun bp => (account, bp.symbol)).Nodup := by
    have h := (bySymbol positions).nodup.map (Prod.mk_right_injective account)
    rwa [List.map_map] at h
  obtain ⟨heach, hrest⟩ := Table.find?_foldl (fun rows : Table Position.key => rows)
    (f := fun bp row => some (snapped (row.getD ⟨user, account, bp.symbol, 0, 0, none⟩) bp))
    (find?_snapPosition user account) hnd db.positions
  rw [Db.positionQty, snapPositions, Table.find?_mapRows, reportedQty]
  cases hbp : (bySymbol positions).find? symbol with
  | some bp =>
    obtain ⟨hmem, rfl⟩ := Table.find?_eq_some.mp hbp
    have hrow := heach bp hmem
    simp only [hrow, Option.map_some]
    have hseen : bp.symbol ∈ (bySymbol positions).rows.map PositionDTO.symbol :=
      List.mem_map_of_mem hmem
    have hkey : (snapped ((db.positions.find? (account, bp.symbol)).getD
        ⟨user, account, bp.symbol, 0, 0, none⟩) bp).symbol = bp.symbol := by
      have := Table.key_of_find? hrow
      exact (Prod.mk.inj this).2
    rw [flattenUnseen, if_neg, snapped_qty]
    rw [hkey]
    exact fun h => h.2 hseen
  | none =>
    have hunseen : symbol ∉ (bySymbol positions).rows.map PositionDTO.symbol := by
      intro h
      obtain ⟨bp, hmem, e⟩ := List.mem_map.mp h
      exact Table.find?_eq_none.mp hbp bp hmem e
    have hkeys : (account, symbol) ∉ (bySymbol positions).rows.map fun bp => (account, bp.symbol) := by
      intro h
      obtain ⟨bp, hmem, e⟩ := List.mem_map.mp h
      exact hunseen (List.mem_map.mpr ⟨bp, hmem, (Prod.mk.inj e).2⟩)
    rw [hrest _ hkeys]
    cases hrow : db.positions.find? (account, symbol) with
    | none => rfl
    | some pos =>
      have hkey : pos.key = (account, symbol) := Table.key_of_find? hrow
      obtain ⟨h1, h2⟩ := Prod.mk.inj hkey
      simp only [Option.map_some, flattenUnseen, h1, h2, hunseen, not_false_eq_true, and_self, if_true,
        flattened_qty]

/-! ### States and steps -/

/-- What an execution moves the broker's position of a symbol by. -/
def leg (symbol : String) (e : FillEvent) : ℚ :=
  if e.symbol = symbol then (if e.side = .buy then e.qty else -e.qty) else 0

/-- What executions move the broker's position of a symbol by. -/
def net (es : List FillEvent) (symbol : String) : ℚ := (es.map (leg symbol)).sum

@[simp] theorem net_nil (symbol : String) : net [] symbol = 0 := rfl

@[simp] theorem net_append (es fs : List FillEvent) (symbol : String) :
    net (es ++ fs) symbol = net es symbol + net fs symbol := by
  simp [net]

@[simp] theorem net_cons (e : FillEvent) (es : List FillEvent) (symbol : String) :
    net (e :: es) symbol = leg symbol e + net es symbol := by
  simp [net]

/-- One account: our database, the executions by how far they have come, and the snaps under way. -/
structure Feed where
  /-- Our database. -/
  db : Db
  /-- The executions whose events are not published yet. -/
  unpublished : List FillEvent
  /-- The executions whose events are in the stream. -/
  queued : List FillEvent
  /-- The executions whose events have been drained. -/
  drained : List FillEvent
  /-- The lists of positions that have been fetched and not been written. -/
  snaps : List (List PositionDTO)

/-- The broker's quantity of a symbol, which has been `base` at the start. -/
def Feed.brokerQty (base : String → ℚ) (s : Feed) (symbol : String) : ℚ :=
  base symbol + net s.drained symbol + net s.queued symbol + net s.unpublished symbol

/-- What happens in a step. -/
inductive FeedAct where
  /-- The broker executes. -/
  | execute (e : FillEvent)
  /-- A fetched list is written. -/
  | snap (positions : List PositionDTO)
  /-- An event moves on, or a list is fetched or given up. -/
  | move

section
variable (user : UserId) (account : AccountId) (base : String → ℚ)

/-- The steps. -/
inductive FeedStep : Feed → FeedAct → Feed → Prop where
  /-- The broker executes, under a new execution identifier. -/
  | execute (db : Db) (us qs ds : List FillEvent) (ls : List (List PositionDTO)) (e : FillEvent)
    (hexec : isExecution e = true)
    (hnew : e.brokerExecId ∉ (us ++ qs ++ ds).map FillEvent.brokerExecId)
    (hrec : db.fills.find? (some account, e.brokerExecId) = none) :
    FeedStep ⟨db, us, qs, ds, ls⟩ (.execute e) ⟨db, us ++ [e], qs, ds, ls⟩
  /-- An event is published. -/
  | publish (db : Db) (us vs qs ds : List FillEvent) (ls : List (List PositionDTO)) (e : FillEvent) :
    FeedStep ⟨db, us ++ e :: vs, qs, ds, ls⟩ .move ⟨db, us ++ vs, qs ++ [e], ds, ls⟩
  /-- An event is drained: its ingestion commits. -/
  | drain {db db' : Db} (us qs rs ds : List FillEvent) (ls : List (List PositionDTO)) {e : FillEvent}
    {clk : Clock} {r : IngestResult} (h : ingestFillEvent clk e db = some (db', r)) :
    FeedStep ⟨db, us, qs ++ e :: rs, ds, ls⟩ .move ⟨db'.stored, us, qs ++ rs, ds ++ [e], ls⟩
  /-- A drained event is delivered again. -/
  | redeliver (db : Db) (us qs ds : List FillEvent) (ls : List (List PositionDTO)) (clk : Clock)
    {e : FillEvent} (h : e ∈ ds) :
    FeedStep ⟨db, us, qs, ds, ls⟩ .move ⟨ingestStored clk db e, us, qs, ds, ls⟩
  /-- An event that is no execution is ingested. -/
  | note (db : Db) (us qs ds : List FillEvent) (ls : List (List PositionDTO)) (clk : Clock)
    {e : FillEvent} (h : isExecution e = false) :
    FeedStep ⟨db, us, qs, ds, ls⟩ .move ⟨ingestStored clk db e, us, qs, ds, ls⟩
  /-- A snap fetches the broker's list. -/
  | fetch {s : Feed} {positions : List PositionDTO}
    (h : ∀ symbol, reportedQty positions symbol = s.brokerQty base symbol) :
    FeedStep s .move { s with snaps := s.snaps ++ [positions] }
  /-- A snap writes the list it has fetched. -/
  | snap (db : Db) (us qs ds : List FillEvent) (ls ms : List (List PositionDTO))
    (positions : List PositionDTO) :
    FeedStep ⟨db, us, qs, ds, ls ++ positions :: ms⟩ (.snap positions)
      ⟨Db.stored { db with positions := snapPositions user account db.positions positions }, us, qs, ds, ls ++ ms⟩
  /-- A snap is given up. -/
  | giveUp (db : Db) (us qs ds : List FillEvent) (ls ms : List (List PositionDTO))
    (positions : List PositionDTO) :
    FeedStep ⟨db, us, qs, ds, ls ++ positions :: ms⟩ .move ⟨db, us, qs, ds, ls ++ ms⟩

/-- The event is about an order on record, of this account and of the event's symbol and side. -/
def OfOrder (db : Db) (e : FillEvent) : Prop :=
  ∃ o, db.orders.find? e.clientOrderId = some o ∧ o.brokerAccount = some account ∧
    o.symbol = e.symbol ∧ o.side.isBuy = decide (e.side = .buy)

/-- What a step must meet: the broker executes orders on record only, in quantities of eight decimals, and a
snap writes what has been drained. -/
def FeedProper (s : Feed) : FeedAct → Prop
  | .execute e => OfOrder account s.db e ∧ HasPlaces 8 e.qty
  | .snap positions => ∀ symbol, reportedQty positions symbol = base symbol + net s.drained symbol
  | .move => True

/-! ### What has been drained -/

/-- Our position of every symbol is what has been drained, and every execution is recorded
exactly if it has been drained. -/
structure Tracked (s : Feed) : Prop where
  position : ∀ symbol, s.db.positionQty account symbol = base symbol + net s.drained symbol
  executions : ∀ e ∈ s.unpublished ++ s.queued, isExecution e = true
  ofOrder : ∀ e ∈ s.unpublished ++ s.queued ++ s.drained, OfOrder account s.db e
  distinct : ((s.unpublished ++ s.queued).map FillEvent.brokerExecId).Nodup
  fresh : ∀ e ∈ s.unpublished ++ s.queued, s.db.fills.find? (some account, e.brokerExecId) = none
  recorded : ∀ e ∈ s.drained, (s.db.fills.find? (some account, e.brokerExecId)).isSome

variable {user account base}

theorem OfOrder.findOrder {db : Db} {e : FillEvent} (h : OfOrder account db e) :
    ∃ o, Orders.findOrder db e = some o ∧ o.brokerAccount = some account ∧
      o.symbol = e.symbol ∧ o.side.isBuy = decide (e.side = .buy) := by
  obtain ⟨o, ho, hrest⟩ := h
  exact ⟨o, by simp [Orders.findOrder, ho], hrest⟩

theorem OfOrder.ingest {db : Db} {e : FillEvent} (h : OfOrder account db e) (clk : Clock)
    (fill : FillEvent) : OfOrder account (ingest clk db fill) e := by
  obtain ⟨o, ho, ha, hs, hside⟩ := h
  obtain ⟨o', ho', hint⟩ := intent_ingest clk db fill _ o ho
  exact ⟨o', ho', hint.brokerAccount.trans ha, hint.symbol.trans hs, hint.side ▸ hside⟩

/-- The signed quantity by the order's side is what the execution moves the broker's position by. -/
theorem signedQty_eq_leg {o : Order} {e : FillEvent} (hs : o.symbol = e.symbol)
    (hside : o.side.isBuy = decide (e.side = .buy)) (symbol : String) :
    (if account = account ∧ o.symbol = symbol then signedQty o.side e.qty else 0) = leg symbol e := by
  unfold leg signedQty
  rw [hs, hside]
  simp only [true_and, decide_eq_true_eq]

/-- Draining an execution moves our position by what it moved the broker's, and records it. -/
theorem ingest_drained {clk : Clock} {db db' : Db} {e : FillEvent} {r : IngestResult}
    (h : ingestFillEvent clk e db = some (db', r)) (hexec : isExecution e = true)
    (ho : OfOrder account db e) (hnew : db.fills.find? (some account, e.brokerExecId) = none) :
    (∀ symbol, db'.positionQty account symbol = db.positionQty account symbol + leg symbol e) ∧
    ∀ id, db'.fills.find? (some account, id) = none ↔
      db.fills.find? (some account, id) = none ∧ id ≠ e.brokerExecId := by
  obtain ⟨o, ho, ha, hs, hside⟩ := ho.findOrder
  rcases ingest_cases h with ⟨hnone, -⟩ | ⟨o', ho', hrec, -⟩ | ⟨o', a, ts, ho', ha', -, -, rfl⟩
  · rw [ho] at hnone
    cases hnone
  · rw [ho] at ho'
    obtain rfl := Option.some.inj ho'
    obtain ⟨f, hf⟩ := hrec hexec
    rw [ha, hnew] at hf
    cases hf
  · rw [ho] at ho'
    obtain rfl := Option.some.inj ho'
    rw [ha] at ha'
    obtain rfl := Option.some.inj ha'
    refine ⟨fun symbol => ?_, fun id => ?_⟩
    · rw [positionQty_applyFill, signedQty_eq_leg hs hside]
    · rw [Table.find?_put]
      by_cases hid : id = e.brokerExecId <;> simp [Fill.key, hid]

/-- A call that moves no position and records no fill keeps the tracking. -/
theorem Tracked.unmoved {s : Feed} (h : Tracked account base s) (clk : Clock) (e : FillEvent)
    (hkeep : (ingest clk s.db e).fills = s.db.fills ∧ (ingest clk s.db e).positions = s.db.positions) :
    Tracked account base { s with db := ingest clk s.db e } where
  position := fun symbol => by
    rw [← h.position symbol, Db.positionQty, Db.positionQty, hkeep.2]
  executions := h.executions
  ofOrder := fun x hx => (h.ofOrder x hx).ingest clk e
  distinct := h.distinct
  fresh := fun x hx => by rw [hkeep.1]; exact h.fresh x hx
  recorded := fun x hx => by rw [hkeep.1]; exact h.recorded x hx

/-- An execution of an order on record is one more that is on its way. -/
theorem Tracked.execute {db : Db} {us qs ds : List FillEvent} {ls : List (List PositionDTO)}
    (h : Tracked account base ⟨db, us, qs, ds, ls⟩) {e : FillEvent} (hexec : isExecution e = true)
    (hnew : e.brokerExecId ∉ (us ++ qs ++ ds).map FillEvent.brokerExecId)
    (hrec : db.fills.find? (some account, e.brokerExecId) = none) (ho : OfOrder account db e) :
    Tracked account base ⟨db, us ++ [e], qs, ds, ls⟩ := by
  have hperm : (us ++ [e] ++ qs).Perm (e :: (us ++ qs)) := by simp
  have hmem : ∀ x ∈ us ++ [e] ++ qs, x = e ∨ x ∈ us ++ qs := by
    intro x hx
    exact List.mem_cons.mp (hperm.subset hx)
  refine ⟨h.position, fun x hx => ?_, fun x hx => ?_, ?_, fun x hx => ?_, h.recorded⟩
  · rcases hmem x hx with rfl | hx
    · exact hexec
    · exact h.executions x hx
  · rcases List.mem_append.mp hx with hx | hx
    · rcases hmem x hx with rfl | hx
      · exact ho
      · exact h.ofOrder x (List.mem_append_left _ hx)
    · exact h.ofOrder x (List.mem_append_right _ hx)
  · have hnew' : e.brokerExecId ∉ (us ++ qs).map FillEvent.brokerExecId := fun hm =>
      hnew (by rw [List.map_append]; exact List.mem_append_left _ hm)
    exact ((hperm.map FillEvent.brokerExecId).nodup_iff).mpr (List.nodup_cons.mpr ⟨hnew', h.distinct⟩)
  · rcases hmem x hx with rfl | hx
    · exact hrec
    · exact h.fresh x hx

/-- Publishing an event only changes how far it has come. -/
theorem Tracked.publish {db : Db} {us vs qs ds : List FillEvent} {ls : List (List PositionDTO)}
    {e : FillEvent} (h : Tracked account base ⟨db, us ++ e :: vs, qs, ds, ls⟩) :
    Tracked account base ⟨db, us ++ vs, qs ++ [e], ds, ls⟩ := by
  have hperm : (us ++ vs ++ (qs ++ [e])).Perm (us ++ e :: vs ++ qs) := by
    have h1 : (us ++ vs ++ (qs ++ [e])).Perm (e :: (us ++ vs ++ qs)) := by
      rw [← List.append_assoc]
      exact List.perm_append_singleton e _
    have h2 : (us ++ e :: vs ++ qs).Perm (e :: (us ++ vs ++ qs)) :=
      List.perm_middle.append_right qs
    exact h1.trans h2.symm
  refine ⟨h.position, fun x hx => h.executions x (hperm.subset hx), fun x hx => ?_,
    ((hperm.map FillEvent.brokerExecId).nodup_iff).mpr h.distinct,
    fun x hx => h.fresh x (hperm.subset hx), h.recorded⟩
  exact h.ofOrder x ((hperm.append_right ds).subset hx)

/-- Draining an event adds its execution to our position and to what has been drained. -/
theorem Tracked.drain {db db' : Db} {us qs rs ds : List FillEvent} {ls : List (List PositionDTO)}
    {e : FillEvent} {clk : Clock} {r : IngestResult}
    (h : Tracked account base ⟨db, us, qs ++ e :: rs, ds, ls⟩)
    (hr : ingestFillEvent clk e db = some (db', r)) :
    Tracked account base ⟨db', us, qs ++ rs, ds ++ [e], ls⟩ := by
  have hperm : (us ++ (qs ++ e :: rs)).Perm (e :: (us ++ (qs ++ rs))) := by
    rw [← List.append_assoc, ← List.append_assoc]
    exact List.perm_middle
  have hmem : e ∈ us ++ (qs ++ e :: rs) := by simp
  have hsub : ∀ x ∈ us ++ (qs ++ rs), x ∈ us ++ (qs ++ e :: rs) := fun x hx =>
    hperm.symm.subset (List.mem_cons_of_mem e hx)
  obtain ⟨hne, hnd⟩ := List.nodup_cons.mp (((hperm.map FillEvent.brokerExecId).nodup_iff).mp h.distinct)
  obtain ⟨hpos, hfills⟩ := ingest_drained hr (h.executions e hmem)
    (h.ofOrder e (List.mem_append_left _ hmem)) (h.fresh e hmem)
  have hdb : db' = ingest clk db e := by simp only [Orders.ingest, hr]
  refine ⟨fun symbol => ?_, fun x hx => h.executions x (hsub x hx), fun x hx => ?_, hnd,
    fun x hx => ?_, fun x hx => ?_⟩
  · have := h.position symbol
    simp only at this
    rw [hpos, this, net_append, net_cons, net_nil, add_zero, add_assoc]
  · rw [hdb]
    refine (h.ofOrder x ?_).ingest clk e
    rcases List.mem_append.mp hx with hx | hx
    · exact List.mem_append_left _ (hsub x hx)
    · rcases List.mem_append.mp hx with hx | hx
      · exact List.mem_append_right _ hx
      · exact List.mem_append_left _ (List.mem_singleton.mp hx ▸ hmem)
  · refine (hfills _).mpr ⟨h.fresh x (hsub x hx), fun he => hne ?_⟩
    exact he ▸ List.mem_map_of_mem hx
  · rw [← Option.ne_none_iff_isSome]
    intro hnone
    obtain ⟨hold, hid⟩ := (hfills _).mp hnone
    rcases List.mem_append.mp hx with hx | hx
    · exact absurd (h.recorded x hx) (by simp [hold])
    · exact hid (by rw [List.mem_singleton.mp hx])

/-! ### What is stored -/

theorem OfOrder.stored {db : Db} {e : FillEvent} (h : OfOrder account db e) : OfOrder account db.stored e := by
  obtain ⟨o, ho, hrest⟩ := h
  exact ⟨o.stored, by rw [find?_orders_stored, ho, Option.map_some], hrest⟩

/-- What has been drained in quantities of eight decimals is kept by the columns. -/
theorem Tracked.toStored {s : Feed} (h : Tracked account base s)
    (hplaces : ∀ symbol, HasPlaces 8 (base symbol + net s.drained symbol)) :
    Tracked account base { s with db := s.db.stored } where
  position symbol := by
    have hqty := positionQty_stored s.db account symbol
    rwa [h.position symbol, toPlaces_of_hasPlaces (hplaces symbol)] at hqty
  executions := h.executions
  ofOrder e he := (h.ofOrder e he).stored
  distinct := h.distinct
  fresh e he := by
    dsimp only
    rw [find?_fills_stored, h.fresh e he, Option.map_none]
  recorded e he := by
    dsimp only
    rw [find?_fills_stored, Option.isSome_map]
    exact h.recorded e he

variable (account base) in
/-- Our stored position of every symbol is what has been drained, and what is on its way has eight decimals. -/
structure TrackedStored (s : Feed) : Prop extends Tracked account base s where
  stored : s.db.IsStored
  places : ∀ e ∈ s.unpublished ++ s.queued, HasPlaces 8 e.qty

theorem TrackedStored.hasPlaces {s : Feed} (h : TrackedStored account base s) (symbol : String) :
    HasPlaces 8 (base symbol + net s.drained symbol) := by
  rw [← h.position symbol]
  exact h.stored.positionQty account symbol

theorem hasPlaces_leg {e : FillEvent} (h : HasPlaces 8 e.qty) (symbol : String) : HasPlaces 8 (leg symbol e) := by
  unfold leg
  split_ifs
  · exact h
  · exact h.neg
  · exact hasPlaces_zero 8

/-- A call that moves no position and records no fill keeps the tracking. -/
theorem TrackedStored.unmoved {s : Feed} (h : TrackedStored account base s) (clk : Clock) (e : FillEvent)
    (hkeep : (ingest clk s.db e).fills = s.db.fills ∧ (ingest clk s.db e).positions = s.db.positions) :
    TrackedStored account base { s with db := ingestStored clk s.db e } :=
  ⟨(h.toTracked.unmoved clk e hkeep).toStored h.hasPlaces, isStored_stored _, h.places⟩

/-- **One step**: as long as the executions have eight decimals and every snap writes what has been drained, our
position is what has been drained. -/
theorem TrackedStored.step {s t : Feed} {a : FeedAct} (h : TrackedStored account base s)
    (hs : FeedStep user account base s a t) (hp : FeedProper account base s a) :
    TrackedStored account base t := by
  cases hs with
  | execute db us qs ds ls e hexec hnew hrec =>
    refine ⟨h.toTracked.execute hexec hnew hrec hp.1, h.stored, fun x hx => ?_⟩
    rcases List.mem_append.mp hx with hx | hx
    · rcases List.mem_append.mp hx with hx | hx
      · exact h.places x (List.mem_append_left _ hx)
      · rw [List.mem_singleton.mp hx]
        exact hp.2
    · exact h.places x (List.mem_append_right _ hx)
  | publish db us vs qs ds ls e =>
    refine ⟨h.toTracked.publish, h.stored, fun x hx => h.places x ?_⟩
    simp only [List.mem_append, List.mem_cons, List.mem_nil_iff, or_false] at hx ⊢
    tauto
  | drain us qs rs ds ls hr =>
    have he := h.places _ (List.mem_append_right us (List.mem_append_right qs List.mem_cons_self))
    refine ⟨(h.toTracked.drain hr).toStored fun symbol => ?_, isStored_stored _, fun x hx => h.places x ?_⟩
    · rw [net_append, net_cons, net_nil, add_zero, ← add_assoc]
      exact (h.hasPlaces symbol).add (hasPlaces_leg he symbol)
    · simp only [List.mem_append, List.mem_cons] at hx ⊢
      tauto
  | redeliver db us qs ds ls clk he =>
    refine h.unmoved clk _ (ingest_unmoved (fun o ho _ => ?_) clk)
    obtain ⟨o', ho', ha, -⟩ := (h.ofOrder _ (List.mem_append_right _ he)).findOrder
    rw [ho] at ho'
    obtain rfl := Option.some.inj ho'
    rw [ha]
    exact h.recorded _ he
  | note db us qs ds ls clk he =>
    refine h.unmoved clk _ (ingest_unmoved (fun o _ hexec => ?_) clk)
    rw [he] at hexec
    cases hexec
  | fetch hl =>
    exact ⟨⟨h.position, h.executions, h.ofOrder, h.distinct, h.fresh, h.recorded⟩, h.stored, h.places⟩
  | snap db us qs ds ls ms positions =>
    have hsnapped : Tracked account base
        ⟨{ db with positions := snapPositions user account db.positions positions }, us, qs, ds, ls ++ ms⟩ :=
      ⟨fun symbol => (positionQty_snap user account db positions symbol).trans (hp symbol),
        h.executions, h.ofOrder, h.distinct, h.fresh, h.recorded⟩
    exact ⟨hsnapped.toStored h.hasPlaces, isStored_stored _, h.places⟩
  | giveUp =>
    exact ⟨⟨h.position, h.executions, h.ofOrder, h.distinct, h.fresh, h.recorded⟩, h.stored, h.places⟩

/-- A reconciliation that nobody interrupts is a run: it fetches the broker's list and writes it. -/
theorem run_reconcilePositions {s : Feed} {positions : List PositionDTO} {db' : Db} {changed : ℕ}
    (h : reconcilePositions user account (.ok positions) s.db = some (db', changed))
    (hlist : ∀ symbol, reportedQty positions symbol = s.brokerQty base symbol) :
    Run (FeedStep user account base) AnyStep s { s with db := db'.stored } := by
  obtain ⟨db, us, qs, ds, ls⟩ := s
  simp only [reconcilePositions, Option.some.injEq, Prod.mk.injEq] at h
  have hsnap : FeedStep user account base ⟨db, us, qs, ds, ls ++ [positions]⟩ (.snap positions) _ :=
    FeedStep.snap db us qs ds ls [] positions
  rw [h.1, List.append_nil] at hsnap
  exact ((Run.refl _).step (FeedStep.fetch hlist) trivial).step hsnap trivial

/-- For a single snap the condition is exact: after it our position is what has been drained if
and only if the list it writes is, in the decimals of the column. -/
theorem snap_tracked_iff (user : UserId) (db : Db) (ds : List FillEvent) (positions : List PositionDTO) :
    (∀ symbol, (Db.stored { db with positions := snapPositions user account db.positions positions }).positionQty
      account symbol = base symbol + net ds symbol) ↔
      ∀ symbol, toPlaces 8 (reportedQty positions symbol) = base symbol + net ds symbol :=
  forall_congr' fun symbol => by rw [positionQty_stored, positionQty_snap]

/-- The account before the run: our positions are the broker's, and nothing is on its way. -/
structure Start (account : AccountId) (base : String → ℚ) (s : Feed) : Prop where
  stored : s.db.IsStored
  position : ∀ symbol, s.db.positionQty account symbol = base symbol
  idle : s.unpublished = [] ∧ s.queued = [] ∧ s.drained = [] ∧ s.snaps = []

theorem Start.tracked {s : Feed} (h : Start account base s) : TrackedStored account base s := by
  obtain ⟨hu, hq, hd, -⟩ := h.idle
  refine ⟨?_, h.stored, by simp [hu, hq]⟩
  constructor <;> simp [hu, hq, hd, h.position]

/-- Everything that has been executed has been drained. -/
def Feed.Settled (s : Feed) : Prop := s.unpublished = [] ∧ s.queued = []

/-- **Reconciliation never double-counts**, in every run in which orders on record are executed, in quantities of eight
decimals, and every snap writes what has been drained: whenever everything has been drained, our quantity of
every symbol is the broker's. -/
theorem position_eq_broker {s t : Feed} (h0 : Start account base s)
    (hrun : Run (FeedStep user account base) (FeedProper account base) s t) (ht : t.Settled)
    (symbol : String) : t.db.positionQty account symbol = t.brokerQty base symbol := by
  have htracked := hrun.invariant (TrackedStored account base) h0.tracked fun hs hp h => h.step hs hp
  rw [htracked.position symbol, Feed.brokerQty, ht.1, ht.2, net_nil, add_zero, add_zero]

end

/-! ### Samples -/

/-- The sample account before the run: flat. -/
def sampleFeed : Feed := ⟨sampleDb, [], [], [], []⟩

theorem sampleFeed_start : Start "acct" (fun _ => 0) sampleFeed :=
  ⟨⟨by decide +kernel, by decide, by decide⟩, fun _ => rfl, rfl, rfl, rfl, rfl⟩

/-- The broker's list after the sample execution. -/
def longFour : List PositionDTO := [⟨"AAPL", 4, 100, none⟩]

theorem reportedQty_longFour (symbol : String) :
    reportedQty longFour symbol = 0 + net [sampleExecution] symbol := by
  have hsym : reportedQty longFour symbol = if "AAPL" = symbol then 4 else 0 := by
    unfold reportedQty bySymbol longFour
    simp only [List.foldl_cons, List.foldl_nil, Table.find?_put, Table.find?_empty, eq_comm]
    split_ifs <;> rfl
  rw [hsym, zero_add, net_cons, net_nil, add_zero]
  rfl

theorem sampleExecution_ofOrder : OfOrder "acct" sampleDb sampleExecution :=
  ⟨sampleOrder, by decide +kernel, rfl, rfl, rfl⟩

/-- The sample execution has happened. -/
def executedFeed : Feed := ⟨sampleDb, [sampleExecution], [], [], []⟩

/-- The first step of the samples. -/
theorem executedFeed_step (user : UserId) (base : String → ℚ) :
    FeedStep user "acct" base sampleFeed (.execute sampleExecution) executedFeed :=
  FeedStep.execute sampleDb [] [] [] [] sampleExecution (by decide +kernel) (by decide) (by decide)

/-- The condition can be met: a snap after the execution has been drained. -/
theorem position_eq_broker_drainedFirst : ∃ t,
    Run (FeedStep "u" "acct" fun _ => 0) (FeedProper "acct" fun _ => 0) sampleFeed t ∧
      t.Settled ∧ t.db.positionQty "acct" "AAPL" = t.brokerQty (fun _ => 0) "AAPL" := by
  obtain ⟨⟨db', r⟩, hr⟩ := Option.isSome_iff_exists.mp
    (by decide +kernel : (ingestFillEvent sampleClock sampleExecution sampleDb).isSome)
  have h1 := Run.single (P := FeedProper "acct" fun _ => 0) (executedFeed_step "u" fun _ => 0)
    ⟨sampleExecution_ofOrder, by decide +kernel⟩
  have h2 := h1.step (FeedStep.publish sampleDb [] [] [] [] [] sampleExecution) trivial
  have h3 := h2.step (FeedStep.drain [] [] [] [] [] hr) trivial
  have hlist : ∀ symbol, reportedQty longFour symbol =
      Feed.brokerQty (fun _ => 0) ⟨db'.stored, [], [], [sampleExecution], []⟩ symbol := fun symbol => by
    rw [reportedQty_longFour, Feed.brokerQty, net_nil, add_zero, add_zero]
  have h4 := h3.step (FeedStep.fetch hlist) trivial
  have h5 := h4.step (FeedStep.snap db'.stored [] [] [sampleExecution] [] [] longFour) reportedQty_longFour
  exact ⟨_, h5, ⟨rfl, rfl⟩, position_eq_broker sampleFeed_start h5 ⟨rfl, rfl⟩ "AAPL"⟩

/-- The sample account after a snap that runs ahead of the stream. -/
def snappedDb : Db :=
  Db.stored { sampleDb with positions := snapPositions "u" "acct" sampleDb.positions longFour }

/-- The condition matters: when a snap writes an execution whose event is still on its way, and
the event is drained afterwards, the execution is counted twice. -/
theorem position_ne_broker_snappedFirst : ∃ t,
    Run (FeedStep "u" "acct" fun _ => 0) AnyStep sampleFeed t ∧ t.Settled ∧
      t.db.positionQty "acct" "AAPL" = 8 ∧ t.brokerQty (fun _ => 0) "AAPL" = 4 := by
  obtain ⟨⟨db', r⟩, hr⟩ := Option.isSome_iff_exists.mp
    (by decide +kernel : (ingestFillEvent sampleClock sampleExecution snappedDb).isSome)
  have h1 := Run.single (P := AnyStep) (executedFeed_step "u" fun _ => 0) trivial
  have hlist : ∀ symbol, reportedQty longFour symbol =
      Feed.brokerQty (fun _ => 0) executedFeed symbol := fun symbol => by
    rw [reportedQty_longFour, Feed.brokerQty]
    simp [executedFeed]
  have h2 := h1.step (FeedStep.fetch hlist) trivial
  have h3 := h2.step (FeedStep.snap sampleDb [sampleExecution] [] [] [] [] longFour) trivial
  have h4 := h3.step (FeedStep.publish snappedDb [] [] [] [] [] sampleExecution) trivial
  have h5 := h4.step (FeedStep.drain [] [] [] [] [] hr) trivial
  have hqty : ((ingestFillEvent sampleClock sampleExecution snappedDb).map fun p =>
      p.1.stored.positionQty "acct" "AAPL") = some 8 := by decide +kernel
  rw [hr] at hqty
  have hbroker : (0 : ℚ) + net [sampleExecution] "AAPL" + net [] "AAPL" + net [] "AAPL" = 4 := by
    decide +kernel
  exact ⟨_, h5, ⟨rfl, rfl⟩, Option.some.inj hqty, hbroker⟩

end StratTrader.Orders
