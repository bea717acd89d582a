import StratTrader.Foundation.Places
import StratTrader.Orders.Ingest

/-!
# What the columns keep

A quantity is stored with eight decimals and a price with four (`DecimalField(max_digits=18, …)`). Django hands a number to
Postgres as it is, and the column keeps the nearest one of its decimals, half away from zero. So a call computes with the
numbers of the rows it has read and of the event, and what it writes is rounded afterwards, each column for itself.

`ingest` is what a call computes. `ingestStored` is what it leaves in the tables: the rows it has not written are rounded
already.

## What is proved

* `isStored_stored`: the rows of a stored database are as their columns keep them.
* `intent_ingestStored`: a call keeps the intent of every order on record.

## Honest scope

Sums are exact before they are rounded: Python keeps 28 digits of them. A number of more digits before the point than its
column takes is refused, and the call that writes it rolled back; a call here is one that commits.
-/

namespace StratTrader.Orders

open StratTrader.Brokers StratTrader.Foundation

/-! ### Rows -/

/-- An order as its columns keep it. -/
def Order.stored (o : Order) : Order :=
  { o with
    qty := toPlaces 8 o.qty
    limitPrice := o.limitPrice.map (toPlaces 4)
    stopPrice := o.stopPrice.map (toPlaces 4)
    optionStrike := o.optionStrike.map (toPlaces 4)
    filledQty := toPlaces 8 o.filledQty }

/-- A fill as its columns keep it. -/
def Fill.stored (f : Fill) : Fill := { f with qty := toPlaces 8 f.qty, price := toPlaces 4 f.price }

/-- A position as its columns keep it. -/
def Position.stored (p : Position) : Position :=
  { p with qty := toPlaces 8 p.qty, avgCost := toPlaces 4 p.avgCost, marketPrice := p.marketPrice.map (toPlaces 4) }

theorem Position.key_stored (p : Position) : p.stored.key = p.key := rfl

/-- The tables as their columns keep them. -/
def Db.stored (db : Db) : Db where
  orders := db.orders.mapRows Order.stored fun _ => rfl
  fills := db.fills.mapRows Fill.stored fun _ => rfl
  positions := db.positions.mapRows Position.stored Position.key_stored

/-- The rows are as their columns keep them. -/
structure Db.IsStored (db : Db) : Prop where
  orders : ∀ o ∈ db.orders.rows, o.stored = o
  fills : ∀ f ∈ db.fills.rows, f.stored = f
  positions : ∀ p ∈ db.positions.rows, p.stored = p

theorem toPlaces_toPlaces (d : ℕ) (x : ℚ) : toPlaces d (toPlaces d x) = toPlaces d x :=
  toPlaces_of_hasPlaces (hasPlaces_toPlaces d x)

theorem map_toPlaces_toPlaces (d : ℕ) (x : Option ℚ) :
    (x.map (toPlaces d)).map (toPlaces d) = x.map (toPlaces d) := by
  cases x with
  | none => rfl
  | some x => exact congrArg some (toPlaces_toPlaces d x)

theorem isStored_stored (db : Db) : db.stored.IsStored where
  orders o ho := by
    obtain ⟨o, -, rfl⟩ := List.mem_map.mp ho
    simp only [Order.stored, toPlaces_toPlaces, map_toPlaces_toPlaces]
  fills f hf := by
    obtain ⟨f, -, rfl⟩ := List.mem_map.mp hf
    simp only [Fill.stored, toPlaces_toPlaces]
  positions p hp := by
    obtain ⟨p, -, rfl⟩ := List.mem_map.mp hp
    simp only [Position.stored, toPlaces_toPlaces, map_toPlaces_toPlaces]

@[simp] theorem find?_orders_stored (db : Db) (k : String) :
    db.stored.orders.find? k = (db.orders.find? k).map Order.stored :=
  Table.find?_mapRows db.orders Order.stored (fun _ => rfl) k

@[simp] theorem find?_fills_stored (db : Db) (k : Option AccountId × String) :
    db.stored.fills.find? k = (db.fills.find? k).map Fill.stored :=
  Table.find?_mapRows db.fills Fill.stored (fun _ => rfl) k

@[simp] theorem find?_positions_stored (db : Db) (k : AccountId × String) :
    db.stored.positions.find? k = (db.positions.find? k).map Position.stored :=
  Table.find?_mapRows db.positions Position.stored (fun _ => rfl) k

/-- The stored quantity of a symbol; no row is a flat position still. -/
theorem positionQty_stored (db : Db) (account : AccountId) (symbol : String) :
    db.stored.positionQty account symbol = toPlaces 8 (db.positionQty account symbol) := by
  unfold Db.positionQty
  rw [find?_positions_stored]
  cases db.positions.find? (account, symbol) with
  | none => exact (toPlaces_zero 8).symm
  | some pos => rfl

namespace Db.IsStored

variable {db : Db}

theorem order (h : db.IsStored) {k : String} {o : Order} (ho : db.orders.find? k = some o) :
    HasPlaces 8 o.qty ∧ HasPlaces 8 o.filledQty := by
  have hrow := h.orders o (Table.mem_of_find? ho)
  exact ⟨hasPlaces_iff.mpr (congrArg Order.qty hrow), hasPlaces_iff.mpr (congrArg Order.filledQty hrow)⟩

theorem positionQty (h : db.IsStored) (account : AccountId) (symbol : String) :
    HasPlaces 8 (db.positionQty account symbol) := by
  unfold Db.positionQty
  cases hpos : db.positions.find? (account, symbol) with
  | none => exact hasPlaces_zero 8
  | some pos => exact hasPlaces_iff.mpr (congrArg Position.qty (h.positions pos (Table.mem_of_find? hpos)))

/-- What a call leaves alone is as it was. -/
theorem stored_unmoved (h : db.IsStored) {db' : Db} (hfills : db'.fills = db.fills)
    (hpositions : db'.positions = db.positions) :
    db'.stored.fills = db.fills ∧ db'.stored.positions = db.positions := by
  have hrows := h.fills
  have hrows' := h.positions
  rw [← hfills] at hrows ⊢
  rw [← hpositions] at hrows' ⊢
  exact ⟨Table.mapRows_eq_self (fun f => rfl : ∀ f : Fill, f.stored.key = f.key) hrows,
    Table.mapRows_eq_self (fun p => rfl : ∀ p : Position, p.stored.key = p.key) hrows'⟩

end Db.IsStored

theorem Order.sameIntent_stored {o : Order} (h : HasPlaces 8 o.qty) : o.SameIntent o.stored :=
  ⟨rfl, rfl, rfl, rfl, rfl, toPlaces_of_hasPlaces h⟩

/-! ### Calls -/

/-- The tables after a call of `ingest_fill_event`. -/
def ingestStored (clk : Clock) (db : Db) (fill : FillEvent) : Db := (ingest clk db fill).stored

/-- The tables after a sequence of calls. -/
def ingestStoredAll (clk : Clock) (db : Db) (fills : List FillEvent) : Db := fills.foldl (ingestStored clk) db

theorem ingestStoredAll_concat (clk : Clock) (db : Db) (fills : List FillEvent) (fill : FillEvent) :
    ingestStoredAll clk db (fills ++ [fill]) = ingestStored clk (ingestStoredAll clk db fills) fill :=
  List.foldl_append

/-- A call keeps the intent of every order on record. -/
theorem intent_ingestStored {db : Db} (h : db.IsStored) (clk : Clock) (fill : FillEvent) :
    Table.Kept Order.SameIntent db.orders (ingestStored clk db fill).orders := by
  intro k o ho
  obtain ⟨o', ho', hint⟩ := intent_ingest clk db fill k o ho
  refine ⟨o'.stored, ?_, hint.trans _ _ _ (Order.sameIntent_stored ?_)⟩
  · rw [ingestStored, find?_orders_stored, ho', Option.map_some]
  · rw [hint.qty]
    exact (h.order ho).1

end StratTrader.Orders
