import StratTrader.Foundation.JsonCodec
import StratTrader.Foundation.NumeralText
import StratTrader.Orders.Fills

/-!
# Fills on the wire

`fill_to_wire` and `wire_to_fill` of `orders/fills.py`, and the JSON text between them: what the
producers of a stream write, and what the consumer reads.

## What is proved

* `wireToFill_dumps`: what is read of a fill that was written is the fill with the surrogates of its
  texts joined; everything else, the digits and the exponents of the decimals too, is as it was.
* `wire_roundTrip_iff`: so a fill is read as it was written exactly if no text of it has a high
  surrogate with a low one behind it.
* `readWire_published`, `published_settled`: an event that the consumer can process is read as it was
  published, and its message is settled once ingestion takes it.

## Honest scope

What `Decimal` makes of a value that is no text is a parameter, as `fill_to_wire` writes only texts.
`upper` is modelled as far as it decides whether a text is `SELL`. For the consumer a text has no
surrogates and a decimal is finite.
-/

namespace StratTrader.Orders

open StratTrader.Brokers StratTrader.Foundation

/-! ### Fills -/

/-- The side of a fill. -/
inductive WireSide where
  /-- A `Side`. -/
  | side (s : Side)
  /-- Another value, as `str` writes it. -/
  | other (text : PyText)
  deriving DecidableEq

/-- A `FillEvent`, of which nothing checks what the fields hold. -/
structure RawFill where
  /-- `broker_exec_id`. -/
  brokerExecId : PyJson
  /-- `client_order_id`. -/
  clientOrderId : PyJson
  /-- `broker_order_id`. -/
  brokerOrderId : PyJson
  /-- `symbol`. -/
  symbol : PyJson
  /-- `side`. -/
  side : WireSide
  /-- `event_type`. -/
  eventType : PyJson
  /-- `qty`. -/
  qty : PyDecimal
  /-- `price`. -/
  price : PyDecimal
  /-- `ts`. -/
  ts : PyJson
  /-- `filled_qty`. -/
  filledQty : PyDecimal

/-- A `FillEvent` whose fields are what they are annotated as, with finite decimals and no empty timestamp. -/
@[ext] structure TypedFill where
  /-- `broker_exec_id`. -/
  brokerExecId : PyText
  /-- `client_order_id`. -/
  clientOrderId : PyText
  /-- `broker_order_id`. -/
  brokerOrderId : PyText
  /-- `symbol`. -/
  symbol : PyText
  /-- `side`. -/
  side : Side
  /-- `event_type`. -/
  eventType : PyText
  /-- `qty`. -/
  qty : FiniteDecimal
  /-- `price`. -/
  price : FiniteDecimal
  /-- `ts`. -/
  ts : Option PyText
  /-- `filled_qty`. -/
  filledQty : FiniteDecimal
  /-- There is no empty timestamp. -/
  ts_nonempty : ts ≠ some []
  deriving DecidableEq

/-- The fill, as one of which nothing is known. -/
def TypedFill.raw (fill : TypedFill) : RawFill where
  brokerExecId := .str fill.brokerExecId
  clientOrderId := .str fill.clientOrderId
  brokerOrderId := .str fill.brokerOrderId
  symbol := .str fill.symbol
  side := .side fill.side
  eventType := .str fill.eventType
  qty := .finite fill.qty
  price := .finite fill.price
  ts := fill.ts.elim (.atom .null) .str
  filledQty := .finite fill.filledQty

/-! ### Writing -/

/-- `side.value`. -/
def sideValue : Side → String
  | .buy => "BUY"
  | .sell => "SELL"

/-- `fill.side.value if isinstance(fill.side, Side) else str(fill.side)`. -/
def WireSide.text : WireSide → PyText
  | side s => PyText.ofString (sideValue s)
  | other text => text

/-- A `dict` literal. -/
def dictOf (entries : List (String × PyJson)) : List (PyText × PyJson) :=
  entries.map fun e => (PyText.ofString e.1, e.2)

/-- What `fill_to_wire` puts under the keys. -/
def wireEntries (fill : RawFill) : List (String × PyJson) :=
  [("broker_exec_id", fill.brokerExecId),
    ("client_order_id", fill.clientOrderId),
    ("broker_order_id", fill.brokerOrderId),
    ("symbol", fill.symbol),
    ("side", .str fill.side.text),
    ("event_type", fill.eventType),
    ("qty", .str (PyText.ofString fill.qty.str)),
    ("price", .str (PyText.ofString fill.price.str)),
    ("ts", fill.ts.orElse (.str [])),
    ("filled_qty", .str (PyText.ofString fill.filledQty.str))]

/-- `fill_to_wire`. -/
def fillToWire (fill : RawFill) : PyJson := .dict (dictOf (wireEntries fill))

/-! ### Reading -/

/-- `d.get(name, default)`. -/
def getKey (d : List (PyText × PyJson)) (name : String) (default : PyJson) : PyJson :=
  (d.lookup (PyText.ofString name)).getD default

/-- `upper` of a character, where that is in `SELL`. -/
def upperPoint (p : CodePoint) : CodePoint :=
  if 0x61 ≤ p.val ∧ p.val ≤ 0x7A then .chr (p.val - 0x20)
  else if p.val = 0x17F then .chr 0x53
  else p

/-- `Side.SELL if str(value).upper() == "SELL" else Side.BUY`: only a text can be `SELL`. -/
def readSide : PyJson → Side
  | .str t => if t.map upperPoint = PyText.ofString "SELL" then .sell else .buy
  | .atom _ => .buy
  | .list _ => .buy
  | .dict _ => .buy

section
variable (decimalOf : PyJson → Option PyDecimal)

/-- `Decimal(value)`, where `decimalOf` says what it makes of a value that is no text. -/
def readDecimal : PyJson → Option PyDecimal
  | .str t => t.string?.bind PyDecimal.ofText
  | v => decimalOf v

/-- `wire_to_fill`: `none` is an exception. -/
def wireToFill : PyJson → Option RawFill
  | .dict d => do
    let decimal (name : String) : Option PyDecimal :=
      readDecimal decimalOf ((getKey d name (.str (PyText.ofString "0"))).orElse (.str (PyText.ofString "0")))
    let qty ← decimal "qty"
    let price ← decimal "price"
    let filledQty ← decimal "filled_qty"
    return {
      brokerExecId := getKey d "broker_exec_id" (.str [])
      clientOrderId := getKey d "client_order_id" (.str [])
      brokerOrderId := getKey d "broker_order_id" (.str [])
      symbol := getKey d "symbol" (.str [])
      side := .side (readSide (getKey d "side" (.str [])))
      eventType := getKey d "event_type" (.str (PyText.ofString "new"))
      qty := qty
      price := price
      ts := (getKey d "ts" (.atom .null)).orElse (.atom .null)
      filledQty := filledQty }
  | _ => none

end

/-! ### What is read of what was written -/

theorem getKey_dictOf (entries : List (String × PyJson)) (name : String) (default : PyJson) :
    getKey (dictOf entries) name default = (entries.lookup name).getD default := by
  have hlookup : (dictOf entries).lookup (PyText.ofString name) = entries.lookup name := by
    induction entries with
    | nil => rfl
    | cons e entries ih =>
      have hkey : (PyText.ofString name == PyText.ofString e.1) = (name == e.1) := by
        rw [Bool.eq_iff_iff, beq_iff_eq, beq_iff_eq, PyText.ofString_inj]
      rw [dictOf, List.map_cons, List.lookup_cons, List.lookup_cons, hkey, ← ih]
      rfl
  unfold getKey
  rw [hlookup]

/-- A `dict` literal with distinct keys is read with the same keys. -/
theorem joined_dictOf {entries : List (String × PyJson)} (h : (entries.map Prod.fst).Nodup) :
    PyJson.joined (.dict (dictOf entries)) = .dict (dictOf (entries.map fun e => (e.1, e.2.joined))) := by
  have hmembers : PyJson.joinedMembers (dictOf entries) = dictOf (entries.map fun e => (e.1, e.2.joined)) := by
    unfold dictOf
    rw [PyJson.joinedMembers_eq, List.map_map, List.map_map]
    refine List.map_congr_left fun e _ => ?_
    exact Prod.ext (PyText.join_ofString e.1) rfl
  have hkeys : ((dictOf (entries.map fun e => (e.1, e.2.joined))).map Prod.fst).Nodup := by
    have hmap := h.map fun _ _ => PyText.ofString_inj.mp
    unfold dictOf
    rw [List.map_map, List.map_map]
    rwa [List.map_map] at hmap
  rw [PyJson.joined, hmembers, mergeEntries_of_nodup hkeys, List.nil_append]

theorem nodup_wireEntries (fill : RawFill) : ((wireEntries fill).map Prod.fst).Nodup := by
  simp only [wireEntries, List.map_cons, List.map_nil]
  decide

/-- A `Side` is read as itself. -/
theorem readSide_sideValue (s : Side) : readSide (.str (PyText.ofString (sideValue s))) = s := by
  cases s with
  | buy => decide +kernel
  | sell => decide +kernel

theorem orElse_str {t : PyText} (h : t ≠ []) (other : PyJson) : (PyJson.str t).orElse other = .str t := by
  refine if_pos ?_
  unfold PyJson.truthy
  rw [Bool.not_eq_true', List.isEmpty_eq_false_iff]
  exact h

/-- A finite decimal is read as itself. -/
theorem readDecimal_str (decimalOf : PyJson → Option PyDecimal) (n : FiniteDecimal) (other : PyJson) :
    readDecimal decimalOf ((PyJson.str (PyText.ofString (PyDecimal.finite n).str)).joined.orElse other) =
      some (.finite n) := by
  have hne : PyText.ofString (PyDecimal.finite n).str ≠ [] := fun h =>
    n.1.str_ne_empty (PyText.ofString_inj.mp (h.trans (show [] = PyText.ofString "" by rfl)))
  rw [PyJson.joined, PyText.join_ofString, orElse_str hne, readDecimal, PyText.string?_ofString, Option.bind_some]
  exact PyDecimal.ofText_str n

/-- The fill with the surrogates of its texts joined. -/
def TypedFill.joined (fill : TypedFill) : TypedFill where
  brokerExecId := fill.brokerExecId.join
  clientOrderId := fill.clientOrderId.join
  brokerOrderId := fill.brokerOrderId.join
  symbol := fill.symbol.join
  side := fill.side
  eventType := fill.eventType.join
  qty := fill.qty
  price := fill.price
  ts := fill.ts.map PyText.join
  filledQty := fill.filledQty
  ts_nonempty := fun h => by
    obtain ⟨t, ht, hempty⟩ := Option.map_eq_some_iff.mp h
    exact fill.ts_nonempty (ht.trans (congrArg some (PyText.join_eq_nil.mp hempty)))

/-- No timestamp is written as an empty text, and an empty text is read as none. -/
theorem ts_roundTrip (fill : TypedFill) :
    (fill.raw.ts.orElse (.str [])).joined.orElse (.atom .null) = fill.joined.raw.ts := by
  unfold TypedFill.raw TypedFill.joined
  dsimp only
  cases hts : fill.ts with
  | none =>
    have hempty : (PyJson.str []).joined = .str [] := by rw [PyJson.joined]; rfl
    change (PyJson.str []).joined.orElse (.atom .null) = _
    rw [hempty]
    rfl
  | some t =>
    have ht : t ≠ [] := fun h => fill.ts_nonempty (hts.trans (congrArg some h))
    have hjoin : t.join ≠ [] := fun h => ht (PyText.join_eq_nil.mp h)
    rw [Option.elim_some, orElse_str ht, PyJson.joined, orElse_str hjoin]
    rfl

/-- **What is read of a fill that was written is the fill with the surrogates of its texts joined.** -/
theorem wireToFill_dumps (decimalOf : PyJson → Option PyDecimal) (fill : TypedFill) :
    (PyJson.loads (PyJson.dumps (fillToWire fill.raw))).bind (wireToFill decimalOf) = some fill.joined.raw := by
  have hqty : fill.raw.qty = .finite fill.qty := rfl
  have hprice : fill.raw.price = .finite fill.price := rfl
  have hfilledQty : fill.raw.filledQty = .finite fill.filledQty := rfl
  have hside : readSide (PyJson.str fill.raw.side.text).joined = fill.side := by
    rw [PyJson.joined]
    exact (congrArg (fun t => readSide (.str t)) (PyText.join_ofString _)).trans (readSide_sideValue fill.side)
  rw [PyJson.loads_dumps, Option.bind_some, fillToWire, joined_dictOf (nodup_wireEntries _), wireToFill]
  simp only [getKey_dictOf, wireEntries, List.map_cons, List.map_nil, List.lookup_cons, String.reduceBEq,
    Option.getD_some]
  rw [hqty, hprice, hfilledQty, readDecimal_str, readDecimal_str, readDecimal_str, hside, ts_roundTrip]
  rfl

/-! ### The round trip -/

/-- The texts of a fill. -/
def TypedFill.texts (fill : TypedFill) : List PyText :=
  [fill.brokerExecId, fill.clientOrderId, fill.brokerOrderId, fill.symbol, fill.eventType] ++ fill.ts.toList

/-- In no text of the fill has a high surrogate a low one behind it. -/
def TypedFill.Whole (fill : TypedFill) : Prop := ∀ t ∈ fill.texts, t.Whole

theorem TypedFill.raw_inj {f g : TypedFill} (h : f.raw = g.raw) : f = g := by
  have hts : f.ts = g.ts := by
    have hraw : f.ts.elim (.atom .null) PyJson.str = g.ts.elim (.atom .null) .str := congrArg RawFill.ts h
    cases hf : f.ts with
    | none => cases hg : g.ts <;> simp_all
    | some t => cases hg : g.ts <;> simp_all
  simp only [TypedFill.raw, RawFill.mk.injEq, PyJson.str.injEq, WireSide.side.injEq, PyDecimal.finite.injEq] at h
  obtain ⟨h₁, h₂, h₃, h₄, h₅, h₆, h₇, h₈, -, h₉⟩ := h
  exact TypedFill.ext h₁ h₂ h₃ h₄ h₅ h₆ h₇ h₈ hts h₉

theorem TypedFill.joined_eq_self_iff (fill : TypedFill) : fill.joined = fill ↔ fill.Whole := by
  have hts : fill.ts.map PyText.join = fill.ts ↔ ∀ t ∈ fill.ts.toList, t.Whole := by
    cases fill.ts with
    | none => exact iff_of_true rfl nofun
    | some t =>
      rw [Option.map_some, Option.some.injEq, PyText.join_eq_self_iff, Option.toList_some, List.forall_mem_singleton]
  unfold TypedFill.Whole TypedFill.texts
  rw [List.forall_mem_append, ← hts, TypedFill.ext_iff]
  simp only [List.forall_mem_cons, List.not_mem_nil, TypedFill.joined, ← PyText.join_eq_self_iff]
  tauto

/-- No surrogates are joined in a fill whose texts are all of Unicode scalar values. -/
theorem TypedFill.whole_of_strings {fill : TypedFill} (h : ∀ t ∈ fill.texts, ∃ s, t = PyText.ofString s) :
    fill.Whole := by
  intro t ht
  obtain ⟨s, rfl⟩ := h t ht
  exact PyText.whole_ofString s

/-- **A fill is read as it was written exactly if in no text of it has a high surrogate a low one behind it.** -/
theorem wire_roundTrip_iff (decimalOf : PyJson → Option PyDecimal) (fill : TypedFill) :
    (PyJson.loads (PyJson.dumps (fillToWire fill.raw))).bind (wireToFill decimalOf) = some fill.raw ↔ fill.Whole := by
  rw [wireToFill_dumps, Option.some.injEq, ← fill.joined_eq_self_iff]
  exact ⟨TypedFill.raw_inj, congrArg TypedFill.raw⟩

/-- A fill whose symbol is a high surrogate and a low one. -/
def pairedFill : TypedFill where
  brokerExecId := PyText.ofString "x1"
  clientOrderId := PyText.ofString "c1"
  brokerOrderId := PyText.ofString "b1"
  symbol := [.chr 0xD83D, .chr 0xDE00]
  side := .sell
  eventType := PyText.ofString "fill"
  qty := ⟨⟨false, 10, 0⟩, by decide +kernel⟩
  price := ⟨⟨false, 15025, -2⟩, by decide +kernel⟩
  ts := none
  filledQty := ⟨⟨false, 0, 3⟩, by decide +kernel⟩
  ts_nonempty := nofun

/-- Its symbol is read as one character. -/
theorem pairedFill_read (decimalOf : PyJson → Option PyDecimal) :
    (PyJson.loads (PyJson.dumps (fillToWire pairedFill.raw))).bind (wireToFill decimalOf) =
      some { pairedFill with symbol := [.chr 0x1F600] }.raw := by
  have hjoined : pairedFill.joined = { pairedFill with symbol := [.chr 0x1F600] } := by decide +kernel
  rw [wireToFill_dumps, hjoined]

/-- So it is not read as it was written. -/
theorem pairedFill_not_roundTrip :
    (PyJson.loads (PyJson.dumps (fillToWire pairedFill.raw))).bind (wireToFill fun _ => none) ≠
      some pairedFill.raw := by
  rw [pairedFill_read]
  intro h
  have hsymbol := congrArg RawFill.symbol (Option.some.inj h)
  exact absurd (PyJson.str.inj hsymbol) (by decide)

/-! ### The consumer -/

/-- A value as a text of Unicode scalar values. -/
def textOf : PyJson → Option String
  | .str t => t.string?
  | .atom _ => none
  | .list _ => none
  | .dict _ => none

/-- A value as a timestamp. -/
def tsOf : PyJson → Option (Option String)
  | .atom .null => some none
  | v => (textOf v).map some

/-- The `Side`, if it is one. -/
def WireSide.side? : WireSide → Option Side
  | side s => some s
  | other _ => none

/-- The fill as an event that can be processed, if it is one. -/
def RawFill.event (fill : RawFill) : Option FillEvent := do
  let brokerExecId ← textOf fill.brokerExecId
  let clientOrderId ← textOf fill.clientOrderId
  let brokerOrderId ← textOf fill.brokerOrderId
  let symbol ← textOf fill.symbol
  let side ← fill.side.side?
  let eventType ← textOf fill.eventType
  let qty ← fill.qty.value?
  let price ← fill.price.value?
  let ts ← tsOf fill.ts
  let filledQty ← fill.filledQty.value?
  return {
    brokerExecId := brokerExecId
    clientOrderId := clientOrderId
    brokerOrderId := brokerOrderId
    symbol := symbol
    side := side
    eventType := eventType
    qty := qty
    price := price
    ts := ts
    filledQty := filledQty }

/-- `wire_to_fill(json.loads(text))`, as an event that can be processed. -/
def readWire (decimalOf : PyJson → Option PyDecimal) (text : String) : Option FillEvent :=
  ((PyJson.loads text).bind (wireToFill decimalOf)).bind RawFill.event

/-- An event that can be processed has no surrogates. -/
theorem TypedFill.whole_of_event {fill : TypedFill} {e : FillEvent} (h : fill.raw.event = some e) : fill.Whole := by
  have htext : ∀ {t : PyText} {s : String}, textOf (.str t) = some s → ∃ s, t = PyText.ofString s := fun ht =>
    ⟨_, PyText.eq_ofString_of_string? ht⟩
  simp only [RawFill.event, Option.bind_eq_bind, Option.bind_eq_some_iff] at h
  obtain ⟨_, hexec, _, hclient, _, hbroker, _, hsymbol, _, -, _, htype, _, -, _, -, _, hts, -⟩ := h
  refine TypedFill.whole_of_strings fun t ht => ?_
  rcases List.mem_append.mp ht with ht | ht
  · simp only [List.mem_cons, List.not_mem_nil, or_false] at ht
    rcases ht with rfl | rfl | rfl | rfl | rfl
    · exact htext hexec
    · exact htext hclient
    · exact htext hbroker
    · exact htext hsymbol
    · exact htext htype
  · have hsome : fill.ts = some t := Option.mem_toList.mp ht
    have hraw : fill.raw.ts = .str t := by
      unfold TypedFill.raw
      rw [hsome]
      rfl
    rw [hraw] at hts
    obtain ⟨s, hs, -⟩ := Option.map_eq_some_iff.mp hts
    exact htext hs

/-- **An event that can be processed is read as it was published.** -/
theorem readWire_published (decimalOf : PyJson → Option PyDecimal) {fill : TypedFill} {e : FillEvent}
    (h : fill.raw.event = some e) : readWire decimalOf (PyJson.dumps (fillToWire fill.raw)) = some e := by
  unfold readWire
  rw [wireToFill_dumps, fill.joined_eq_self_iff.mpr (TypedFill.whole_of_event h), Option.bind_some, h]

/-- **A published event that ingestion takes is settled**: it is not taken for poison. -/
theorem published_settled {env : Env} {decimalOf : PyJson → Option PyDecimal}
    (henv : env.wireToFill = readWire decimalOf) {fill : TypedFill} {e : FillEvent} (he : fill.raw.event = some e)
    {userId : String} {m : ℕ} (hfault : env.ingestFault m = .none) {w w' : World}
    (hingest : w.ingest env.clk (streamKey userId) m e = some w') :
    (processMessage env userId (streamKey userId) m [("data", PyJson.dumps (fillToWire fill.raw))]).Ends w
      fun settled after => settled = true ∧ (streamKey userId, m) ∈ after.history.committed := by
  have hread : ([("data", PyJson.dumps (fillToWire fill.raw))].lookup "data").bind env.wireToFill = some e := by
    rw [List.lookup_cons_self, Option.bind_some, henv, readWire_published decimalOf he]
  unfold processMessage
  rw [hread]
  dsimp only
  refine Prog.Ends.bind (Q := fun ingested after => ingested = true ∧ after = w') ?_ ?_
  · unfold Prog.Ends ingestMessage
    rw [Prog.run_atomic, hfault, hingest]
    exact ⟨rfl, rfl⟩
  · rintro _ after ⟨rfl, hafter⟩
    have hcommitted : (streamKey userId, m) ∈ after.history.committed := by
      obtain ⟨r, -, hw'⟩ := Option.map_eq_some_iff.mp hingest
      rw [hafter, ← hw']
      exact List.mem_append_right _ List.mem_cons_self
    change (xack (streamKey userId) m >>= fun _ => delete (attemptsKey userId m) >>= fun _ => pure true).Ends after _
    refine Prog.Ends.bind (Q := fun _ acked => (streamKey userId, m) ∈ acked.history.committed) ?_ fun _ acked h =>
      ⟨rfl, h⟩
    unfold Prog.Ends xack Prog.write
    rw [Prog.run_atomic]
    cases after.redis (streamKey userId) with
    | none => exact hcommitted
    | some v =>
      cases v with
      | stream s => exact hcommitted
      | counter n => exact hcommitted

end StratTrader.Orders
