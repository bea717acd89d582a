import StratTrader.Audit.Services
import StratTrader.Foundation.Csv
import StratTrader.Foundation.NumeralText
import StratTrader.Foundation.Ordered
import StratTrader.Orders.Positions

/-!
# The export of orders

`OrderCsvExportView` of `orders/views.py`: the newest of a user's orders that a query asks for, as a
CSV text. What a user or a broker may have written is neutralised: a spreadsheet takes a cell that
begins with `=`, `+`, `-` or `@` for a formula, and gets an apostrophe before it.

## What is proved

* `orderExport_spec`: a reader of the text gets the header and the cells of the newest orders that
  are asked for, all of them the user's, and no cell of an order with quantities that are not
  negative is taken for a formula.
* `export_eq_iff`: two lists of orders have one text exactly when they agree, order by order, in all
  that is exported, but for the apostrophe: a text that had one before is not told from one that has
  been given one.

## Honest scope

`parse_datetime` and `uuid.UUID` are parameters; that they raise on some texts is left out. The rows
of an order, its strategy and its account are read at one moment.
-/

namespace StratTrader.Orders

open StratTrader.Audit StratTrader.Brokers StratTrader.Foundation

/-! ### Cells -/

/-- The texts that a spreadsheet takes for formulas. -/
def isFormula (s : String) : Bool := s.toList.head?.any fun c => decide (c ∈ ['=', '+', '-', '@'])

/-- `_csv_safe`. -/
def csvSafe (s : String) : String := if isFormula s then "'" ++ s else s

/-- `isoformat`, of a time in UTC. -/
def isoformat (t : UtcTime) : String :=
  String.ofList (padded 4 t.year ++ ('-' :: (padded 2 t.month ++ ('-' :: (padded 2 t.day ++ ('T' ::
    (padded 2 t.hour ++ (':' :: (padded 2 t.minute ++ (':' :: (padded 2 t.second ++
      ((if t.microsecond.val = 0 then [] else '.' :: padded 6 t.microsecond) ++ ['+', '0', '0', ':', '0', '0']))))))))))))

/-- `Order.AssetClass`, as text. -/
def assetClassText : AssetClass → String
  | .stock => "STOCK"
  | .etf => "ETF"
  | .option => "OPTION"
  | .future => "FUTURE"

/-- `Order.OrderType`, as text. -/
def orderTypeText : Brokers.OrderType → String
  | .mkt => "MKT"
  | .lmt => "LMT"
  | .stp => "STP"
  | .stpLmt => "STP_LMT"

/-- `Order.Status`, as text. -/
def Status.text : Status → String
  | .pendingSubmit => "PENDING_SUBMIT"
  | .submitted => "SUBMITTED"
  | .partiallyFilled => "PARTIAL"
  | .filled => "FILLED"
  | .cancelled => "CANCELLED"
  | .rejected => "REJECTED"
  | .needsReconcile => "NEEDS_RECONCILE"

/-- What a column of 8 decimal places holds, as a decimal. -/
def qtyColumn (q : ℚ) : Numeral := ⟨decide (q < 0), (|q| * 100000000).floor.toNat, -8⟩

/-! ### The view -/

/-- `BrokerAccount.Broker`. -/
inductive Broker where
  /-- `ALPACA`. -/
  | alpaca
  /-- `TRADESTATION`. -/
  | tradestation
  deriving DecidableEq

/-- `BrokerAccount.Broker`, as text. -/
def Broker.text : Broker → String
  | .alpaca => "ALPACA"
  | .tradestation => "TRADESTATION"

/-- An order with what it is joined to: `select_related("strategy", "broker_account")`. -/
structure OrderRow where
  /-- The order. -/
  order : Order
  /-- `created_at`. -/
  createdAt : UtcTime
  /-- The slug of its strategy, if it has one. -/
  slug : Option String
  /-- The broker of its account, if it has one. -/
  broker : Option Broker
  deriving DecidableEq

/-- The query parameters; one that is empty is not given. -/
structure OrderParams where
  /-- `status`. -/
  status : String
  /-- `strategy`. -/
  strategy : String
  /-- `broker`. -/
  broker : String
  /-- `symbol`. -/
  symbol : String
  /-- `from`. -/
  createdFrom : String
  /-- `to`. -/
  createdTo : String

/-- What the view calls. -/
structure ExportRuntime where
  /-- `str.upper`. -/
  upper : String → String
  /-- `uuid.UUID`: `none` if it raises. -/
  uuid : String → Option StrategyId
  /-- `parse_datetime`: the fields of a time, coded as `stampOf` codes them. -/
  parseDatetime : String → Option ℕ

/-- The fields of a time as the digits of one number, the year first. It tells the earlier of two times, and not how far
apart they are. -/
def stampOf (t : UtcTime) : ℕ :=
  (((((t.year.val * 13 + t.month) * 32 + t.day) * 24 + t.hour) * 60 + t.minute) * 60 + t.second) * 1000000 +
    t.microsecond

section
variable (rt : ExportRuntime) (user : UserId) (params : OrderParams)

/-- Whether a filter lets a row through, where a parameter that is empty asks for nothing. -/
def asked (param : String) (p : Bool) : Bool := decide (param = "") || p

/-- `_filtered_orders`. -/
def isWanted (row : OrderRow) : Bool :=
  decide (row.order.user = user) &&
  asked params.status (decide (row.order.status.text = rt.upper params.status)) &&
  asked params.strategy ((rt.uuid params.strategy).any fun id => decide (row.order.strategy = some id)) &&
  asked params.broker (row.broker.any fun broker => decide (broker.text = rt.upper params.broker)) &&
  asked params.symbol (decide (row.order.symbol = rt.upper params.symbol)) &&
  asked params.createdFrom ((rt.parseDatetime params.createdFrom).all fun after => decide (after ≤ stampOf row.createdAt)) &&
  asked params.createdTo ((rt.parseDatetime params.createdTo).all fun before => decide (stampOf row.createdAt ≤ before))

/-- `_filtered_orders`: the newest first. -/
def filteredOrders (rows : List OrderRow) : List OrderRow :=
  orderByDesc (fun row => stampOf row.createdAt) (rows.filter (isWanted rt user params))

/-- `_MAX_EXPORT`. -/
def maxExport : ℕ := 5000

/-- The first row of the text. -/
def exportHeader : List String :=
  ["created_at", "broker", "strategy", "symbol", "asset_class", "side", "qty", "filled_qty", "order_type", "status",
    "reason"]

/-- The cells of an order. -/
def OrderRow.cells (row : OrderRow) : List String :=
  [isoformat row.createdAt, (row.broker.map Broker.text).getD "", csvSafe (row.slug.getD ""),
    csvSafe row.order.symbol, assetClassText row.order.assetClass, row.order.side.value,
    (qtyColumn row.order.qty).str, (qtyColumn row.order.filledQty).str, orderTypeText row.order.orderType,
    row.order.status.text, csvSafe row.order.reason]

/-- What `csv.writer` makes of rows of texts. -/
def csvText (rows : List (List String)) : String := String.ofList (Csv.write (rows.map (List.map String.toList)))

/-- `OrderCsvExportView.get`. -/
def orderExport (rows : List OrderRow) : String :=
  csvText (exportHeader :: ((filteredOrders rt user params rows).take maxExport).map OrderRow.cells)

end

/-- What a reader makes of a text. -/
def readCsv (text : String) : List (List String) := (Csv.read text.toList).map (List.map String.ofList)

/-! ### The text is read back -/

/-- A reader gets the rows that the text was made of. -/
theorem readCsv_csvText (rows : List (List String)) : readCsv (csvText rows) = rows := by
  unfold readCsv csvText
  rw [String.toList_ofList, Csv.read_write, List.map_map]
  refine (List.map_congr_left fun row _ => ?_).trans (List.map_id rows)
  simp

/-- A text that is neutralised is not taken for a formula. -/
theorem isFormula_csvSafe (s : String) : isFormula (csvSafe s) = false := by
  unfold csvSafe
  split_ifs with h
  · simp [isFormula]
  · simpa using h

/-- A text that begins with a digit is not taken for a formula. -/
theorem isFormula_of_digit {s : String} {c : Char} {cs : List Char} (hs : s.toList = c :: cs) (hc : c.isDigit = true) :
    isFormula s = false := by
  unfold isFormula
  rw [hs, List.head?_cons, Option.any_some, decide_eq_false_iff_not]
  intro h
  simp only [List.mem_cons, List.not_mem_nil, or_false] at h
  obtain rfl | rfl | rfl | rfl := h <;> simp at hc

/-- A decimal without a sign is not taken for a formula. -/
theorem isFormula_str {n : Numeral} (hn : n.negative = false) : isFormula n.str = false := by
  obtain ⟨whole, rest, htext, hne, hdigits, -, -⟩ := n.partsOf_str
  obtain ⟨c, cs, rfl⟩ := List.exists_cons_of_ne_nil hne
  have hcons : n.str.toList = c :: (cs ++ rest) := by
    rw [htext, hn, String.toList_ofList]
    rfl
  exact isFormula_of_digit hcons (hdigits c List.mem_cons_self)

theorem isFormula_isoformat (t : UtcTime) : isFormula (isoformat t) = false := by
  obtain ⟨c, cs, hpadded⟩ : ∃ c cs, padded 4 t.year = c :: cs := by
    cases h : padded 4 t.year with
    | nil => exact absurd (congrArg List.length h) (by rw [length_padded]; decide)
    | cons c cs => exact ⟨c, cs, rfl⟩
  have hdigit : ∀ (width n : ℕ), ∀ d ∈ padded width n, d.isDigit = true := by
    intro width
    induction width with
    | zero => exact fun n d hd => absurd hd List.not_mem_nil
    | succ width ih =>
      intro n d hd
      rcases List.mem_append.mp hd with hd | hd
      · exact ih _ d hd
      · rw [List.mem_singleton.mp hd]
        have hlast : ∀ m < 10, (Nat.digitChar m).isDigit = true := by decide
        exact hlast _ (Nat.mod_lt _ (by decide))
  unfold isoformat
  rw [hpadded]
  exact isFormula_of_digit (String.toList_ofList) (hdigit 4 t.year c (hpadded ▸ List.mem_cons_self))

/-- No cell of an order is taken for a formula, unless a quantity is negative. -/
theorem isFormula_of_mem_cells {row : OrderRow} (hqty : 0 ≤ row.order.qty) (hfilled : 0 ≤ row.order.filledQty)
    {cell : String} (h : cell ∈ row.cells) : isFormula cell = false := by
  simp only [OrderRow.cells, List.mem_cons, List.not_mem_nil, or_false] at h
  obtain rfl | rfl | rfl | rfl | rfl | rfl | rfl | rfl | rfl | rfl | rfl := h
  · exact isFormula_isoformat _
  · cases row.broker with
    | none => decide
    | some broker => cases broker <;> decide
  · exact isFormula_csvSafe _
  · exact isFormula_csvSafe _
  · cases row.order.assetClass <;> decide
  · cases row.order.side <;> decide
  · exact isFormula_str (decide_eq_false hqty.not_gt)
  · exact isFormula_str (decide_eq_false hfilled.not_gt)
  · cases row.order.orderType <;> decide
  · cases row.order.status <;> decide
  · exact isFormula_csvSafe _

section
variable (rt : ExportRuntime) (user : UserId) (params : OrderParams)

/-- **A reader gets the cells of the newest orders that are asked for**, whatever text stands in them. -/
theorem orderExport_spec (rows : List OrderRow) :
    ∃ newest older, (newest ++ older).Perm (rows.filter (isWanted rt user params)) ∧
      readCsv (orderExport rt user params rows) = exportHeader :: newest.map OrderRow.cells ∧
      newest.length ≤ maxExport ∧ (newest.length < maxExport → older = []) ∧
      (∀ row ∈ newest, row.order.user = user ∧ ∀ row' ∈ older, stampOf row'.createdAt ≤ stampOf row.createdAt) ∧
      ∀ row ∈ newest, 0 ≤ row.order.qty → 0 ≤ row.order.filledQty → ∀ cell ∈ row.cells, isFormula cell = false := by
  have hsplit := List.take_append_drop maxExport (filteredOrders rt user params rows)
  have horder : (filteredOrders rt user params rows).Pairwise fun a b => stampOf b.createdAt ≤ stampOf a.createdAt :=
    orderByDesc_le
  refine ⟨(filteredOrders rt user params rows).take maxExport, (filteredOrders rt user params rows).drop maxExport,
    ?_, readCsv_csvText _, List.length_take_le _ _, ?_, ?_, ?_⟩
  · rw [hsplit]
    exact orderBy_perm
  · intro hlt
    rw [List.length_take] at hlt
    exact List.drop_eq_nil_of_le (by omega)
  · intro row hrow
    rw [← hsplit, List.pairwise_append] at horder
    refine ⟨?_, fun row' hrow' => horder.2.2 row hrow row' hrow'⟩
    have hmem : row ∈ rows.filter (isWanted rt user params) := orderBy_perm.mem_iff.mp (List.mem_of_mem_take hrow)
    have hwanted := (List.mem_filter.mp hmem).2
    simp only [isWanted, Bool.and_eq_true, decide_eq_true_eq] at hwanted
    exact hwanted.1.1.1.1.1.1
  · exact fun row _ hqty hfilled cell hcell => isFormula_of_mem_cells hqty hfilled hcell

end

/-! ### What the text tells -/

/-- Texts that are neutralised alike. -/
def Alike (s t : String) : Prop :=
  s = t ∨ (isFormula s = true ∧ t = "'" ++ s) ∨ (isFormula t = true ∧ s = "'" ++ t)

/-- A text with an apostrophe before it is no formula. -/
theorem isFormula_quoted (s : String) : isFormula ("'" ++ s) = false := by simp [isFormula]

theorem csvSafe_eq_iff {s t : String} : csvSafe s = csvSafe t ↔ Alike s t := by
  unfold csvSafe Alike
  cases hs : isFormula s <;> cases ht : isFormula t
  · simp
  · simp only [Bool.false_eq_true, if_false, if_true, false_and, true_and, false_or]
    exact ⟨.inr, fun h => h.elim (fun h => by simp [← h, hs] at ht) id⟩
  · simp only [Bool.false_eq_true, if_false, if_true, false_and, true_and, or_false]
    exact ⟨fun h => .inr h.symm, fun h => h.elim (fun h => by simp [h, ht] at hs) Eq.symm⟩
  · simp only [if_true, true_and]
    constructor
    · exact fun h => .inl (String.append_right_inj _ |>.mp h)
    · rintro (rfl | rfl | rfl)
      · rfl
      · simp [isFormula_quoted] at ht
      · simp [isFormula_quoted] at hs

/-- A number that a column of 8 decimal places holds. -/
def IsColumn (q : ℚ) : Prop := ∃ k : ℤ, q = k / 100000000

/-- A column's number is told by its text. -/
theorem qtyColumn_inj {p q : ℚ} (hp : IsColumn p) (hq : IsColumn q) (h : (qtyColumn p).str = (qtyColumn q).str) :
    p = q := by
  have hread := Numeral.str_inj h
  obtain ⟨k, rfl⟩ := hp
  obtain ⟨l, rfl⟩ := hq
  have hunits : ∀ m : ℤ, (|(m : ℚ) / 100000000| * 100000000).floor.toNat = m.natAbs := by
    intro m
    have habs : |(m : ℚ) / 100000000| * 100000000 = ((|m| : ℤ) : ℚ) := by
      rw [abs_div, abs_of_pos (by norm_num : (0 : ℚ) < 100000000), Int.cast_abs]
      exact div_mul_cancel₀ _ (by norm_num)
    rw [habs, Rat.floor_intCast, Int.abs_eq_natAbs, Int.toNat_natCast]
  have hsign : ∀ m : ℤ, decide ((m : ℚ) / 100000000 < 0) = decide (m < 0) := by
    intro m
    refine decide_eq_decide.mpr ?_
    rw [div_lt_iff₀ (by norm_num), zero_mul, Int.cast_lt_zero]
  simp only [qtyColumn, hunits, hsign, Numeral.mk.injEq, decide_eq_decide, and_true] at hread
  obtain ⟨hneg, habs⟩ := hread
  have hkl : k = l := by omega
  rw [hkl]

/-- A time is told by its text. -/
theorem isoformat_inj {t u : UtcTime} (h : isoformat t = isoformat u) : t = u := by
  have h := String.ofList_injective h
  obtain ⟨hyear, h⟩ := padded_append_inj (by decide) h
  obtain ⟨hmonth, h⟩ := padded_append_inj (by decide) (List.cons.inj h).2
  obtain ⟨hday, h⟩ := padded_append_inj (by decide) (List.cons.inj h).2
  obtain ⟨hhour, h⟩ := padded_append_inj (by decide) (List.cons.inj h).2
  obtain ⟨hminute, h⟩ := padded_append_inj (by decide) (List.cons.inj h).2
  obtain ⟨hsecond, h⟩ := padded_append_inj (by decide) (List.cons.inj h).2
  -- the fraction is left out where it is zero
  have hmicrosecond : t.microsecond = u.microsecond := by
    split_ifs at h with ht hu hu
    · exact Fin.ext (ht.trans hu.symm)
    · exact absurd h (by simp)
    · exact absurd h (by simp)
    · exact (padded_append_inj (by decide) (List.cons.inj h).2).1
  cases t
  cases u
  simp_all

/-- Two orders that agree in what is exported, but for the apostrophe. -/
structure OrderRow.Alike (a b : OrderRow) : Prop where
  /-- When they were created. -/
  createdAt : a.createdAt = b.createdAt
  /-- The broker. -/
  broker : a.broker = b.broker
  /-- The slug of the strategy. -/
  slug : Orders.Alike (a.slug.getD "") (b.slug.getD "")
  /-- The symbol. -/
  symbol : Orders.Alike a.order.symbol b.order.symbol
  /-- The asset class. -/
  assetClass : a.order.assetClass = b.order.assetClass
  /-- The side. -/
  side : a.order.side = b.order.side
  /-- The quantity. -/
  qty : a.order.qty = b.order.qty
  /-- What has been filled. -/
  filledQty : a.order.filledQty = b.order.filledQty
  /-- The order type. -/
  orderType : a.order.orderType = b.order.orderType
  /-- The status. -/
  status : a.order.status = b.order.status
  /-- The reason. -/
  reason : Orders.Alike a.order.reason b.order.reason

/-- A row whose quantities are those of columns. -/
def OrderRow.InColumns (row : OrderRow) : Prop := IsColumn row.order.qty ∧ IsColumn row.order.filledQty

theorem cells_eq_iff {a b : OrderRow} (ha : a.InColumns) (hb : b.InColumns) : a.cells = b.cells ↔ a.Alike b := by
  constructor
  · intro h
    simp only [OrderRow.cells, List.cons.injEq, and_true] at h
    obtain ⟨hcreated, hbroker, hslug, hsymbol, hclass, hside, hqty, hfilled, htype, hstatus, hreason⟩ := h
    have hbroker_inj : ∀ x y : Option Broker, (x.map Broker.text).getD "" = (y.map Broker.text).getD "" → x = y := by
      intro x y
      rcases x with _ | x <;> rcases y with _ | y <;> try cases x
      all_goals try cases y
      all_goals decide
    have hclass_inj : ∀ x y : AssetClass, assetClassText x = assetClassText y → x = y := by
      intro x y
      cases x <;> cases y <;> decide
    have hside_inj : ∀ x y : OrderSide, x.value = y.value → x = y := by
      intro x y
      cases x <;> cases y <;> decide
    have htype_inj : ∀ x y : Brokers.OrderType, orderTypeText x = orderTypeText y → x = y := by
      intro x y
      cases x <;> cases y <;> decide
    have hstatus_inj : ∀ x y : Status, x.text = y.text → x = y := by
      intro x y
      cases x <;> cases y <;> decide
    exact ⟨isoformat_inj hcreated, hbroker_inj _ _ hbroker, csvSafe_eq_iff.mp hslug, csvSafe_eq_iff.mp hsymbol,
      hclass_inj _ _ hclass, hside_inj _ _ hside, qtyColumn_inj ha.1 hb.1 hqty, qtyColumn_inj ha.2 hb.2 hfilled,
      htype_inj _ _ htype, hstatus_inj _ _ hstatus, csvSafe_eq_iff.mp hreason⟩
  · intro h
    unfold OrderRow.cells
    rw [h.createdAt, h.broker, csvSafe_eq_iff.mpr h.slug, csvSafe_eq_iff.mpr h.symbol, h.assetClass, h.side, h.qty,
      h.filledQty, h.orderType, h.status, csvSafe_eq_iff.mpr h.reason]

/-- **Two lists of orders have one text** exactly when they agree, order by order, in all that is exported, but
for the apostrophe. -/
theorem export_eq_iff {rows rows' : List OrderRow} (hrows : ∀ row ∈ rows, row.InColumns)
    (hrows' : ∀ row ∈ rows', row.InColumns) :
    csvText (exportHeader :: rows.map OrderRow.cells) = csvText (exportHeader :: rows'.map OrderRow.cells) ↔
      List.Forall₂ OrderRow.Alike rows rows' := by
  have htext : csvText (exportHeader :: rows.map OrderRow.cells) = csvText (exportHeader :: rows'.map OrderRow.cells) ↔
      rows.map OrderRow.cells = rows'.map OrderRow.cells := by
    refine ⟨fun h => ?_, fun h => by rw [h]⟩
    have hread := congrArg readCsv h
    rw [readCsv_csvText, readCsv_csvText] at hread
    exact (List.cons.inj hread).2
  rw [htext]
  clear htext
  induction rows generalizing rows' with
  | nil => cases rows' <;> simp
  | cons row rows ih =>
    cases rows' with
    | nil => simp
    | cons row' rows' =>
      rw [List.map_cons, List.map_cons, List.cons.injEq, List.forall₂_cons]
      exact and_congr (cells_eq_iff (hrows row List.mem_cons_self) (hrows' row' List.mem_cons_self))
        (ih (fun r hr => hrows r (List.mem_cons_of_mem row hr)) fun r hr => hrows' r (List.mem_cons_of_mem row' hr))

/-! ### Samples -/

/-- An order with a symbol that a spreadsheet would take for a formula. -/
def injected : OrderRow where
  order := { clientOrderId := "csv-inj", user := "u", strategy := none, brokerAccount := some "acct", rawAlert := none,
             symbol := "=CMD()", side := .buy, qty := 1, status := .filled }
  createdAt := firstEnvironment.now
  slug := none
  broker := some .alpaca

/-- The same order with the apostrophe as part of its symbol. -/
def alreadyQuoted : OrderRow := { injected with order := { injected.order with symbol := "'=CMD()" } }

example : injected.cells = ["2026-07-09T12:00:01.123456+00:00", "ALPACA", "", "'=CMD()", "STOCK", "BUY", "1.00000000", "0E-8",
    "MKT", "FILLED", ""] := by decide +kernel

theorem inColumns_injected : injected.InColumns := ⟨⟨100000000, by norm_num [injected]⟩, ⟨0, by norm_num [injected]⟩⟩

/-- The two orders are not told apart. -/
theorem export_eq_iff_sample :
    injected ≠ alreadyQuoted ∧ csvText (exportHeader :: [injected].map OrderRow.cells) =
      csvText (exportHeader :: [alreadyQuoted].map OrderRow.cells) := by
  have hcolumns : alreadyQuoted.InColumns := inColumns_injected
  refine ⟨by decide, (export_eq_iff (by simpa using inColumns_injected) (by simpa using hcolumns)).mpr ?_⟩
  refine .cons ⟨rfl, rfl, .inl rfl, .inr (.inl ⟨by decide, rfl⟩), rfl, rfl, rfl, rfl, rfl, rfl, .inl rfl⟩ .nil

end StratTrader.Orders
