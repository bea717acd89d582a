import StratTrader.Foundation.Tally
import StratTrader.Orders.Stored

/-!
# The order in which executions are delivered

A broker executes an order of quantity `Q` in a finite number of executions. It
publishes one event for each, carrying the cumulative quantity after it: the last is
a `fill`, with cumulative quantity `Q`, and the earlier ones are `partial_fill`s. The
events reach `ingest_fill_event` in some order, any of them more than once.

The filled quantity of the order is a tally (`StratTrader.Foundation.Tally`): it adds
the quantity of a new execution and is then raised to the cumulative quantity, for a
new execution as for a repeated one, and its column rounds it to eight decimals. So it
ends at `Q` exactly when no delivery finds the cumulative quantity and what is still to be
delivered above `Q` (`filledExactly_iff`), which for executions of eight decimals says that
the first deliveries are in the order of execution (`neverAbove_iff`). An execution that is
overtaken by a later one is added on top of a cumulative quantity that includes it
already. The status ends as `FILLED` in every case.
-/

namespace StratTrader.Orders

open StratTrader.Brokers StratTrader.Foundation

/-- An execution of an order at the broker. -/
structure Execution where
  /-- Its identifier. -/
  execId : String
  /-- The quantity. -/
  qty : ℚ
  /-- The price. -/
  price : ℚ
  /-- The timestamp. -/
  ts : Option String

/-- The event of an execution of `o`, which the broker knows as `brokerOrderId`. -/
def executionEvent (o : Order) (brokerOrderId eventType : String) (x : Execution)
    (cumulative : ℚ) : FillEvent where
  brokerExecId := x.execId
  clientOrderId := o.clientOrderId
  brokerOrderId := brokerOrderId
  symbol := o.symbol
  side := if o.side.isBuy then .buy else .sell
  eventType := eventType
  qty := x.qty
  price := x.price
  ts := x.ts
  filledQty := cumulative

/-- The broker's events, in the order of execution, when `acc` has been filled already. -/
def brokerEvents (o : Order) (brokerOrderId : String) : ℚ → List Execution → List FillEvent
  | _, [] => []
  | acc, x :: xs =>
    executionEvent o brokerOrderId (if xs.isEmpty then "fill" else "partial_fill") x (acc + x.qty) ::
      brokerEvents o brokerOrderId (acc + x.qty) xs

/-- What the tally sees of an event. -/
def report (e : FillEvent) : Report String ℚ := ⟨e.brokerExecId, e.qty, e.filledQty⟩

/-- What the tally sees of an event, as the column keeps it. -/
def storedReport (e : FillEvent) : Report String ℚ := ⟨e.brokerExecId, toPlaces 8 e.qty, toPlaces 8 e.filledQty⟩

/-- The amounts of the executions. -/
def amounts (xs : List Execution) : List (String × ℚ) := xs.map fun x => (x.execId, x.qty)

/-- The amounts of the executions, as the column keeps them. -/
def storedAmounts (xs : List Execution) : List (String × ℚ) := xs.map fun x => (x.execId, toPlaces 8 x.qty)

theorem map_report_brokerEvents (o : Order) (bid : String) (acc : ℚ) (xs : List Execution) :
    (brokerEvents o bid acc xs).map report = reportsFrom acc (amounts xs) := by
  induction xs generalizing acc with
  | nil => rfl
  | cons x xs ih =>
    simp only [brokerEvents, List.map_cons, ih, amounts, reportsFrom]
    rfl

/-- What holds before the deliveries: an order `o` of `account`, submitted and not filled,
that the broker executes in `xs`, none of which we have recorded. -/
structure Submitted (clk : Clock) (db : Db) (o : Order) (account : AccountId)
    (xs : List Execution) : Prop where
  stored : db.IsStored
  order : db.orders.find? o.clientOrderId = some o
  onAccount : o.brokerAccount = some account
  status : o.status = .submitted
  unfilled : o.filledQty = 0
  qty_pos : 0 < o.qty
  distinct : (xs.map Execution.execId).Nodup
  pos : ∀ x ∈ xs, 0 < x.qty
  total : (xs.map Execution.qty).sum = o.qty
  dated : ∀ x ∈ xs, (parseTs clk x.ts).isSome
  fresh : ∀ x ∈ xs, db.fills.find? (some account, x.execId) = none

/-- **The order is filled exactly**: no delivery takes the filled quantity above the
ordered one, and after the last they are equal and the order is `FILLED`. -/
def FilledExactly (clk : Clock) (db : Db) (o : Order) (ds : List FillEvent) : Prop :=
  (∀ p, p <+: ds → ∀ o', (ingestStoredAll clk db p).orders.find? o.clientOrderId = some o' →
    o'.filledQty ≤ o.qty) ∧
  ∃ o', (ingestStoredAll clk db ds).orders.find? o.clientOrderId = some o' ∧ o'.filledQty = o.qty ∧
    o'.status = .filled

/-- What is still to come of the executions when `ds` has been delivered. -/
def undelivered (xs : List Execution) (ds : List FillEvent) : ℚ :=
  ((xs.filter fun x => decide (x.execId ∉ ds.map FillEvent.brokerExecId)).map fun x => toPlaces 8 x.qty).sum

/-- The quantities do not add up to more than the ordered one, and neither does, behind a delivery,
the cumulative quantity it carries and what is still to come: each in eight decimals. -/
def NeverAbove (o : Order) (xs : List Execution) (ds : List FillEvent) : Prop :=
  (xs.map fun x => toPlaces 8 x.qty).sum ≤ o.qty ∧
    ∀ p d, p ++ [d] <+: ds → toPlaces 8 d.filledQty + undelivered xs (p ++ [d]) ≤ o.qty

section
variable {clk : Clock} {db : Db} {o : Order} {account : AccountId} {xs : List Execution}
  {bid : String}

theorem Submitted.amounts (h : Submitted clk db o account xs) : Amounts (amounts xs) where
  nodup := by
    rw [Orders.amounts, List.map_map]
    exact h.distinct
  pos := by
    intro x hx
    obtain ⟨y, hy, rfl⟩ := List.mem_map.mp hx
    exact h.pos y hy

theorem amountOf_amounts (xs : List Execution) :
    amountOf (amounts xs) = (xs.map Execution.qty).sum := by
  rw [amountOf, amounts, List.map_map]
  rfl

/-! ### The events -/

/-- What an event of the broker looks like. -/
theorem mem_brokerEvents {acc : ℚ} {e : FillEvent} (he : e ∈ brokerEvents o bid acc xs) :
    ∃ x ∈ xs, ∃ eventType cumulative, e = executionEvent o bid eventType x cumulative ∧
      (eventType = "fill" ∨ eventType = "partial_fill") ∧
      (eventType = "fill" → cumulative = acc + (xs.map Execution.qty).sum) := by
  induction xs generalizing acc with
  | nil => cases he
  | cons x xs ih =>
    rcases List.mem_cons.mp he with rfl | he
    · refine ⟨x, List.mem_cons_self, _, _, rfl, ?_, ?_⟩
      · split_ifs <;> simp
      · intro hf
        cases xs with
        | nil => simp
        | cons y ys => simp at hf
    · obtain ⟨y, hy, t, c, rfl, ht, hc⟩ := ih he
      refine ⟨y, List.mem_cons_of_mem _ hy, t, c, rfl, ht, fun hf => ?_⟩
      rw [hc hf, List.map_cons, List.sum_cons, add_assoc]

/-- The last event is a `fill`. -/
theorem exists_fill (o : Order) (bid : String) (acc : ℚ) (hne : xs ≠ []) :
    ∃ e ∈ brokerEvents o bid acc xs, e.eventType = "fill" := by
  induction xs generalizing acc with
  | nil => exact absurd rfl hne
  | cons x xs ih =>
    by_cases hx : xs = []
    · subst hx
      exact ⟨_, List.mem_cons_self, rfl⟩
    · obtain ⟨e, he, ht⟩ := ih (acc + x.qty) hx
      exact ⟨e, List.mem_cons_of_mem _ he, ht⟩

/-- Every execution has an event. -/
theorem exists_event (o : Order) (bid : String) (acc : ℚ) {x : Execution} (hx : x ∈ xs) :
    ∃ e ∈ brokerEvents o bid acc xs, e.brokerExecId = x.execId := by
  induction xs generalizing acc with
  | nil => cases hx
  | cons y ys ih =>
    rcases List.mem_cons.mp hx with rfl | hx
    · exact ⟨_, List.mem_cons_self, rfl⟩
    · obtain ⟨e, he, hid⟩ := ih (acc + y.qty) hx
      exact ⟨e, List.mem_cons_of_mem _ he, hid⟩

theorem Submitted.ne_nil (h : Submitted clk db o account xs) : xs ≠ [] := by
  rintro rfl
  exact absurd h.total.symm h.qty_pos.ne'

theorem Submitted.cumulative_pos (h : Submitted clk db o account xs) {e : FillEvent}
    (he : e ∈ brokerEvents o bid 0 xs) : 0 < e.filledQty := by
  have hr : report e ∈ reportsFrom 0 (Orders.amounts xs) := by
    rw [← map_report_brokerEvents o bid]
    exact List.mem_map_of_mem he
  obtain ⟨l, x, u, hxs, hre⟩ := mem_reportsFrom.mp hr
  have hx := h.amounts.pos x (by rw [hxs]; simp)
  have hl := h.amounts.amountOf_nonneg l fun y hy => by rw [hxs]; simp [hy]
  have : e.filledQty = 0 + amountOf l + x.2 := congrArg Report.total hre
  linarith

/-! ### The order tracks the tally -/

/-- After the deliveries `ds` the order's filled quantity is the tally's sum, the
executions recorded are those the tally has seen, and the order is `FILLED` once the last
event has arrived. -/
structure Tracks (o : Order) (account : AccountId) (xs : List Execution) (ds : List FillEvent)
    (db' : Db) : Prop where
  stored : db'.IsStored
  order : ∃ o', db'.orders.find? o.clientOrderId = some o' ∧ o.SameIntent o' ∧
    o'.filledQty = (Tally.run (ds.map storedReport)).sum ∧ 0 ≤ o'.filledQty ∧
    ((∃ d ∈ ds, d.eventType = "fill") → o'.status = .filled)
  fills : ∀ x ∈ xs, (db'.fills.find? (some account, x.execId)).isSome ↔
    x.execId ∈ (Tally.run (ds.map storedReport)).seen

theorem Submitted.tracks_nil (h : Submitted clk db o account xs) : Tracks o account xs [] db where
  stored := h.stored
  order := ⟨o, h.order, Order.SameIntent.refl o, h.unfilled, h.unfilled.ge, by simp⟩
  fills := fun x hx => by simp [h.fresh x hx, Tally.run]

/-- The status after one more event of the broker. -/
theorem Submitted.status_afterEvent (h : Submitted clk db o account xs) {o' : Order}
    (hint : o.SameIntent o') {d : FillEvent} (hd : d ∈ brokerEvents o bid 0 xs) (created : Bool)
    (hf : d.eventType = "fill" ∨ o'.status = .filled) :
    (o'.afterEvent d created).status = .filled := by
  obtain ⟨x, hx, t, c, rfl, ht, hc⟩ := mem_brokerEvents hd
  rw [afterEvent_status]
  by_cases hfill : t = "fill"
  · -- the cumulative quantity of the last event is the ordered one
    have hq : o'.qty ≤ (o'.afterEvent (executionEvent o bid t x c) created).filledQty := by
      have hpos := h.cumulative_pos hd
      rw [afterEvent_filledQty, if_pos hpos, hint.qty, ← h.total]
      have : c = (xs.map Execution.qty).sum := by rw [hc hfill, zero_add]
      exact this ▸ le_max_right _ _
    simp [executionEvent, hfill] at hq ⊢
    exact hq
  · have hpart : t = "partial_fill" := ht.resolve_left hfill
    have hst : o'.status = .filled := hf.resolve_left hfill
    simp [executionEvent, hpart, hst, orderStatusFromEvent, Status.isTerminal]

/-- The filled quantity that is stored behind an event with a cumulative quantity. -/
theorem storedFilledQty {o' : Order} {e : FillEvent} (hplaces : HasPlaces 8 o'.filledQty) (hnn : 0 ≤ o'.filledQty)
    (hqty : 0 ≤ e.qty) (hpos : 0 < e.filledQty) (created : Bool) :
    (o'.afterEvent e created).stored.filledQty =
      max (o'.filledQty + if created then toPlaces 8 e.qty else 0) (toPlaces 8 e.filledQty) := by
  have hafter : (o'.afterEvent e created).filledQty = max (o'.localSum e created) e.filledQty := by
    rw [afterEvent_filledQty, if_pos hpos]
  have hstored : (o'.afterEvent e created).stored.filledQty = toPlaces 8 (max (o'.localSum e created) e.filledQty) :=
    congrArg (toPlaces 8) hafter
  rw [hstored, toPlaces_max]
  cases created with
  | true => exact congrArg (max · _) (toPlaces_add hplaces hnn hqty)
  | false =>
    rw [if_neg Bool.false_ne_true, add_zero]
    exact congrArg (max · _) (toPlaces_of_hasPlaces hplaces)

/-- One delivery is one report to the tally. -/
theorem Submitted.tracks_concat (h : Submitted clk db o account xs) {ds : List FillEvent}
    {db' : Db} (ht : Tracks o account xs ds db') {d : FillEvent}
    (hd : d ∈ brokerEvents o bid 0 xs) :
    Tracks o account xs (ds ++ [d]) (ingestStored clk db' d) := by
  obtain ⟨o', ho', hint, hsum, hnn, hstatus⟩ := ht.order
  have hcpos := h.cumulative_pos hd
  have hst := h.status_afterEvent hint hd
  obtain ⟨x, hx, t, c, rfl, het, -⟩ := mem_brokerEvents hd
  have hplaces := ht.stored.order ho'
  have hfind : findOrder db' (executionEvent o bid t x c) = some o' := by
    simp [findOrder, executionEvent, ho']
  have hexec : isExecution (executionEvent o bid t x c) = true :=
    isExecution_iff.mpr ⟨het, h.pos x hx⟩
  obtain ⟨ts, hts⟩ := Option.isSome_iff_exists.mp (h.dated x hx)
  have hacc : o'.brokerAccount = some account := hint.brokerAccount.trans h.onAccount
  have hrun : Tally.run ((ds ++ [executionEvent o bid t x c]).map storedReport) =
      (Tally.run (ds.map storedReport)).count ⟨x.execId, toPlaces 8 x.qty, toPlaces 8 c⟩ := by
    rw [List.map_append, List.map_singleton, Tally.run_concat]
    rfl
  have hfilled : ∀ created, (∃ d ∈ ds ++ [executionEvent o bid t x c], d.eventType = "fill") →
      (o'.afterEvent (executionEvent o bid t x c) created).status = .filled := by
    rintro created ⟨e, he, hef⟩
    rcases List.mem_append.mp he with he | he
    · exact hst created (Or.inr (hstatus ⟨e, he, hef⟩))
    · obtain rfl := List.mem_singleton.mp he
      exact hst created (Or.inl hef)
  have hmax : ∀ created, (o'.afterEvent (executionEvent o bid t x c) created).stored.filledQty =
      max (o'.filledQty + if created then toPlaces 8 x.qty else 0) (toPlaces 8 c) :=
    storedFilledQty hplaces.2 hnn (h.pos x hx).le hcpos
  have hmax_nn : ∀ created, 0 ≤ (o'.afterEvent (executionEvent o bid t x c) created).stored.filledQty := by
    intro created
    rw [hmax]
    exact (toPlaces_nonneg hcpos.le).trans (le_max_right _ _)
  have hkey : ∀ created, o.clientOrderId =
      (o'.afterEvent (executionEvent o bid t x c) created).clientOrderId := fun created => by
    rw [afterEvent_clientOrderId, hint.clientOrderId]
  have hsame : ∀ created, o.SameIntent (o'.afterEvent (executionEvent o bid t x c) created).stored := by
    intro created
    have hafter := afterEvent_sameIntent o' (executionEvent o bid t x c) created
    exact hint.trans _ _ _ (hafter.trans _ _ _ (Order.sameIntent_stored (by rw [hafter.qty]; exact hplaces.1)))
  have hstored := isStored_stored (ingest clk db' (executionEvent o bid t x c))
  rw [ingestStored]
  by_cases hseen : x.execId ∈ (Tally.run (ds.map storedReport)).seen
  · -- a repeated delivery
    obtain ⟨f, hf⟩ := Option.isSome_iff_exists.mp ((ht.fills x hx).mpr hseen)
    rw [ingest_of_recorded hfind (Option.isSome_iff_exists.mpr ⟨ts, hts⟩) (hacc ▸ hf)] at hstored ⊢
    refine ⟨hstored, ⟨_, ?_, hsame false, ?_, hmax_nn false, hfilled false⟩, fun y hy => ?_⟩
    · rw [find?_orders_stored, hkey false, Table.find?_put_self, Option.map_some]
    · rw [hmax, hrun, Tally.count, if_pos hseen, ← hsum, if_neg Bool.false_ne_true, add_zero]
    · rw [hrun, Tally.count, if_pos hseen, find?_fills_stored, Option.isSome_map]
      exact ht.fills y hy
  · -- a first delivery
    have hnone : db'.fills.find? (some account, x.execId) = none := by
      rw [← Option.not_isSome_iff_eq_none, ht.fills x hx]
      exact hseen
    rw [ingest_of_new hfind hexec hts hacc hnone] at hstored ⊢
    refine ⟨hstored, ⟨_, ?_, hsame true, ?_, hmax_nn true, hfilled true⟩, fun y hy => ?_⟩
    · rw [find?_orders_stored, hkey true, Table.find?_put_self, Option.map_some]
    · rw [hmax, hrun, Tally.count, if_neg hseen, ← hsum, if_pos rfl]
    · rw [hrun, Tally.count, if_neg hseen, find?_fills_stored, Option.isSome_map, Table.find?_put]
      by_cases hxy : y.execId = x.execId
      · simp [Fill.key, executionEvent, hxy]
      · simpa [Fill.key, executionEvent, hxy] using ht.fills y hy

theorem Submitted.tracks (h : Submitted clk db o account xs) {ds : List FillEvent}
    (hds : ∀ d ∈ ds, d ∈ brokerEvents o bid 0 xs) :
    Tracks o account xs ds (ingestStoredAll clk db ds) := by
  induction ds using List.reverseRecOn with
  | nil => exact h.tracks_nil
  | append_singleton ds d ih =>
    rw [ingestStoredAll_concat]
    exact h.tracks_concat (ih fun e he => hds e (List.mem_append_left _ he))
      (hds d (List.mem_append_right _ (List.mem_singleton_self d)))

/-! ### The exact condition -/

theorem storedAmounts_nodup (h : Submitted clk db o account xs) : ((storedAmounts xs).map Prod.fst).Nodup := by
  rw [storedAmounts, List.map_map]
  exact h.distinct

/-- The amount of a stored report is that of its execution, which is not negative. -/
theorem Submitted.mem_storedAmounts (h : Submitted clk db o account xs) {ds : List FillEvent}
    (hds : ∀ d ∈ ds, d ∈ brokerEvents o bid 0 xs) {r : Report String ℚ} (hr : r ∈ ds.map storedReport) :
    (r.id, r.amount) ∈ storedAmounts xs ∧ 0 ≤ r.amount := by
  obtain ⟨d, hd, rfl⟩ := List.mem_map.mp hr
  obtain ⟨x, hx, t, c, rfl, -, -⟩ := mem_brokerEvents (hds d hd)
  exact ⟨List.mem_map.mpr ⟨x, hx, rfl⟩, toPlaces_nonneg (h.pos x hx).le⟩

theorem unseen_storedAmounts (xs : List Execution) (ds : List FillEvent) :
    unseen (storedAmounts xs) ((ds.map storedReport).map Report.id) = undelivered xs ds := by
  have hids : (ds.map storedReport).map Report.id = ds.map FillEvent.brokerExecId := by
    rw [List.map_map]
    rfl
  rw [hids, unseen, undelivered, storedAmounts, List.filter_map, amountOf, List.map_map]
  rfl

/-- What the tally does not exceed. -/
theorem Submitted.sum_le_iff (h : Submitted clk db o account xs) {ds : List FillEvent}
    (hds : ∀ d, d ∈ ds ↔ d ∈ brokerEvents o bid 0 xs) :
    (Tally.run (ds.map storedReport)).sum ≤ o.qty ↔ NeverAbove o xs ds := by
  have hmem := fun r (hr : r ∈ ds.map storedReport) => (h.mem_storedAmounts (fun d hd => (hds d).mp hd) hr).1
  have hall : ∀ a ∈ storedAmounts xs, a.1 ∈ (ds.map storedReport).map Report.id := by
    intro a ha
    obtain ⟨x, hx, rfl⟩ := List.mem_map.mp ha
    obtain ⟨d, hd, hid⟩ := exists_event o bid 0 hx
    exact List.mem_map.mpr ⟨_, List.mem_map_of_mem ((hds d).mpr hd), hid⟩
  have hamount : amountOf (storedAmounts xs) = (xs.map fun x => toPlaces 8 x.qty).sum := by
    rw [amountOf, storedAmounts, List.map_map]
    rfl
  have hbehind : ∀ p d, (storedReport d).total + unseen (storedAmounts xs) ((p.map storedReport ++ [storedReport d]).map Report.id) =
      toPlaces 8 d.filledQty + undelivered xs (p ++ [d]) := fun p d => by
    rw [← unseen_storedAmounts, List.map_append (f := storedReport)]
    rfl
  rw [sum_run_le_iff (storedAmounts_nodup h) hmem hall, hamount]
  refine and_congr_right fun _ => ⟨fun hle p d hp => ?_, fun hle p r hp => ?_⟩
  · rw [← hbehind]
    exact hle _ _ (by simpa using hp.map storedReport)
  · obtain ⟨q, d, hq, rfl, rfl⟩ := prefix_concat_map hp
    rw [hbehind]
    exact hle q d hq

/-- The last event takes the tally to the ordered quantity. -/
theorem Submitted.qty_le_sum (h : Submitted clk db o account xs) {ds : List FillEvent}
    (hds : ∀ d, d ∈ ds ↔ d ∈ brokerEvents o bid 0 xs) : o.qty ≤ (Tally.run (ds.map storedReport)).sum := by
  obtain ⟨e, he, het⟩ := exists_fill o bid 0 h.ne_nil
  have hle := Tally.total_le_sum_run (fun r hr => (h.mem_storedAmounts (fun d hd => (hds d).mp hd) hr).2)
    (List.mem_map_of_mem (f := storedReport) ((hds e).mpr he))
  obtain ⟨x, hx, t, c, rfl, -, hc⟩ := mem_brokerEvents he
  have htotal : c = o.qty := by rw [hc het, zero_add, h.total]
  have hplaces := toPlaces_of_hasPlaces (h.stored.order h.order).1
  rwa [storedReport, executionEvent, htotal, hplaces] at hle

/-- For executions of eight decimals the columns keep what is reported. -/
theorem map_storedReport (hplaces : ∀ x ∈ xs, HasPlaces 8 x.qty) {ds : List FillEvent}
    (hds : ∀ d ∈ ds, d ∈ brokerEvents o bid 0 xs) : ds.map storedReport = ds.map report := by
  refine List.map_congr_left fun d hd => ?_
  have hr : report d ∈ reportsFrom 0 (amounts xs) := by
    rw [← map_report_brokerEvents o bid]
    exact List.mem_map_of_mem (hds d hd)
  obtain ⟨l, a, u, hsplit, hreport⟩ := mem_reportsFrom.mp hr
  have hamounts : ∀ b ∈ amounts xs, HasPlaces 8 b.2 := by
    intro b hb
    obtain ⟨x, hx, rfl⟩ := List.mem_map.mp hb
    exact hplaces x hx
  have hsum : HasPlaces 8 (amountOf l) := by
    refine hasPlaces_sum fun q hq => ?_
    obtain ⟨b, hb, rfl⟩ := List.mem_map.mp hq
    exact hamounts b (hsplit ▸ List.mem_append_left _ hb)
  have hqty : d.qty = a.2 := congrArg Report.amount hreport
  have htotal : d.filledQty = 0 + amountOf l + a.2 := congrArg Report.total hreport
  have ha : HasPlaces 8 a.2 := hamounts a (hsplit ▸ List.mem_append_right _ List.mem_cons_self)
  rw [storedReport, report, toPlaces_of_hasPlaces (hqty ▸ ha),
    toPlaces_of_hasPlaces (htotal ▸ ((hasPlaces_zero 8).add hsum).add ha)]

/-- For executions of eight decimals nothing exceeds the ordered quantity exactly if they are delivered in
order. -/
theorem neverAbove_iff (h : Submitted clk db o account xs) {ds : List FillEvent}
    (hds : ∀ d, d ∈ ds ↔ d ∈ brokerEvents o bid 0 xs) (hplaces : ∀ x ∈ xs, HasPlaces 8 x.qty) :
    NeverAbove o xs ds ↔ (ds.map FillEvent.brokerExecId).eraseDups = xs.map Execution.execId := by
  have hids : (ds.map report).map Report.id = ds.map FillEvent.brokerExecId := by
    rw [List.map_map]
    rfl
  have hnames : (amounts xs).map Prod.fst = xs.map Execution.execId := by
    rw [amounts, List.map_map]
    rfl
  have hsub : ∀ r ∈ ds.map report, r ∈ reportsFrom 0 (amounts xs) := by
    intro r hr
    obtain ⟨d, hd, rfl⟩ := List.mem_map.mp hr
    rw [← map_report_brokerEvents o bid]
    exact List.mem_map_of_mem ((hds d).mp hd)
  have hall : ∀ r ∈ reportsFrom 0 (amounts xs), r ∈ ds.map report := by
    intro r hr
    rw [← map_report_brokerEvents o bid] at hr
    obtain ⟨d, hd, rfl⟩ := List.mem_map.mp hr
    exact List.mem_map_of_mem ((hds d).mpr hd)
  have hQ : amountOf (amounts xs) = o.qty := (amountOf_amounts xs).trans h.total
  have hge := h.qty_le_sum hds
  rw [← h.sum_le_iff hds, ← hids, ← hnames, ← sum_eq_iff h.amounts hsub hall, hQ]
  rw [map_storedReport hplaces fun d hd => (hds d).mp hd] at hge ⊢
  exact ⟨fun hle => hle.antisymm hge, le_of_eq⟩

end

/-- Two executions of the sample order, of 4 and of 6. -/
def fourAndSix : List Execution := [⟨"x1", 4, 100, none⟩, ⟨"x2", 6, 100, none⟩]

theorem sample_isStored : sampleDb.IsStored where
  orders := by decide +kernel
  fills := by decide
  positions := by decide

theorem sample_submitted :
    Submitted sampleClock sampleDb sampleOrder "acct" fourAndSix where
  stored := sample_isStored
  order := by decide +kernel
  onAccount := rfl
  status := rfl
  unfilled := rfl
  qty_pos := by decide +kernel
  distinct := by decide
  pos := by decide +kernel
  total := by decide +kernel
  dated := by decide
  fresh := by decide

end StratTrader.Orders
