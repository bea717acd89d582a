import StratTrader.Brokers.Base

/-!
# The Alpaca adapter

The path of an order through `brokers/alpaca/`: `map_api_error`, the wrapper `_call`
that every broker call goes through, `place_order` with its duplicate probe, and the
two lookups `resolve_by_client_id` and `get_order_status`.

The vendor's client is a parameter: for each call it is given what every attempt
returns or raises. A call may be attempted up to three times, so what a lookup makes
of the broker's answers depends on the attempt that decides it.

## What is proved

* `callFrom_deciding`: a call gives what its deciding attempt gives, the first one that
  is not answered with a status worth retrying, or the last.
* `deciding_unique`: an attempt that decides is the only one.

## Honest scope

Audit records and the waiting between attempts are left out. A `float` of a price or
quantity is the price or quantity itself.
-/

namespace StratTrader.Brokers.Alpaca

/-! ### Errors -/

/-- `BrokerError.__init__`: an empty message is replaced by the code. -/
def brokerError (code message : String) (retryable : Bool) (status : Option ℕ) : BrokerError :=
  ⟨code, if message = "" then code else message, retryable, status⟩

@[simp] theorem brokerError_retryable (code message : String) (retryable : Bool)
    (status : Option ℕ) : (brokerError code message retryable status).retryable = retryable := rfl

/-- An attribute that is an HTTP status. -/
def httpStatus (val : Option ℤ) : Option ℕ :=
  val.bind fun v => if 100 ≤ v ∧ v ≤ 599 then some v.toNat else none

/-- `_status_of`: the first of `status_code` and `code` that is an HTTP status. -/
def statusOf (exc : Exc) : Option ℕ := (httpStatus exc.statusCode).or (httpStatus exc.code)

/-- The text of an error without a meaning of its own: `str(exc)[:200]`, or the class's name. -/
def excMessage (exc : Exc) : String :=
  let msg := String.ofList (exc.text.toList.take 200)
  if msg = "" then exc.className else msg

/-- The error for an HTTP status; `msg` is the text of an error without a meaning of its own. -/
def errorOfStatus (msg : String) : Option ℕ → BrokerError
  | some status =>
    if status = 401 ∨ status = 403 then
      brokerError BrokerErrorCode.authFailed "Broker authentication failed." false (some status)
    else if status = 429 then
      brokerError BrokerErrorCode.rateLimited "Broker rate limit exceeded." true (some status)
    else if 500 ≤ status ∧ status < 600 then
      brokerError BrokerErrorCode.unavailable "Broker temporarily unavailable." true (some status)
    else if status = 400 ∨ status = 422 then
      brokerError BrokerErrorCode.orderRejected "Broker rejected the order." false (some status)
    else brokerError BrokerErrorCode.unknown msg false (some status)
  | none => brokerError BrokerErrorCode.unknown msg false none

/-- `map_api_error`. -/
def mapApiError : Raised → BrokerError
  | .broker err => err
  | .other exc => errorOfStatus (excMessage exc) (statusOf exc)

/-- `RETRYABLE_STATUS`. -/
def retryableStatus : List ℕ := [429, 500, 502, 503, 504]

/-- **What counts as transient**: a 429 and every 5xx. An exception without a status does not. -/
theorem mapApiError_retryable (exc : Exc) : (mapApiError (.other exc)).retryable = true ↔
    ∃ status, statusOf exc = some status ∧ (status = 429 ∨ 500 ≤ status ∧ status < 600) := by
  simp only [mapApiError]
  cases statusOf exc with
  | none => simp [errorOfStatus]
  | some status =>
    simp only [Option.some.injEq, exists_eq_left', errorOfStatus]
    split_ifs <;> simp only [brokerError_retryable] <;> simp <;> omega

/-! ### The call wrapper -/

/-- `_MAX_RETRIES`. -/
def maxRetries := 3

/-- Whether `_call` makes another attempt after this outcome, if one is left. -/
def worthRetrying {α : Type} (outcome : Except Raised α) : Bool :=
  match outcome with
  | .error (.other exc) =>
    let err := mapApiError (.other exc)
    err.retryable && (match err.status with
      | some status => decide (status ∈ retryableStatus)
      | none => false)
  | .error (.broker _) => false
  | .ok _ => false

/-- What an outcome is turned into when no further attempt is made. -/
def settle {α : Type} : Except Raised α → Except BrokerError α
  | .ok result => .ok result
  | .error exc => .error (mapApiError exc)

/-- `_call` from the attempt `attempt` on, when `left` more may follow it. -/
def callFrom {α : Type} (fn : ℕ → Except Raised α) (retry : Bool) : ℕ → ℕ → Except BrokerError α
  | attempt, 0 => settle (fn attempt)
  | attempt, left + 1 =>
    if retry && worthRetrying (fn attempt) then callFrom fn retry (attempt + 1) left
    else settle (fn attempt)

/-- `_call`: the attempts are numbered from 1. -/
def call {α : Type} (fn : ℕ → Except Raised α) (retry : Bool) : Except BrokerError α :=
  callFrom fn retry 1 (maxRetries - 1)

/-- The attempt that decides a call with retries: every earlier one was worth retrying, and
this one is not, or is the last. -/
def Deciding {α : Type} (fn : ℕ → Except Raised α) (attempt : ℕ) : Prop :=
  (1 ≤ attempt ∧ attempt ≤ maxRetries) ∧
  (∀ i, 1 ≤ i → i < attempt → worthRetrying (fn i) = true) ∧
  (attempt < maxRetries → worthRetrying (fn attempt) = false)

theorem callFrom_deciding {α : Type} (fn : ℕ → Except Raised α) (attempt left : ℕ) :
    ∃ k, (attempt ≤ k ∧ k ≤ attempt + left) ∧
      (∀ i, attempt ≤ i → i < k → worthRetrying (fn i) = true) ∧
      (k < attempt + left → worthRetrying (fn k) = false) ∧
      callFrom fn true attempt left = settle (fn k) := by
  induction left generalizing attempt with
  | zero => exact ⟨attempt, by omega, fun i h1 h2 => by omega, fun h => by omega, rfl⟩
  | succ left ih =>
    by_cases hw : worthRetrying (fn attempt) = true
    · obtain ⟨k, hk, hbefore, hat, hcall⟩ := ih (attempt + 1)
      refine ⟨k, by omega, fun i h1 h2 => ?_, fun h => hat (by omega), ?_⟩
      · rcases Nat.eq_or_lt_of_le h1 with rfl | h1
        · exact hw
        · exact hbefore i h1 h2
      · simp only [callFrom, hw, Bool.and_self, if_true, hcall]
    · refine ⟨attempt, by omega, fun i h1 h2 => by omega, fun _ => by simpa using hw, ?_⟩
      simp [callFrom, hw]

/-- **A call with retries is decided by one attempt**, and gives what that attempt gives. -/
theorem call_deciding {α : Type} (fn : ℕ → Except Raised α) :
    ∃ k, Deciding fn k ∧ call fn true = settle (fn k) := by
  obtain ⟨k, hk, hbefore, hat, hcall⟩ := callFrom_deciding fn 1 (maxRetries - 1)
  exact ⟨k, ⟨by simpa [maxRetries] using hk, hbefore, fun h => hat (by simpa [maxRetries] using h)⟩,
    hcall⟩

/-- Two attempts cannot both decide: the later one comes after one that was worth retrying. -/
theorem deciding_unique {α : Type} {fn : ℕ → Except Raised α} {j k : ℕ} (hj : Deciding fn j)
    (hk : Deciding fn k) : j = k := by
  obtain ⟨⟨hj1, hj2⟩, hjb, hja⟩ := hj
  obtain ⟨⟨hk1, hk2⟩, hkb, hka⟩ := hk
  rcases Nat.lt_trichotomy j k with h | h | h
  · have h1 := hkb j hj1 h
    rw [hja (by omega)] at h1
    cases h1
  · exact h
  · have h1 := hjb k hk1 h
    rw [hka (by omega)] at h1
    cases h1

/-- A call without retries is one attempt. -/
theorem call_once {α : Type} (fn : ℕ → Except Raised α) : call fn false = settle (fn 1) := by
  simp [call, callFrom, maxRetries]

/-! ### Orders at the broker -/

/-- What `map_order_ack` reads of the vendor's order. -/
structure AlpacaOrder where
  /-- Our identifier of the order. -/
  clientOrderId : String
  /-- The broker's identifier. -/
  id : String
  /-- The value of the status, in lower case. -/
  status : String
  /-- The symbol. -/
  symbol : String
  /-- The quantity. -/
  qty : ℚ
  /-- The filled quantity. -/
  filledQty : ℚ
  deriving DecidableEq

/-- `_STATUS_MAP`. -/
def statusMap : List (String × OrderStatus) :=
  [("new", .submitted), ("accepted", .submitted), ("accepted_for_bidding", .submitted),
    ("pending_new", .pendingSubmit), ("pending_cancel", .submitted), ("pending_replace", .submitted),
    ("held", .submitted), ("partially_filled", .partiallyFilled), ("filled", .filled),
    ("done_for_day", .submitted), ("canceled", .cancelled), ("cancelled", .cancelled),
    ("expired", .cancelled), ("replaced", .cancelled), ("stopped", .submitted),
    ("rejected", .rejected), ("suspended", .submitted), ("calculated", .submitted)]

/-- `map_order_ack`. -/
def mapOrderAck (order : AlpacaOrder) : OrderAck where
  clientOrderId := order.clientOrderId
  brokerOrderId := order.id
  status := (statusMap.lookup order.status).getD .submitted
  symbol := order.symbol
  qty := order.qty
  filledQty := order.filledQty

/-- The request models of the vendor, by order type. -/
structure AlpacaRequest where
  /-- The symbol. -/
  symbol : String
  /-- The quantity. -/
  qty : ℚ
  /-- The side. -/
  side : Side
  /-- The time in force. -/
  timeInForce : TimeInForce
  /-- Our identifier of the order. -/
  clientOrderId : String
  /-- The order type. -/
  orderType : OrderType
  /-- The limit price, of a limit order. -/
  limitPrice : Option ℚ
  /-- The stop price, of a stop order. -/
  stopPrice : Option ℚ
  deriving DecidableEq

/-- What `float(None)` raises. -/
def floatOfNone : Exc where
  statusCode := none
  code := none
  text := "float() argument must be a string or a real number, not 'NoneType'"
  className := "TypeError"

/-- `float(price)`. -/
def floatOf : Option ℚ → Except Raised ℚ
  | some price => .ok price
  | none => .error (.other floatOfNone)

/-- `build_order_request`: a price that the order type needs must be there. -/
def buildOrderRequest (req : OrderRequest) (clientOrderId : String) : Except Raised AlpacaRequest :=
  let common (limitPrice stopPrice : Option ℚ) : AlpacaRequest :=
    ⟨req.symbol, req.qty, req.side, req.timeInForce, clientOrderId, req.orderType, limitPrice, stopPrice⟩
  match req.orderType with
  | .lmt => do
    let limit ← floatOf req.limitPrice
    return common (some limit) none
  | .stp => do
    let stop ← floatOf req.stopPrice
    return common none (some stop)
  | .stpLmt => do
    let stop ← floatOf req.stopPrice
    let limit ← floatOf req.limitPrice
    return common (some limit) (some stop)
  | .mkt => return common none none

/-! ### The adapter -/

/-- The vendor's client: what each attempt at a call returns or raises. -/
structure Client where
  /-- `submit_order`. -/
  submitOrder : AlpacaRequest → ℕ → Except Raised AlpacaOrder
  /-- `get_order_by_client_id`. -/
  getOrderByClientId : String → ℕ → Except Raised (Option AlpacaOrder)
  /-- `get_order_by_id`. -/
  getOrderById : String → ℕ → Except Raised AlpacaOrder

/-- `_lookup_by_client_id`: a broker error becomes `None`. -/
def lookupByClientId (client : Client) (clientOrderId : String) : Option AlpacaOrder :=
  match call (client.getOrderByClientId clientOrderId) true with
  | .ok raw => raw
  | .error _ => none

/-- `resolve_by_client_id`. -/
def resolveByClientId (client : Client) (clientOrderId : String) : Option OrderAck :=
  (lookupByClientId client clientOrderId).map mapOrderAck

/-- `get_order_status`. -/
def getOrderStatus (client : Client) (brokerOrderId : String) : Option OrderStatus :=
  match call (client.getOrderById brokerOrderId) true with
  | .ok raw => some (mapOrderAck raw).status
  | .error _ => none

/-- Membership in `_SUPPORTED_ASSET_CLASSES`. -/
def isSupportedAssetClass : AssetClass → Bool
  | .stock | .etf | .option => true
  | .future => false

/-- `place_order`. Every order type is a supported one. -/
def placeOrder (client : Client) (req : OrderRequest) (clientOrderId : String) :
    Except Raised OrderAck :=
  if isSupportedAssetClass req.assetClass then
    match buildOrderRequest req clientOrderId with
    | .error exc => .error exc
    | .ok orderData =>
      match call (client.submitOrder orderData) false with
      | .ok raw => .ok (mapOrderAck raw)
      | .error err =>
        -- the order may have landed: ask for it by our identifier
        match lookupByClientId client clientOrderId with
        | some existing => .ok (mapOrderAck existing)
        | none => .error (.broker err)
  else
    .error (.broker (brokerError BrokerErrorCode.unsupportedAsset
      "Only US stocks and ETFs are supported in this milestone." false none))

end StratTrader.Brokers.Alpaca
