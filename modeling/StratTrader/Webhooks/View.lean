import StratTrader.Webhooks.Models

/-!
# Receiving an alert

`WebhookView.post` of `webhooks/views.py`: the checks of the request, the row that anchors
its idempotency key, the gates, and the task that is sent. It is a program whose actions
are its queries and its uses of the cache.

## Honest scope

The client's address is what `_client_ip` makes of the headers, and the body is what
`json.loads` makes of the bytes: both are part of the request here. A value that Postgres refuses to
put into a column of JSON is out. Metrics, logs and the
times cached values live are left out.
-/

namespace StratTrader.Webhooks

open StratTrader.Brokers StratTrader.Foundation StratTrader.Orders StratTrader.Risk

/-- A request to a user's webhook. -/
structure WebhookRequest where
  /-- The user of the URL. -/
  userId : UserId
  /-- The strategy of the URL. -/
  strategyId : StrategyId
  /-- What `_client_ip` gives. -/
  clientIp : String
  /-- `request.content_type`. -/
  contentType : String
  /-- The length of the body in bytes. -/
  size : ℕ
  /-- The body as a JSON object; none when it is not one. -/
  body : Option Body

/-- The environment of a request: settings, clocks, and the primary key of a new row. -/
structure ViewEnv where
  /-- The flag `WEBHOOK_V1_ENABLED`. -/
  enabled : Bool
  /-- `WEBHOOK_IP_ALLOWLIST`. -/
  ipAllowlist : List String
  /-- `WEBHOOK_MAX_BODY_BYTES`. -/
  maxBodyBytes : ℕ
  /-- `WEBHOOK_RATE_LIMIT_PER_MIN`. -/
  rateLimitPerMin : ℤ
  /-- `int(time.time() // 60)`. -/
  minute : ℤ
  /-- `timezone.now()`. -/
  now : ℤ
  /-- `uuid.uuid4()`. -/
  newId : AlertId

/-- What is answered. -/
inductive Response where
  /-- `_err`. -/
  | err (code message : String) (status : ℕ) (detail : Option String)
  /-- `{duplicate: true}`. -/
  | duplicate
  /-- `{rejected: reason}`. -/
  | rejected (reason : String)
  /-- `{accepted: true, alert_id: …}`. -/
  | accepted (alertId : AlertId)
  deriving DecidableEq

/-! ### The cache and the rows -/

/-- `cache.set`. -/
def cacheSet (key : String) (value : ℕ) : Prog State PUnit :=
  .write fun s => { s with cache := Function.update s.cache key (some value) }

/-- `cache.add`. -/
def cacheAdd (key : String) (value : ℕ) : Prog State PUnit :=
  .write fun s => { s with cache := Function.update s.cache key (some ((s.cache key).getD value)) }

/-- `cache.incr`: `none` is a `ValueError`. -/
def cacheIncr (key : String) : Prog State (Option ℕ) :=
  .atomic
    (fun s => match s.cache key with
      | some n => { s with cache := Function.update s.cache key (some (n + 1)) }
      | none => s)
    fun s => (s.cache key).map (· + 1)

/-- `_rate_limited`. -/
def rateLimited (env : ViewEnv) (userId : UserId) (kind : String) : Prog State Bool := do
  if env.rateLimitPerMin ≤ 0 then return false
  let key := "wh:rl:" ++ kind ++ ":" ++ userId ++ ":" ++ toString env.minute
  cacheAdd key 0
  match ← cacheIncr key with
  | some current => return decide (env.rateLimitPerMin < current)
  | none =>
    cacheSet key 1
    return decide (env.rateLimitPerMin < 1)

/-- `AlertMessage.objects.create`: `false` is an `IntegrityError`. -/
def createAlert (alert : AlertMessage) : Prog State Bool :=
  .atomic (fun s => s.insertAlert alert) fun s => s.canInsert alert

/-! ### The view -/

/-- What the column `body_json` gives back for a body. -/
def Runtime.readBack (rt : Runtime) (body : Body) : Payload := body.column.seen rt.printable

/-- Reject a request with a bad signature, on a rate limit of its own. -/
def badSignature (rt : Runtime) (env : ViewEnv) (config : WebhookConfig) (request : WebhookRequest) (body : Body) :
    Prog State (Option Response) := do
  if ← rateLimited env request.userId "bad" then
    return some (.err "RATE_LIMITED" "Too many requests." 429 none)
  let ok ← createAlert {
    id := env.newId, user := config.user, strategy := config.strategy, bodyJson := rt.readBack body,
    status := .rejected, rejectReason := "SIG_BAD", receivedAt := env.now }
  if !ok then return none
  return some (.err "WEBHOOK_SIG_BAD" "Unauthorized." 401 none)

/-- `idem`: the anchor of an alert's key. -/
def idemOf (body : Payload) : String := truncate (body.getStr "idempotency_key" (.string "")) 128

/-- The key under which a processed idempotency key is cached. -/
def idemCacheKey (rt : Runtime) (userId : UserId) (idem : String) : String :=
  "idem:" ++ userId ++ ":" ++ rt.sha256 idem

/-- Remember a key that is not empty. -/
def rememberIdem (rt : Runtime) (userId : UserId) (idem : String) : Prog State PUnit :=
  if idem ≠ "" then cacheSet (idemCacheKey rt userId idem) 1 else pure ⟨⟩

/-- Whether a key is in the cache and has a row. The row is asked for on a cache hit only. -/
def isCachedDuplicate (rt : Runtime) (config : WebhookConfig) (userId : UserId) (idem : String) :
    Prog State Bool := do
  if idem = "" then return false
  let cached ← .read fun s => s.cache (idemCacheKey rt userId idem)
  if cached.getD 0 = 0 then return false
  .read fun s => s.alerts.rows.any fun alert =>
    decide (alert.user = config.user ∧ alert.idempotencyKey = idem)

/-- Why an anchored alert is not accepted, if it is not. -/
def gate (config : WebhookConfig) (strategy : Strategy) : Prog State (Option String) :=
  if strategy.isOff then pure (some "STRATEGY_DISABLED")
  else .read fun s => isBlocked s.halts config.user config.strategy

/-- The row of an alert that is delivered. -/
def newAlert (rt : Runtime) (env : ViewEnv) (config : WebhookConfig) (body : Body) : AlertMessage where
  id := env.newId
  user := config.user
  strategy := config.strategy
  bodyJson := rt.readBack body
  idempotencyKey := idemOf (body.seen rt.printable)
  receivedAt := env.now

/-- An authenticated alert that fits its schema: anchor it, and send it to a worker. -/
def deliver (rt : Runtime) (env : ViewEnv) (config : WebhookConfig) (strategy : Strategy)
    (request : WebhookRequest) (body : Body) : Prog State (Option Response) := do
  let idem := idemOf (body.seen rt.printable)
  if ← isCachedDuplicate rt config request.userId idem then return some .duplicate
  let created ← createAlert (newAlert rt env config body)
  if !created then return some .duplicate
  match ← gate config strategy with
  | some reason =>
    .write fun s => s.setAlert env.newId fun alert =>
      { alert with status := .rejected, rejectReason := reason }
    rememberIdem rt request.userId idem
    return some (.rejected reason)
  | none =>
    .write fun s => { s with dispatched := s.dispatched ++ [env.newId] }
    rememberIdem rt request.userId idem
    return some (.accepted env.newId)

/-- An authenticated request: rate limit and schema. -/
def authenticated (rt : Runtime) (env : ViewEnv) (config : WebhookConfig) (strategy : Strategy)
    (request : WebhookRequest) (body : Body) : Prog State (Option Response) := do
  if ← rateLimited env config.user "ok" then
    return some (.err "RATE_LIMITED" "Too many requests." 429 none)
  match config.jsonSchema.bind (rt.schemaError (body.seen rt.printable)) with
  | some message =>
    let ok ← createAlert {
      id := env.newId, user := config.user, strategy := config.strategy, bodyJson := rt.readBack body,
      status := .invalid, rejectReason := "SCHEMA_INVALID", receivedAt := env.now }
    if !ok then return none
    return some (.err "WEBHOOK_SCHEMA_INVALID" "Payload failed schema validation." 400 (some message))
  | none => deliver rt env config strategy request body

/-- The media type of a content type. -/
def mediaType (rt : Runtime) (contentType : String) : String :=
  rt.lower (strip (String.ofList (contentType.toList.takeWhile fun c => decide (c ≠ ';'))))

/-- `WebhookView.post`; `none` is an exception. -/
def post (rt : Runtime) (env : ViewEnv) (request : WebhookRequest) : Prog State (Option Response) := do
  if !env.enabled then
    return some (.err "FEATURE_DISABLED" "Webhook ingest is disabled by ops." 503 none)
  if env.ipAllowlist ≠ [] ∧ request.clientIp ∉ env.ipAllowlist then
    return some (.err "WEBHOOK_SIG_BAD" "Unauthorized." 401 none)
  if mediaType rt request.contentType ≠ "application/json" then
    return some (.err "WEBHOOK_UNSUPPORTED_MEDIA_TYPE" "Content-Type must be application/json." 415 none)
  if env.maxBodyBytes < request.size then
    return some (.err "WEBHOOK_PAYLOAD_TOO_LARGE" "Payload exceeds 16 KB." 413 none)
  let some body := request.body
    | return some (.err "WEBHOOK_INVALID_JSON" "Body is not valid JSON." 400 none)
  let sig := body.lookup "sig"
  let bodyWithoutSig := body.filter fun member => decide (member.1 ≠ "sig")
  let found ← .read fun s => (s.configs.find? (request.userId, request.strategyId)).bind fun config =>
    (s.strategies.find? config.strategy).map fun strategy => (config, strategy)
  match found with
  | none => return some (.err "WEBHOOK_SIG_BAD" "Unauthorized." 401 none)
  | some (config, strategy) =>
    if !sig.any (·.isText config.secret) then badSignature rt env config request bodyWithoutSig
    else authenticated rt env config strategy request bodyWithoutSig

end StratTrader.Webhooks
