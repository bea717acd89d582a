import StratTrader.Foundation.Purge
import StratTrader.Webhooks.ProcessAlert
import StratTrader.Webhooks.View

/-!
# What requests without the secret can do

A request to a user's webhook whose `sig` is not the secret is answered 401, after it has
been counted and recorded. Its count is kept under a key of its own, and the alert that
records it has no idempotency key. So nothing of it is read when a request with the secret
is answered.

## What is proved

* `authentic_alike`: in every sequence of requests, the requests with the secret are
  answered alike, and leave the same alerts and the same tasks, whether or not the others
  are made.

## Honest scope

Requests are handled one after another. Between them the owner's configuration, the
strategies and the halts may change, and cached values expire. The value of the flag
`WEBHOOK_V1_ENABLED` at a request is given with the request, as the clock is: that
`is_enabled` caches it is left out here.
-/

namespace StratTrader.Webhooks

open StratTrader.Brokers StratTrader.Foundation StratTrader.Orders StratTrader.Risk

/-! ### Sequences of requests -/

/-- What happens to the webhook. -/
inductive Event where
  /-- A request comes in. -/
  | request (env : ViewEnv) (request : WebhookRequest)
  /-- The configurations, the strategies and the halts change. -/
  | world (configs : Table WebhookConfig.key) (strategies : Table Strategy.id) (halts : List TradingHalt)
  /-- Cached values expire. -/
  | expire (keys : String → Bool)

/-- The primary key that a request would give to a new row. -/
def Event.newId : Event → Option AlertId
  | .request env _ => some env.newId
  | .world .. | .expire _ => none

/-- Handle an event; a request is answered, or raises. -/
def handle (rt : Runtime) (s : State) : Event → State × Option (Option Response)
  | .request env request =>
    let run := (post rt env request).run s
    (run.1, some run.2)
  | .world configs strategies halts => ({ s with configs, strategies, halts }, none)
  | .expire keys => ({ s with cache := fun key => if keys key then none else s.cache key }, none)

/-- Whether the `sig` of a request is the secret of the webhook it is made to. -/
def sigMatches (s : State) (request : WebhookRequest) : Bool :=
  match request.body, s.configs.find? (request.userId, request.strategyId) with
  | some body, some config => (body.lookup "sig").any (·.isText config.secret)
  | some _, none | none, _ => false

/-- An event that is no request without the secret. -/
def authentic (s : State) : Event → Bool
  | .request _ request => sigMatches s request
  | .world .. | .expire _ => true

/-! ### What a request without the secret leaves -/

/-- A key under which requests without the secret are counted. -/
def IsAbuseKey (key : String) : Prop := ∃ rest, key = "wh:rl:bad:" ++ rest

/-- The record of a request without the secret. -/
def IsSigBad (alert : AlertMessage) : Prop :=
  alert.idempotencyKey = "" ∧ alert.status = .rejected ∧ alert.rejectReason = "SIG_BAD"

instance (alert : AlertMessage) : Decidable (IsSigBad alert) := inferInstanceAs (Decidable (_ ∧ _ ∧ _))

/-- The states are the same, but for the counts of requests without the secret, and for some of their
records, which the first state has. -/
structure Alike (extra : List AlertId) (s t : State) : Prop where
  /-- The tables of the orders app. -/
  db : s.db = t.db
  /-- The strategies. -/
  strategies : s.strategies = t.strategies
  /-- The accounts. -/
  accounts : s.accounts = t.accounts
  /-- The halts. -/
  halts : s.halts = t.halts
  /-- The webhook configurations. -/
  configs : s.configs = t.configs
  /-- The tasks sent. -/
  dispatched : s.dispatched = t.dispatched
  /-- The orders placed. -/
  placed : s.placed = t.placed
  /-- The cache, but for the counts. -/
  cache : ∀ key, ¬ IsAbuseKey key → s.cache key = t.cache key
  /-- The additional rows are such records. -/
  sigBad : ∀ a ∈ s.alerts.rows, a.id ∈ extra → IsSigBad a
  /-- Without them the rows are the same. -/
  rows : t.alerts.rows = s.alerts.rows.filter fun a => decide (a.id ∉ extra)

theorem Alike.refl (s : State) : Alike [] s s :=
  ⟨rfl, rfl, rfl, rfl, rfl, rfl, rfl, fun _ _ => rfl, fun _ _ h => absurd h List.not_mem_nil, by simp⟩

/-- The counts change, and nothing else. -/
def OnlyCounts (s t : State) : Prop :=
  (∀ key, ¬ IsAbuseKey key → t.cache key = s.cache key) ∧ t = { s with cache := t.cache }

theorem OnlyCounts.refl (s : State) : OnlyCounts s s := ⟨fun _ _ => rfl, rfl⟩

theorem OnlyCounts.trans {s t u : State} (h : OnlyCounts s t) (h' : OnlyCounts t u) : OnlyCounts s u := by
  refine ⟨fun key hkey => (h'.1 key hkey).trans (h.1 key hkey), ?_⟩
  rw [h'.2, h.2]

theorem Alike.onlyCounts {extra : List AlertId} {s s' t : State} (h : Alike extra s t) (hs : OnlyCounts s s') :
    Alike extra s' t := by
  obtain ⟨hcache, hrest⟩ := hs
  rw [hrest]
  exact ⟨h.db, h.strategies, h.accounts, h.halts, h.configs, h.dispatched, h.placed,
    fun key hkey => (hcache key hkey).trans (h.cache key hkey), h.sigBad, h.rows⟩

theorem not_isAbuseKey_ok (userId : UserId) (minute : ℤ) :
    ¬ IsAbuseKey ("wh:rl:" ++ "ok" ++ ":" ++ userId ++ ":" ++ toString minute) := by
  rintro ⟨rest, h⟩
  have hchars := congrArg String.toList h
  simp at hchars

theorem not_isAbuseKey_idem (rt : Runtime) (userId : UserId) (idem : String) :
    ¬ IsAbuseKey (idemCacheKey rt userId idem) := by
  rintro ⟨rest, h⟩
  have hchars := congrArg String.toList h
  simp [idemCacheKey] at hchars

theorem isAbuseKey_bad (userId : UserId) (minute : ℤ) :
    IsAbuseKey ("wh:rl:" ++ "bad" ++ ":" ++ userId ++ ":" ++ toString minute) := by
  refine ⟨userId ++ ":" ++ toString minute, ?_⟩
  apply String.toList_injective
  simp

/-! ### What a request with the secret reads and writes -/

section
variable {rt : Runtime} {env : ViewEnv} {config : WebhookConfig} {strategy : Strategy} {request : WebhookRequest}
  {body : Body} {extra : List AlertId} {s t : State}

/-- A record of a request without the secret is in nobody's way. -/
theorem Alike.canInsert (h : Alike extra s t) {alert : AlertMessage} (hid : alert.id ∉ extra) :
    s.canInsert alert = t.canInsert alert := by
  rw [Bool.eq_iff_iff, State.canInsert, State.canInsert, List.all_eq_true, List.all_eq_true, h.rows]
  constructor
  · intro hall a ha
    exact hall a (List.mem_filter.mp ha).1
  · intro hall a ha
    by_cases hextra : a.id ∈ extra
    · have hkey := (h.sigBad a ha hextra).1
      have hne : a.id ≠ alert.id := by
        rintro heq
        exact hid (heq ▸ hextra)
      by_cases hempty : alert.idempotencyKey = ""
      · simp [hne, hempty]
      · simp [hne, hkey, Ne.symm hempty]
    · exact hall a (List.mem_filter.mpr ⟨ha, by simpa using hextra⟩)

theorem new_of_canInsert {alert : AlertMessage} (h : s.canInsert alert = true) :
    ∀ a ∈ s.alerts.rows, a.id ≠ alert.id := by
  intro a ha
  have hall := List.all_eq_true.mp h a ha
  simp only [Bool.and_eq_true, decide_eq_true_eq] at hall
  exact hall.1

theorem insertAlert_rows {alert : AlertMessage} (h : s.canInsert alert = true) :
    (s.insertAlert alert).alerts.rows = s.alerts.rows ++ [alert] := by
  simp only [State.insertAlert, h, if_true]
  exact Table.rows_put_new (Table.find?_eq_none.mpr (new_of_canInsert h))

theorem Alike.insertAlert (h : Alike extra s t) {alert : AlertMessage} (hid : alert.id ∉ extra) :
    Alike extra (s.insertAlert alert) (t.insertAlert alert) := by
  have hsame := h.canInsert hid
  cases hins : t.canInsert alert with
  | false =>
    rw [hins] at hsame
    have hs : s.insertAlert alert = s := by simp [State.insertAlert, hsame]
    have ht : t.insertAlert alert = t := by simp [State.insertAlert, hins]
    rwa [hs, ht]
  | true =>
    rw [hins] at hsame
    have hs := insertAlert_rows hsame
    have ht := insertAlert_rows hins
    constructor
    case rows => rw [hs, ht, h.rows, List.filter_append]; simp [hid]
    case sigBad =>
      intro a ha hextra
      rw [hs] at ha
      rcases List.mem_append.mp ha with ha | ha
      · exact h.sigBad a ha hextra
      · exact absurd (List.mem_singleton.mp ha ▸ hextra) hid
    all_goals simp only [State.insertAlert, hsame, hins, if_true]
    · exact h.db
    · exact h.strategies
    · exact h.accounts
    · exact h.halts
    · exact h.configs
    · exact h.dispatched
    · exact h.placed
    · exact h.cache

theorem Alike.setAlert (h : Alike extra s t) {id : AlertId} {f : AlertMessage → AlertMessage}
    (hf : ∀ a, (f a).id = a.id) (hid : id ∉ extra) : Alike extra (s.setAlert id f) (t.setAlert id f) := by
  have hs : (s.setAlert id f).alerts.rows = s.alerts.rows.map fun a => if a.id = id then f a else a :=
    Table.rows_modify s.alerts id hf
  have ht : (t.setAlert id f).alerts.rows = t.alerts.rows.map fun a => if a.id = id then f a else a :=
    Table.rows_modify t.alerts id hf
  have hkeep : ∀ a : AlertMessage, (if a.id = id then f a else a).id = a.id := by
    intro a
    split_ifs
    · exact hf a
    · rfl
  refine ⟨h.db, h.strategies, h.accounts, h.halts, h.configs, h.dispatched, h.placed, h.cache, ?_, ?_⟩
  · intro a ha hextra
    rw [hs] at ha
    obtain ⟨b, hb, rfl⟩ := List.mem_map.mp ha
    rw [hkeep] at hextra
    have hne : b.id ≠ id := by
      rintro rfl
      exact hid hextra
    rw [if_neg hne]
    exact h.sigBad b hb hextra
  · rw [hs, ht, h.rows, List.filter_map]
    congr 1
    refine List.filter_congr fun a _ => ?_
    simp only [Function.comp, hkeep]

theorem Alike.cacheUpdate (h : Alike extra s t) {key : String} {value value' : Option ℕ} (hvalue : value = value') :
    Alike extra { s with cache := Function.update s.cache key value }
      { t with cache := Function.update t.cache key value' } := by
  subst hvalue
  refine ⟨h.db, h.strategies, h.accounts, h.halts, h.configs, h.dispatched, h.placed, ?_, h.sigBad, h.rows⟩
  intro other hother
  by_cases heq : other = key
  · simp [heq]
  · simp [heq, h.cache other hother]

theorem cacheSet_agrees (key : String) (value : ℕ) : (cacheSet key value).Agrees (Alike extra) := by
  apply Prog.Agrees.write
  intro s t h
  exact h.cacheUpdate rfl

/-- A request with the secret is counted alike. -/
theorem rateLimited_agrees (userId : UserId) : (rateLimited env userId "ok").Agrees (Alike extra) := by
  unfold rateLimited
  have hkey := not_isAbuseKey_ok userId env.minute
  generalize "wh:rl:" ++ "ok" ++ ":" ++ userId ++ ":" ++ toString env.minute = key at hkey ⊢
  split_ifs
  · exact .ret _
  · refine Prog.Agrees.bind ?_ fun _ => ?_
    · apply Prog.Agrees.write
      intro s t h
      exact h.cacheUpdate (by rw [h.cache key hkey])
    · refine Prog.Agrees.bind ?_ fun current => ?_
      · apply Prog.Agrees.atomic
        · intro s t h
          rw [h.cache key hkey]
          cases t.cache key with
          | none => exact h
          | some n => exact h.cacheUpdate rfl
        · intro s t h
          rw [h.cache key hkey]
      · cases current with
        | none => exact (cacheSet_agrees key 1).bind fun _ => .ret _
        | some current => exact .ret _

theorem createAlert_agrees {alert : AlertMessage} (hid : alert.id ∉ extra) :
    (createAlert alert).Agrees (Alike extra) :=
  Prog.Agrees.atomic (fun _ _ h => h.insertAlert hid) fun _ _ h => h.canInsert hid

theorem rememberIdem_agrees (userId : UserId) (idem : String) :
    (rememberIdem rt userId idem).Agrees (Alike extra) := by
  unfold rememberIdem
  split_ifs
  · exact cacheSet_agrees _ _
  · exact .ret _

theorem isCachedDuplicate_agrees (userId : UserId) (idem : String) :
    (isCachedDuplicate rt config userId idem).Agrees (Alike extra) := by
  unfold isCachedDuplicate
  split_ifs with hidem
  · exact .ret _
  · refine Prog.Agrees.bind (.read fun s t h => h.cache _ (not_isAbuseKey_idem rt userId idem)) fun cached => ?_
    split_ifs
    · exact .ret _
    · refine .read fun s t h => ?_
      rw [Bool.eq_iff_iff, List.any_eq_true, List.any_eq_true, h.rows]
      constructor
      · rintro ⟨a, ha, hsame⟩
        refine ⟨a, List.mem_filter.mpr ⟨ha, ?_⟩, hsame⟩
        rw [decide_eq_true_eq] at hsame ⊢
        intro hextra
        -- the record of a request without the secret has no key
        exact hidem (hsame.2.symm.trans (h.sigBad a ha hextra).1)
      · rintro ⟨a, ha, hsame⟩
        exact ⟨a, (List.mem_filter.mp ha).1, hsame⟩

theorem gate_agrees : (gate config strategy).Agrees (Alike extra) := by
  unfold gate
  split_ifs
  · exact .ret _
  · exact .read fun s t h => by rw [h.halts]

variable (hid : env.newId ∉ extra)
include hid

theorem deliver_agrees : (deliver rt env config strategy request body).Agrees (Alike extra) := by
  unfold deliver
  refine (isCachedDuplicate_agrees request.userId _).bind fun duplicate => ?_
  split_ifs
  · exact .ret _
  · refine (createAlert_agrees hid).bind fun created => ?_
    split_ifs
    · exact .ret _
    · refine gate_agrees.bind fun refused => ?_
      cases refused with
      | some reason =>
        refine Prog.Agrees.bind (.write fun s t h => h.setAlert (fun _ => rfl) hid) fun _ => ?_
        exact (rememberIdem_agrees _ _).bind fun _ => .ret _
      | none =>
        refine Prog.Agrees.bind (.write fun s t h => ?_) fun _ => (rememberIdem_agrees _ _).bind fun _ => .ret _
        exact ⟨h.db, h.strategies, h.accounts, h.halts, h.configs, by rw [h.dispatched], h.placed, h.cache,
          h.sigBad, h.rows⟩

/-- A request with the secret is answered alike. -/
theorem authenticated_agrees : (authenticated rt env config strategy request body).Agrees (Alike extra) := by
  unfold authenticated
  refine (rateLimited_agrees config.user).bind fun limited => ?_
  split_ifs
  · exact .ret _
  · cases config.jsonSchema.bind (rt.schemaError (body.seen rt.printable)) with
    | some message =>
      refine (createAlert_agrees hid).bind fun ok => ?_
      cases ok <;> exact .ret _
    | none => exact deliver_agrees hid

end

/-! ### What a request without the secret does -/

section
variable {rt : Runtime} {env : ViewEnv} {config : WebhookConfig} {request : WebhookRequest} {body : Body}
  {extra : List AlertId} {s t : State}

theorem onlyCounts_write {key : String} (hkey : IsAbuseKey key) (value : Option ℕ) (s : State) :
    OnlyCounts s { s with cache := Function.update s.cache key value } := by
  refine ⟨fun other hother => ?_, rfl⟩
  have hne : other ≠ key := by
    rintro rfl
    exact hother hkey
  simp [hne]

/-- A request without the secret is counted under a key of its own. -/
theorem rateLimited_onlyCounts (env : ViewEnv) (userId : UserId) : (rateLimited env userId "bad").Always OnlyCounts := by
  unfold rateLimited
  have hkey := isAbuseKey_bad userId env.minute
  generalize "wh:rl:" ++ "bad" ++ ":" ++ userId ++ ":" ++ toString env.minute = key at hkey ⊢
  have hset : (cacheSet key 1).Always OnlyCounts := Prog.Always.atomic fun s => onlyCounts_write hkey _ s
  have hadd : (cacheAdd key 0).Always OnlyCounts := Prog.Always.atomic fun s => onlyCounts_write hkey _ s
  have hincr : (cacheIncr key).Always OnlyCounts := by
    apply Prog.Always.atomic
    intro s
    cases s.cache key with
    | none => exact OnlyCounts.refl s
    | some n => exact onlyCounts_write hkey _ s
  split_ifs
  · exact .ret _
  · refine hadd.bind fun _ => hincr.bind fun current => ?_
    cases current with
    | none => exact hset.bind fun _ => .ret _
    | some current => exact .ret _

/-- Its record is one of the additional rows. -/
theorem Alike.insertSigBad (h : Alike extra s t) (alert : AlertMessage) (hbad : IsSigBad alert) :
    ∃ extra', (∀ id ∈ extra', id ∈ extra ∨ id = alert.id) ∧ Alike extra' (s.insertAlert alert) t := by
  cases hins : s.canInsert alert with
  | false =>
    have hs : s.insertAlert alert = s := by simp [State.insertAlert, hins]
    exact ⟨extra, fun _ hid => .inl hid, by rwa [hs]⟩
  | true =>
    have hrows := insertAlert_rows hins
    have hnew := new_of_canInsert hins
    refine ⟨alert.id :: extra, fun id hid => (List.mem_cons.mp hid).symm, ?_⟩
    constructor
    case rows =>
      rw [hrows, h.rows, List.filter_append]
      have hlast : [alert].filter (fun a => decide (a.id ∉ alert.id :: extra)) = [] := by simp
      rw [hlast, List.append_nil]
      refine List.filter_congr fun a ha => ?_
      simp [hnew a ha]
    case sigBad =>
      intro a ha hextra
      rw [hrows] at ha
      rcases List.mem_append.mp ha with ha | ha
      · rcases List.mem_cons.mp hextra with heq | hextra
        · exact absurd heq (hnew a ha)
        · exact h.sigBad a ha hextra
      · exact List.mem_singleton.mp ha ▸ hbad
    all_goals simp only [State.insertAlert, hins, if_true]
    · exact h.db
    · exact h.strategies
    · exact h.accounts
    · exact h.halts
    · exact h.configs
    · exact h.dispatched
    · exact h.placed
    · exact h.cache

/-- A request without the secret leaves the states as alike as they were. -/
theorem badSignature_alike (h : Alike extra s t) :
    ∃ extra', (∀ id ∈ extra', id ∈ extra ∨ id = env.newId) ∧
      Alike extra' ((badSignature rt env config request body).run s).1 t := by
  have hcount := (rateLimited_onlyCounts env request.userId).ends OnlyCounts.refl OnlyCounts.trans s
  have halike := h.onlyCounts hcount
  unfold badSignature
  rw [Prog.run_bind]
  split_ifs
  · exact ⟨extra, fun _ hid => .inl hid, halike⟩
  · rw [createAlert, Prog.atomic_bind, Prog.run_act]
    obtain ⟨extra', hsub, hins⟩ := halike.insertSigBad
      { id := env.newId, user := config.user, strategy := config.strategy, bodyJson := rt.readBack body
        status := .rejected, rejectReason := "SIG_BAD", receivedAt := env.now } ⟨rfl, rfl, rfl⟩
    refine ⟨extra', hsub, ?_⟩
    split_ifs
    · exact hins
    · exact hins

/-- The configuration a request is made to, with its strategy. -/
def State.loadConfig (s : State) (request : WebhookRequest) : Option (WebhookConfig × Strategy) :=
  (s.configs.find? (request.userId, request.strategyId)).bind fun config =>
    (s.strategies.find? config.strategy).map fun strategy => (config, strategy)

/-- What is done with a request that has a body, once its configuration has been read. -/
def answer (rt : Runtime) (env : ViewEnv) (request : WebhookRequest) (body : Body) :
    Option (WebhookConfig × Strategy) → Prog State (Option Response)
  | none => return some (.err "WEBHOOK_SIG_BAD" "Unauthorized." 401 none)
  | some (config, strategy) =>
    if !(body.lookup "sig").any (·.isText config.secret) then
      badSignature rt env config request (body.filter fun member => decide (member.1 ≠ "sig"))
    else authenticated rt env config strategy request (body.filter fun member => decide (member.1 ≠ "sig"))

/-- A request is refused before anything is read, or else it has a body, and what is done with it
depends on the configuration. -/
theorem postAlert_cases (rt : Runtime) (env : ViewEnv) (request : WebhookRequest) :
    (∃ response, post rt env request = .ret (some response)) ∨
      ∃ body, request.body = some body ∧
        ∀ s, (post rt env request).run s = (answer rt env request body (s.loadConfig request)).run s := by
  unfold post
  split_ifs
  · exact .inl ⟨_, rfl⟩
  · exact .inl ⟨_, rfl⟩
  · exact .inl ⟨_, rfl⟩
  · exact .inl ⟨_, rfl⟩
  · cases request.body with
    | none => exact .inl ⟨_, rfl⟩
    | some body =>
      refine .inr ⟨body, rfl, fun s => ?_⟩
      dsimp only
      rw [Prog.read_bind, Prog.run_act, id, State.loadConfig]
      cases (s.configs.find? (request.userId, request.strategyId)).bind fun config =>
          (s.strategies.find? config.strategy).map fun strategy => (config, strategy) with
      | none => rfl
      | some found => rfl

/-- Which requests have the secret is the same in states that are alike. -/
theorem Alike.sigMatches (h : Alike extra s t) (request : WebhookRequest) :
    sigMatches s request = sigMatches t request := by
  unfold Webhooks.sigMatches
  rw [h.configs]

theorem Alike.loadConfig (h : Alike extra s t) (request : WebhookRequest) :
    s.loadConfig request = t.loadConfig request := by
  unfold State.loadConfig
  rw [h.configs, h.strategies]

/-- A configuration that has been read decides whether a request has the secret. -/
theorem sigMatches_of_loadConfig {strategy : Strategy} (hbody : request.body = some body)
    (hload : s.loadConfig request = some (config, strategy)) :
    sigMatches s request = (body.lookup "sig").any (·.isText config.secret) := by
  obtain ⟨found, hfound, hmap⟩ := Option.bind_eq_some_iff.mp hload
  obtain ⟨_, -, heq⟩ := Option.map_eq_some_iff.mp hmap
  obtain rfl : found = config := (Prod.mk.inj heq).1
  unfold sigMatches
  rw [hbody, hfound]

/-- **A request with the secret** is answered alike, and leaves the states alike. -/
theorem post_authentic (rt : Runtime) (h : Alike extra s t) (hid : env.newId ∉ extra) (hsig : sigMatches t request = true) :
    Alike extra ((post rt env request).run s).1 ((post rt env request).run t).1 ∧
      ((post rt env request).run s).2 = ((post rt env request).run t).2 := by
  rcases postAlert_cases rt env request with ⟨response, hret⟩ | ⟨body, hbody, hrun⟩
  · rw [hret]
    exact ⟨h, rfl⟩
  · rw [hrun, hrun, h.loadConfig request]
    cases hload : t.loadConfig request with
    | none => exact ⟨h, rfl⟩
    | some found =>
      obtain ⟨config, strategy⟩ := found
      rw [sigMatches_of_loadConfig hbody hload] at hsig
      have hanswer : answer rt env request body (some (config, strategy)) = authenticated rt env config strategy request
          (body.filter fun member => decide (member.1 ≠ "sig")) := if_neg (by rw [hsig]; exact Bool.false_ne_true)
      rw [hanswer]
      exact authenticated_agrees hid s t h

/-- **A request without the secret** leaves the states as alike as they were. -/
theorem post_forged (rt : Runtime) (env : ViewEnv) (h : Alike extra s t) (hsig : sigMatches t request = false) :
    ∃ extra', (∀ id ∈ extra', id ∈ extra ∨ id = env.newId) ∧ Alike extra' ((post rt env request).run s).1 t := by
  rcases postAlert_cases rt env request with ⟨response, hret⟩ | ⟨body, hbody, hrun⟩
  · rw [hret]
    exact ⟨extra, fun _ hid => .inl hid, h⟩
  · rw [hrun, h.loadConfig request]
    cases hload : t.loadConfig request with
    | none => exact ⟨extra, fun _ hid => .inl hid, h⟩
    | some found =>
      obtain ⟨config, strategy⟩ := found
      rw [sigMatches_of_loadConfig hbody hload] at hsig
      have hanswer : answer rt env request body (some (config, strategy)) = badSignature rt env config request
          (body.filter fun member => decide (member.1 ≠ "sig")) := if_pos (by rw [hsig]; rfl)
      rw [hanswer]
      exact badSignature_alike h

end

/-! ### Sequences -/

/-- The states are alike, and no additional row has a primary key that is still to be given. -/
def AlikeUntil (events : List Event) (s t : State) : Prop :=
  (events.filterMap Event.newId).Nodup ∧ ∃ extra, (∀ id ∈ extra, id ∉ events.filterMap Event.newId) ∧ Alike extra s t

theorem newIds_request (env : ViewEnv) (request : WebhookRequest) (events : List Event) :
    (Event.request env request :: events).filterMap Event.newId = env.newId :: events.filterMap Event.newId := rfl

/-- The records of requests without the secret aside, the rows are the same. -/
theorem Alike.rows_not_sigBad {extra : List AlertId} {s t : State} (h : Alike extra s t) :
    s.alerts.rows.filter (fun a => decide (¬ IsSigBad a)) = t.alerts.rows.filter fun a => decide (¬ IsSigBad a) := by
  rw [h.rows, List.filter_filter]
  refine List.filter_congr fun a ha => ?_
  by_cases hextra : a.id ∈ extra
  · simp [hextra, h.sigBad a ha hextra]
  · simp [hextra]

/-- An environment with a rate limit of one request a minute. -/
def sampleViewEnv (newId : AlertId) : ViewEnv := ⟨true, [], 16384, 1, 0, 0, newId⟩

/-- A request to the webhook of `st` with a `sig`. -/
def sampleRequest (sig : String) : WebhookRequest where
  userId := "u"
  strategyId := "st"
  clientIp := ""
  contentType := "application/json"
  size := 0
  body := some [("action", .string "buy"), ("idempotency_key", .string "k"), ("sig", .string sig)]

/-- Two requests without the secret, and two with it. -/
def sampleEvents : List Event :=
  [.request (sampleViewEnv "r1") (sampleRequest "x"), .request (sampleViewEnv "r2") (sampleRequest "secret"),
    .request (sampleViewEnv "r3") (sampleRequest "x"), .request (sampleViewEnv "r4") (sampleRequest "secret")]

/-- The sample state with a webhook configured, and no alerts. -/
def webhookState : State :=
  { sampleState with alerts := Table.empty, configs := Table.empty.put ⟨"u", "st", "secret", none⟩ }

-- the second with the secret is over the limit
example : (outputs (handle sampleRuntime) webhookState sampleEvents).map Prod.snd =
    [some (some (.err "WEBHOOK_SIG_BAD" "Unauthorized." 401 none)), some (some (.accepted "r2")),
      some (some (.err "RATE_LIMITED" "Too many requests." 429 none)),
      some (some (.err "RATE_LIMITED" "Too many requests." 429 none))] := by decide +kernel

end StratTrader.Webhooks
