import StratTrader.Foundation.Runs
import Mathlib.Data.List.Infix
import Mathlib.Tactic.SplitIfs

/-!
# The refresh interceptor

`core/interceptors/refresh.interceptor.ts`: a request that is answered with 401 has the session refreshed
and is sent again. The first of several leads: it awaits `refreshSession()`, and the others are queued on
`refreshDone$` until it has ended. What the leader's observable catches behind the refresh is also the
failure of its own second try, which is taken for one of the refresh.

## What is proved

* `intercepts_refresh`, `intercepts_logout`: the calls that the interceptor makes itself are not intercepted.
* `requests_served`: a queued request awaits a refresh that is under way and ends within fifteen seconds, the
  end of any refresh sends every queued request again with the token that it brings, or else passes its error on,
  and no request is sent more than twice.
* `one_rotation`: as long as no refresh times out, and no second try of a leader fails while another refresh
  is under way, at most one call of `refreshSession()` is waiting for its answer.
* `not_requests_served`, `not_one_rotation`: neither holds of all runs.

## Honest scope

A step is a task of the event loop. A leader whose caller unsubscribes leaves `isRefreshing` set for good, so
`requests_served` is about runs in which none does; a timer that is due fires before the time goes on.
Navigation is left out, and so is what the responses hold beside the token.
-/

namespace StratTrader.Frontend

open StratTrader.Foundation

/-! ### Which requests -/

/-- `REFRESH_TIMEOUT_MS`. -/
def refreshTimeoutMs : ℕ := 15000

/-- `SKIP_REFRESH_PATHS`. -/
def skipRefreshPaths : List String :=
  ["/auth/login/", "/auth/register/", "/auth/refresh/", "/auth/logout/", "/auth/mfa/verify/", "/auth/verify-email/",
    "/auth/resend-verification/", "/auth/password/reset", "/auth/oauth/"]

/-- The answer to a request to `url` is looked at. -/
def intercepts (apiBase url : List Char) : Bool :=
  apiBase.isPrefixOf url && !skipRefreshPaths.any fun path => decide (path.toList <:+: url)

theorem intercepts_skipped {path : String} (h : path ∈ skipRefreshPaths) (apiBase front behind : List Char) :
    intercepts apiBase (apiBase ++ front ++ path.toList ++ behind) = false := by
  have hany : skipRefreshPaths.any
      (fun path' => decide (path'.toList <:+: apiBase ++ front ++ path.toList ++ behind)) = true :=
    List.any_eq_true.mpr ⟨path, h, decide_eq_true ⟨apiBase ++ front, behind, rfl⟩⟩
  unfold intercepts
  rw [hany, Bool.not_true, Bool.and_false]

/-- `AuthApi.refresh` is not intercepted. -/
theorem intercepts_refresh (apiBase : List Char) :
    intercepts apiBase (apiBase ++ "/v1".toList ++ "/auth/refresh/".toList ++ []) = false :=
  intercepts_skipped (by decide) apiBase _ _

/-- `AuthApi.logout` is not intercepted. -/
theorem intercepts_logout (apiBase : List Char) :
    intercepts apiBase (apiBase ++ "/v1".toList ++ "/auth/logout/".toList ++ []) = false :=
  intercepts_skipped (by decide) apiBase _ _

/-! ### The interceptor -/

/-- An access token. -/
abbrev AccessToken := String

/-- How the server answers. -/
inductive Reply where
  /-- With success. -/
  | ok
  /-- With 401. -/
  | unauthorized
  /-- With any other failure, or not at all. -/
  | failed
  deriving DecidableEq

/-- What a caller is left with. -/
inductive Outcome where
  /-- A response. -/
  | answered
  /-- An error. -/
  | failed
  /-- Nothing: it has unsubscribed. -/
  | unsubscribed
  deriving DecidableEq

/-- What an answer that is passed on leaves it with. -/
def Reply.outcome : Reply → Outcome
  | ok => .answered
  | unauthorized => .failed
  | failed => .failed

/-- Where a request is. -/
inductive RequestPos where
  /-- It has been sent. -/
  | sent
  /-- It is queued on the subject with a number, since a time. -/
  | queued (subject joined : ℕ)
  /-- It awaits the call of `refreshSession()` with a number, since a time. -/
  | refreshing (session started : ℕ)
  /-- It has been sent again; it may have led. -/
  | retried (led : Bool)
  /-- It is over. -/
  | ended (outcome : Outcome)
  deriving DecidableEq

/-- A request that is intercepted. -/
structure ApiRequest where
  /-- The access token of each time that it was sent. -/
  headers : List (Option AccessToken)
  /-- Where it is. -/
  pos : RequestPos
  deriving DecidableEq

namespace ApiRequest

/-- `retryWithNewToken`. -/
def retryWithNewToken (r : ApiRequest) (token : Option AccessToken) (led : Bool) : ApiRequest :=
  ⟨r.headers ++ [token], .retried led⟩

/-- `throwError`. -/
def withError (r : ApiRequest) : ApiRequest := { r with pos := .ended .failed }

/-- The caller unsubscribes, unless it is over. -/
def unsubscribe (r : ApiRequest) : ApiRequest :=
  match r.pos with
  | .ended _ => r
  | _ => { r with pos := .ended .unsubscribed }

/-- What an observer of the subject makes of `next(ok)`. -/
def notify (token : Option AccessToken) (subject : ℕ) (ok : Bool) (r : ApiRequest) : ApiRequest :=
  match r.pos with
  | .queued j _ =>
    if j = subject then (if ok then r.retryWithNewToken token false else r.withError) else r
  | _ => r

/-- It awaits the call of `refreshSession()` with the number. -/
def awaits (session : ℕ) (r : ApiRequest) : Bool :=
  match r.pos with
  | .refreshing k _ => k == session
  | _ => false

/-- When its refresh times out. -/
def deadline (r : ApiRequest) : Option ℕ :=
  match r.pos with
  | .refreshing _ started => some (started + refreshTimeoutMs)
  | _ => none

/-- It is queued. -/
def isQueued (r : ApiRequest) : Bool :=
  match r.pos with
  | .queued _ _ => true
  | _ => false

end ApiRequest

/-- The interceptor's variables, its requests, and what they share. -/
structure Interceptor where
  /-- `isRefreshing`. -/
  isRefreshing : Bool := false
  /-- The number of the subject `refreshDone$`. -/
  subject : ℕ := 0
  /-- The requests. -/
  requests : List ApiRequest := []
  /-- The calls of `refreshSession()`: whether each is waiting for its answer. -/
  sessions : List Bool := []
  /-- `AuthStore.accessToken`. -/
  accessToken : Option AccessToken := none
  /-- The calls of `AuthFacade.logout()` that have not cleared the store yet. -/
  logouts : ℕ := 0
  /-- The time. -/
  now : ℕ := 0
  deriving DecidableEq

/-- What can happen. -/
inductive InterceptorAct where
  /-- A request is made. -/
  | send (url : List Char)
  /-- A request is answered. -/
  | reply (n : ℕ) (reply : Reply)
  /-- A call of `refreshSession()` ends, with the token that it was given. -/
  | settle (session : ℕ) (token : Option AccessToken)
  /-- The `timeout` of a request's refresh. -/
  | expire (n : ℕ)
  /-- The caller of a request unsubscribes. -/
  | cancel (n : ℕ)
  /-- A `logout()` clears the store. -/
  | clear
  /-- The user signs in. -/
  | signIn (token : AccessToken)
  /-- `initSession` calls `refreshSession()`. -/
  | initSession
  /-- A millisecond passes. -/
  | tick
  deriving DecidableEq

namespace Interceptor

/-- The request with a number becomes another. -/
def put (s : Interceptor) (n : ℕ) (r : ApiRequest) : Interceptor := { s with requests := s.requests.set n r }

/-- `isRefreshing = false; refreshDone$.next(ok); refreshDone$.complete()`. -/
def finish (s : Interceptor) (ok : Bool) : Interceptor :=
  { s with isRefreshing := false, requests := s.requests.map (ApiRequest.notify s.accessToken s.subject ok) }

/-- `facade.logout()`. -/
def logout (s : Interceptor) : Interceptor := { s with logouts := s.logouts + 1 }

/-- A 401: the request is queued, or leads. -/
def unauthorized (s : Interceptor) (n : ℕ) (r : ApiRequest) : Interceptor :=
  if s.isRefreshing then s.put n { r with pos := .queued s.subject s.now }
  else
    { s.put n { r with pos := .refreshing s.sessions.length s.now } with
      isRefreshing := true
      subject := s.subject + 1
      sessions := s.sessions ++ [true] }

/-- What is behind the `timeout` of a leader's refresh: it catches every error. -/
def catchRefreshError (s : Interceptor) (n : ℕ) (r : ApiRequest) : Interceptor :=
  ((s.finish false).logout).put n r.withError

/-- A request is answered. -/
def answer (s : Interceptor) (n : ℕ) (r : ApiRequest) (reply : Reply) : Option Interceptor :=
  match r.pos, reply with
  | .sent, .unauthorized => some (s.unauthorized n r)
  | .sent, reply => some (s.put n { r with pos := .ended reply.outcome })
  | .retried true, .unauthorized => some (s.catchRefreshError n r)
  | .retried true, .failed => some (s.catchRefreshError n r)
  | .retried _, reply => some (s.put n { r with pos := .ended reply.outcome })
  | _, _ => none

/-- A leader goes on behind `refreshSession()`. -/
def lead (s : Interceptor) (n : ℕ) (r : ApiRequest) (ok : Bool) : Interceptor :=
  if ok then (s.finish true).put n (r.retryWithNewToken s.accessToken true)
  else ((s.finish false).logout).catchRefreshError n r

/-- A call of `refreshSession()` ends: the store takes the token, or is cleared. -/
def settle (s : Interceptor) (session : ℕ) (token : Option AccessToken) : Option Interceptor :=
  if s.sessions[session]? = some true then
    let t := { s with sessions := s.sessions.set session false, accessToken := token }
    match t.requests.findIdx? (ApiRequest.awaits session) with
    | none => some t
    | some n => (t.requests[n]?).map fun r => t.lead n r token.isSome
  else none

/-- One step. -/
def apply (apiBase : List Char) (s : Interceptor) : InterceptorAct → Option Interceptor
  | .send url =>
    if intercepts apiBase url then some { s with requests := s.requests ++ [⟨[s.accessToken], .sent⟩] } else none
  | .reply n reply => (s.requests[n]?).bind fun r => s.answer n r reply
  | .settle session token => s.settle session token
  | .expire n => (s.requests[n]?).bind fun r =>
    match r.deadline with
    | none => none
    | some d => if d ≤ s.now then some (s.catchRefreshError n r) else none
  | .cancel n => (s.requests[n]?).map fun r => s.put n r.unsubscribe
  | .clear => if 0 < s.logouts then some { s with logouts := s.logouts - 1, accessToken := none } else none
  | .signIn token => some { s with accessToken := some token }
  | .initSession => some { s with sessions := s.sessions ++ [true] }
  | .tick => some { s with now := s.now + 1 }

end Interceptor

/-! ### What a queued request waits for -/

/-- It has been sent once until it is sent again, and then with a token. -/
def ApiRequest.Sent (r : ApiRequest) : Prop :=
  match r.pos with
  | .sent | .queued _ _ | .refreshing _ _ => ∃ first, r.headers = [first]
  | .retried _ => ∃ first token, r.headers = [first, some token]
  | .ended _ => (∃ first, r.headers = [first]) ∨ ∃ first token, r.headers = [first, some token]

namespace ApiRequest

variable {r : ApiRequest} {token : Option AccessToken} {subject : ℕ} {ok : Bool}

theorem Sent.ended (h : r.Sent) (outcome : Outcome) : ({ r with pos := .ended outcome } : ApiRequest).Sent := by
  unfold Sent at h
  split at h
  case h_4 => exact .inr h
  case h_5 => exact h
  all_goals exact .inl h

theorem Sent.unsubscribe (h : r.Sent) : r.unsubscribe.Sent := by
  unfold ApiRequest.unsubscribe
  split
  · exact h
  · exact h.ended .unsubscribed

/-- It is over then. -/
theorem pos_unsubscribe (r : ApiRequest) : ∃ outcome, r.unsubscribe.pos = .ended outcome := by
  unfold ApiRequest.unsubscribe
  split
  case h_1 outcome hpos => exact ⟨outcome, hpos⟩
  case h_2 => exact ⟨.unsubscribed, rfl⟩

theorem Sent.retryWithNewToken (h : ∃ first, r.headers = [first]) (htoken : token.isSome = true) (led : Bool) :
    (r.retryWithNewToken token led).Sent := by
  obtain ⟨first, hfirst⟩ := h
  obtain ⟨text, rfl⟩ := Option.isSome_iff_exists.mp htoken
  exact ⟨first, text, by rw [ApiRequest.retryWithNewToken, hfirst, List.singleton_append]⟩

theorem Sent.notify (h : r.Sent) (htoken : ok = true → token.isSome = true) : (r.notify token subject ok).Sent := by
  unfold ApiRequest.notify
  cases hpos : r.pos with
  | queued j joined =>
    dsimp only
    split_ifs with hj hok
    · unfold Sent at h
      rw [hpos] at h
      exact Sent.retryWithNewToken h (htoken hok) false
    · exact h.ended .failed
    · exact h
  | _ => exact h

/-- An observer of the subject is let go. -/
theorem notify_of_queued {joined : ℕ} (h : r.pos = .queued subject joined) :
    r.notify token subject ok = if ok then r.retryWithNewToken token false else r.withError := by
  unfold notify
  rw [h]
  exact if_pos rfl

/-- Who is not queued does not hear of it. -/
theorem notify_of_not_queued (h : r.isQueued = false) : r.notify token subject ok = r := by
  unfold notify
  cases hpos : r.pos with
  | queued j joined =>
    unfold isQueued at h
    rw [hpos] at h
    cases h
  | _ => rfl

/-- A leader does not hear of it. -/
theorem notify_refreshing {session started : ℕ} :
    (r.notify token subject ok).pos = .refreshing session started ↔ r.pos = .refreshing session started := by
  unfold notify
  cases hpos : r.pos with
  | queued j joined =>
    dsimp only
    split_ifs <;> simp [ApiRequest.retryWithNewToken, ApiRequest.withError, hpos]
  | _ => dsimp only; rw [hpos]

/-- No observer of the subject stays. -/
theorem notify_queued {j joined : ℕ} (h : (r.notify token subject ok).pos = .queued j joined) :
    r.pos = .queued j joined ∧ j ≠ subject := by
  unfold notify at h
  cases hpos : r.pos with
  | queued i since =>
    rw [hpos] at h
    dsimp only at h
    split_ifs at h with hi
    · cases h
    · cases h
    · rw [hpos] at h
      cases h
      exact ⟨rfl, hi⟩
  | _ =>
    rw [hpos] at h
    dsimp only at h
    rw [hpos] at h
    cases h

end ApiRequest

/-- **What holds in every run** in which no caller of a leader unsubscribes. -/
structure InterceptorInv (s : Interceptor) : Prop where
  /-- What the requests have sent. -/
  sent : ∀ (n : ℕ) (r : ApiRequest), s.requests[n]? = some r → r.Sent
  /-- No refresh is overdue. -/
  timely : ∀ (n : ℕ) (r : ApiRequest) session started, s.requests[n]? = some r → r.pos = .refreshing session started →
    started ≤ s.now ∧ s.now ≤ started + refreshTimeoutMs
  /-- Requests are queued on the subject of the refresh under way. -/
  queued : ∀ (n : ℕ) (r : ApiRequest) subject joined, s.requests[n]? = some r → r.pos = .queued subject joined →
    s.isRefreshing = true ∧ subject = s.subject
  /-- The leader that set `isRefreshing` still awaits its refresh, and the queued ones came later. -/
  led : s.isRefreshing = true → ∃ (n : ℕ) (l : ApiRequest) (session started : ℕ), s.requests[n]? = some l ∧
    l.pos = .refreshing session started ∧
    ∀ (m : ℕ) (r : ApiRequest) subject joined, s.requests[m]? = some r → r.pos = .queued subject joined → started ≤ joined

variable {apiBase : List Char} {s t : Interceptor} {n : ℕ} {r r' : ApiRequest}

theorem interceptorInv_init : InterceptorInv {} :=
  ⟨fun _ _ h => (nomatch h), fun _ _ _ _ h => (nomatch h), fun _ _ _ _ h => (nomatch h), fun h => (nomatch h)⟩

/-- Of one request in place of another. -/
theorem getElem?_put (hr : s.requests[n]? = some r) (m : ℕ) :
    (s.put n r').requests[m]? = if m = n then some r' else s.requests[m]? := by
  have hn : n < s.requests.length := (List.getElem?_eq_some_iff.mp hr).1
  unfold Interceptor.put
  split_ifs with hm
  · rw [hm]
    exact List.getElem?_set_self hn
  · exact List.getElem?_set_ne fun h => hm h.symm

/-- A request ends or is sent again that is not the leader. -/
theorem InterceptorInv.put (hs : InterceptorInv s) (hr : s.requests[n]? = some r)
    (hlead : s.isRefreshing = true → ∀ session started, r.pos ≠ .refreshing session started) (hsent : r'.Sent)
    (hrefreshing : ∀ session started, r'.pos ≠ .refreshing session started)
    (hqueued : ∀ subject joined, r'.pos ≠ .queued subject joined) : InterceptorInv (s.put n r') := by
  have hcases : ∀ (m : ℕ) (q : ApiRequest), (s.put n r').requests[m]? = some q → q = r' ∨ s.requests[m]? = some q := by
    intro m q hq
    rw [getElem?_put hr] at hq
    split_ifs at hq
    · exact .inl (Option.some.inj hq).symm
    · exact .inr hq
  refine ⟨fun m q hq => ?_, fun m q session started hq hpos => ?_, fun m q subject joined hq hpos => ?_, fun h => ?_⟩
  · rcases hcases m q hq with rfl | hold
    · exact hsent
    · exact hs.sent m q hold
  · rcases hcases m q hq with rfl | hold
    · exact absurd hpos (hrefreshing session started)
    · exact hs.timely m q session started hold hpos
  · rcases hcases m q hq with rfl | hold
    · exact absurd hpos (hqueued subject joined)
    · exact hs.queued m q subject joined hold hpos
  · obtain ⟨m, l, session, started, hl, hpos, hlater⟩ := hs.led h
    have hne : m ≠ n := by
      rintro rfl
      rw [hr] at hl
      cases hl
      exact hlead h session started hpos
    refine ⟨m, l, session, started, ?_, hpos, fun i q subject joined hq hqpos => ?_⟩
    · rw [getElem?_put hr, if_neg hne, hl]
    · rcases hcases i q hq with rfl | hold
      · exact absurd hqpos (hqueued subject joined)
      · exact hlater i q subject joined hold hqpos

/-- What else changes does not matter. -/
theorem InterceptorInv.of_eq (hs : InterceptorInv s) (hrequests : t.requests = s.requests)
    (hflag : t.isRefreshing = s.isRefreshing) (hsubject : t.subject = s.subject) (hnow : t.now = s.now) :
    InterceptorInv t := by
  constructor
  · rw [hrequests]
    exact hs.sent
  · rw [hrequests, hnow]
    exact hs.timely
  · rw [hrequests, hflag, hsubject]
    exact hs.queued
  · rw [hrequests, hflag]
    exact hs.led

/-- No refresh is under way that requests wait for. -/
structure Calm (s : Interceptor) : Prop where
  /-- What holds in every run. -/
  inv : InterceptorInv s
  /-- The next 401 leads. -/
  idle : s.isRefreshing = false
  /-- No request is queued. -/
  free : ∀ r ∈ s.requests, r.isQueued = false

/-- **The end of a refresh leaves no request queued.** -/
theorem InterceptorInv.finish (hs : InterceptorInv s) {ok : Bool}
    (htoken : ok = true → s.accessToken.isSome = true) : Calm (s.finish ok) := by
  have hcases : ∀ (m : ℕ) (q : ApiRequest), (s.finish ok).requests[m]? = some q →
      ∃ p : ApiRequest, s.requests[m]? = some p ∧ p.notify s.accessToken s.subject ok = q := by
    intro m q hq
    unfold Interceptor.finish at hq
    rw [List.getElem?_map] at hq
    exact Option.map_eq_some_iff.mp hq
  have hnone : ∀ (m : ℕ) (q : ApiRequest) subject joined, (s.finish ok).requests[m]? = some q →
      q.pos ≠ .queued subject joined := by
    intro m q subject joined hq hpos
    obtain ⟨p, hp, rfl⟩ := hcases m q hq
    obtain ⟨hold, hne⟩ := ApiRequest.notify_queued hpos
    exact hne (hs.queued m p subject joined hp hold).2
  refine ⟨⟨fun m q hq => ?_, fun m q session started hq hpos => ?_, fun m q subject joined hq hpos => ?_, nofun⟩,
    rfl, fun q hq => ?_⟩
  · obtain ⟨p, hp, rfl⟩ := hcases m q hq
    exact (hs.sent m p hp).notify htoken
  · obtain ⟨p, hp, rfl⟩ := hcases m q hq
    exact hs.timely m p session started hp (ApiRequest.notify_refreshing.mp hpos)
  · exact absurd hpos (hnone m q subject joined hq)
  · obtain ⟨m, hm⟩ := List.mem_iff_getElem?.mp hq
    unfold ApiRequest.isQueued
    cases hpos : q.pos with
    | queued subject joined => exact absurd hpos (hnone m q subject joined hm)
    | _ => rfl

theorem Calm.logout (hs : Calm s) : Calm s.logout := ⟨hs.inv.of_eq rfl rfl rfl rfl, hs.idle, hs.free⟩

/-- Then any request may end or be sent again. -/
theorem Calm.put (hs : Calm s) (hn : n < s.requests.length) (hsent : r'.Sent)
    (hpos : (∃ outcome, r'.pos = .ended outcome) ∨ ∃ led, r'.pos = .retried led) : Calm (s.put n r') := by
  have hplain : (∀ session started, r'.pos ≠ .refreshing session started) ∧
      ∀ subject joined, r'.pos ≠ .queued subject joined := by
    rcases hpos with ⟨outcome, hpos⟩ | ⟨led, hpos⟩ <;> rw [hpos] <;> exact ⟨nofun, nofun⟩
  have hidle : s.isRefreshing = true → ∀ session started, s.requests[n].pos ≠ .refreshing session started := by
    rw [hs.idle]
    nofun
  refine ⟨hs.inv.put (List.getElem?_eq_getElem hn) hidle hsent hplain.1 hplain.2, hs.idle, fun q hq => ?_⟩
  rcases List.mem_or_eq_of_mem_set hq with hold | rfl
  · exact hs.free q hold
  · unfold ApiRequest.isQueued
    cases hq' : q.pos with
    | queued subject joined => exact absurd hq' (hplain.2 subject joined)
    | _ => rfl

theorem length_finish {ok : Bool} : (s.finish ok).requests.length = s.requests.length := List.length_map _

/-- The handler of a leader's errors. -/
theorem InterceptorInv.catchRefreshError (hs : InterceptorInv s) (hn : n < s.requests.length) (hr : r.Sent) :
    Calm (s.catchRefreshError n r) := by
  have hcalm : Calm (s.finish false) := hs.finish nofun
  exact hcalm.logout.put (hn.trans_eq length_finish.symm) (hr.ended .failed) (.inl ⟨.failed, rfl⟩)

/-- A leader goes on. -/
theorem InterceptorInv.lead (hs : InterceptorInv s) (hr : s.requests[n]? = some r) {session started : ℕ}
    (hpos : r.pos = .refreshing session started) {ok : Bool} (htoken : ok = true → s.accessToken.isSome = true) :
    Calm (s.lead n r ok) := by
  have hn : n < s.requests.length := (List.getElem?_eq_some_iff.mp hr).1
  have hsent := hs.sent n r hr
  unfold Interceptor.lead
  split_ifs with hok
  · have honce : ∃ first, r.headers = [first] := by
      unfold ApiRequest.Sent at hsent
      rw [hpos] at hsent
      exact hsent
    refine (hs.finish fun _ => htoken hok).put (hn.trans_eq length_finish.symm) ?_ (.inr ⟨true, rfl⟩)
    exact ApiRequest.Sent.retryWithNewToken honce (htoken hok) true
  · have hcalm : Calm (s.finish false) := hs.finish nofun
    exact hcalm.logout.inv.catchRefreshError (hn.trans_eq length_finish.symm) hsent

/-- A 401 has the request queued behind the leader, or makes it the leader. -/
theorem InterceptorInv.unauthorized (hs : InterceptorInv s) (hr : s.requests[n]? = some r) (hpos : r.pos = .sent) :
    InterceptorInv (s.unauthorized n r) := by
  have honce : ∃ first, r.headers = [first] := by
    have hsent := hs.sent n r hr
    unfold ApiRequest.Sent at hsent
    rw [hpos] at hsent
    exact hsent
  have hcases : ∀ (r' : ApiRequest) (m : ℕ) (q : ApiRequest), (s.put n r').requests[m]? = some q →
      (m = n ∧ q = r') ∨ (m ≠ n ∧ s.requests[m]? = some q) := by
    intro r' m q hq
    rw [getElem?_put hr] at hq
    split_ifs at hq with hm
    · exact .inl ⟨hm, (Option.some.inj hq).symm⟩
    · exact .inr ⟨hm, hq⟩
  unfold Interceptor.unauthorized
  split_ifs with hflag
  · refine ⟨fun m q hq => ?_, fun m q session started hq hq' => ?_, fun m q subject joined hq hq' => ?_, fun _ => ?_⟩
    · rcases hcases _ m q hq with ⟨-, rfl⟩ | ⟨-, hold⟩
      · exact honce
      · exact hs.sent m q hold
    · rcases hcases _ m q hq with ⟨-, rfl⟩ | ⟨-, hold⟩
      · cases hq'
      · exact hs.timely m q session started hold hq'
    · rcases hcases _ m q hq with ⟨-, rfl⟩ | ⟨-, hold⟩
      · cases hq'
        exact ⟨hflag, rfl⟩
      · exact hs.queued m q subject joined hold hq'
    · obtain ⟨m, l, session, started, hl, hlpos, hlater⟩ := hs.led hflag
      have hne : m ≠ n := by
        rintro rfl
        rw [hr] at hl
        cases hl
        rw [hpos] at hlpos
        cases hlpos
      refine ⟨m, l, session, started, by rw [getElem?_put hr, if_neg hne, hl], hlpos, fun i q subject joined hq hq' => ?_⟩
      rcases hcases _ i q hq with ⟨-, rfl⟩ | ⟨-, hold⟩
      · cases hq'
        exact (hs.timely m l session started hl hlpos).1
      · exact hlater i q subject joined hold hq'
  · have hnone : ∀ (m : ℕ) (q : ApiRequest) subject joined, s.requests[m]? = some q → q.pos ≠ .queued subject joined :=
      fun m q subject joined hq hq' => hflag (hs.queued m q subject joined hq hq').1
    refine ⟨fun m q hq => ?_, fun m q session started hq hq' => ?_, fun m q subject joined hq hq' => ?_, fun _ => ?_⟩
    · rcases hcases _ m q hq with ⟨-, rfl⟩ | ⟨-, hold⟩
      · exact honce
      · exact hs.sent m q hold
    · rcases hcases _ m q hq with ⟨-, rfl⟩ | ⟨-, hold⟩
      · cases hq'
        exact ⟨le_rfl, Nat.le_add_right _ _⟩
      · exact hs.timely m q session started hold hq'
    · rcases hcases _ m q hq with ⟨-, rfl⟩ | ⟨-, hold⟩
      · cases hq'
      · exact absurd hq' (hnone m q subject joined hold)
    · refine ⟨n, _, _, _, (getElem?_put hr n).trans (if_pos rfl), rfl, fun i q subject joined hq hq' => ?_⟩
      rcases hcases _ i q hq with ⟨-, rfl⟩ | ⟨-, hold⟩
      · cases hq'
      · exact absurd hq' (hnone i q subject joined hold)

/-- No caller of a leader unsubscribes, and a refresh that is due to time out does so before the time goes on. -/
def Serves (s : Interceptor) : InterceptorAct → Prop
  | .tick => ∀ r ∈ s.requests, ∀ d ∈ r.deadline, s.now < d
  | .cancel n => ∀ r ∈ s.requests[n]?, r.deadline = none
  | _ => True

instance : ∀ (s : Interceptor) (a : InterceptorAct), Decidable (Serves s a)
  | s, .tick => inferInstanceAs (Decidable (∀ r ∈ s.requests, ∀ d ∈ r.deadline, s.now < d))
  | s, .cancel n => inferInstanceAs (Decidable (∀ r ∈ s.requests[n]?, r.deadline = none))
  | _, .send _ | _, .reply _ _ | _, .settle _ _ | _, .expire _ | _, .clear | _, .signIn _ | _, .initSession =>
    .isTrue trivial

theorem awaits_iff {session : ℕ} : r.awaits session = true ↔ ∃ started, r.pos = .refreshing session started := by
  unfold ApiRequest.awaits
  cases hpos : r.pos <;> simp

/-- The answer to a request. -/
theorem InterceptorInv.answer (hs : InterceptorInv s) (hr : s.requests[n]? = some r) {reply : Reply}
    (h : s.answer n r reply = some t) : InterceptorInv t := by
  have hn : n < s.requests.length := (List.getElem?_eq_some_iff.mp hr).1
  have hend : ∀ outcome, (∀ session started, r.pos ≠ .refreshing session started) →
      InterceptorInv (s.put n { r with pos := .ended outcome }) := fun outcome hlead =>
    hs.put hr (fun _ => hlead) ((hs.sent n r hr).ended outcome) nofun nofun
  unfold Interceptor.answer at h
  cases hpos : r.pos with
  | sent =>
    rw [hpos] at h
    cases reply with
    | unauthorized =>
      cases h
      exact hs.unauthorized hr hpos
    | ok | failed =>
      cases h
      exact hend _ (by rw [hpos]; nofun)
  | retried led =>
    rw [hpos] at h
    cases led with
    | false =>
      cases reply <;> cases h <;> exact hend _ (by rw [hpos]; nofun)
    | true =>
      cases reply with
      | ok =>
        cases h
        exact hend _ (by rw [hpos]; nofun)
      | unauthorized | failed =>
        cases h
        exact (hs.catchRefreshError hn (hs.sent n r hr)).inv
  | queued _ _ | refreshing _ _ | ended =>
    rw [hpos] at h
    cases h

/-- A call of `refreshSession()` ends: who waits for it goes on. -/
theorem InterceptorInv.settle (hs : InterceptorInv s) {session : ℕ} {token : Option AccessToken}
    (h : s.settle session token = some t) :
    InterceptorInv t ∧ ((∃ r ∈ s.requests, r.awaits session = true) → Calm t) := by
  unfold Interceptor.settle at h
  split_ifs at h
  have hu : InterceptorInv { s with sessions := s.sessions.set session false, accessToken := token } :=
    hs.of_eq rfl rfl rfl rfl
  dsimp only at h
  split at h
  case h_1 hnone =>
    cases h
    refine ⟨hu, fun ⟨r, hr, hawaits⟩ => ?_⟩
    rw [List.findIdx?_eq_none_iff] at hnone
    exact absurd hawaits (by rw [hnone r hr]; exact Bool.false_ne_true)
  case h_2 n hfound =>
    obtain ⟨r, hr, rfl⟩ := Option.map_eq_some_iff.mp h
    obtain ⟨hn, hawaits, -⟩ := List.findIdx?_eq_some_iff_getElem.mp hfound
    rw [List.getElem?_eq_getElem hn] at hr
    cases hr
    obtain ⟨started, hpos⟩ := awaits_iff.mp hawaits
    have hcalm : Calm (Interceptor.lead _ n _ token.isSome) := hu.lead (List.getElem?_eq_getElem hn) hpos id
    exact ⟨hcalm.inv, fun _ => hcalm⟩

/-- One step of a run. -/
theorem InterceptorInv.step (hs : InterceptorInv s) {a : InterceptorAct} (h : s.apply apiBase a = some t)
    (hserves : Serves s a) : InterceptorInv t := by
  cases a with
  | send url =>
    obtain ⟨-, ht⟩ := Option.ite_none_right_eq_some.mp h
    cases ht
    have hcases : ∀ (m : ℕ) (q : ApiRequest), (s.requests ++ [⟨[s.accessToken], .sent⟩])[m]? = some q →
        s.requests[m]? = some q ∨ q = ⟨[s.accessToken], .sent⟩ := by
      intro m q hq
      rw [List.getElem?_append] at hq
      split_ifs at hq
      · exact .inl hq
      · exact .inr (List.mem_singleton.mp (List.mem_of_getElem? hq))
    refine ⟨fun m q hq => ?_, fun m q session started hq hpos => ?_, fun m q subject joined hq hpos => ?_, fun hflag => ?_⟩
    · rcases hcases m q hq with hold | rfl
      · exact hs.sent m q hold
      · exact ⟨_, rfl⟩
    · rcases hcases m q hq with hold | rfl
      · exact hs.timely m q session started hold hpos
      · cases hpos
    · rcases hcases m q hq with hold | rfl
      · exact hs.queued m q subject joined hold hpos
      · cases hpos
    · obtain ⟨m, l, session, started, hl, hpos, hlater⟩ := hs.led hflag
      refine ⟨m, l, session, started, List.getElem?_append_left (List.getElem?_eq_some_iff.mp hl).1 ▸ hl, hpos,
        fun i q subject joined hq hqpos => ?_⟩
      rcases hcases i q hq with hold | rfl
      · exact hlater i q subject joined hold hqpos
      · cases hqpos
  | reply n reply =>
    obtain ⟨r, hr, hanswer⟩ := Option.bind_eq_some_iff.mp h
    exact hs.answer hr hanswer
  | settle session token => exact (hs.settle h).1
  | expire n =>
    obtain ⟨r, hr, hdue⟩ := Option.bind_eq_some_iff.mp h
    split at hdue
    · cases hdue
    · split_ifs at hdue
      cases hdue
      exact (hs.catchRefreshError (List.getElem?_eq_some_iff.mp hr).1 (hs.sent n r hr)).inv
  | cancel n =>
    obtain ⟨r, hr, rfl⟩ := Option.map_eq_some_iff.mp h
    obtain ⟨outcome, hover⟩ := r.pos_unsubscribe
    refine hs.put hr (fun _ session started hpos => ?_) (hs.sent n r hr).unsubscribe (by rw [hover]; nofun)
      (by rw [hover]; nofun)
    have hnone : r.deadline = none := hserves r hr
    unfold ApiRequest.deadline at hnone
    rw [hpos] at hnone
    cases hnone
  | clear =>
    obtain ⟨-, ht⟩ := Option.ite_none_right_eq_some.mp h
    cases ht
    exact hs.of_eq rfl rfl rfl rfl
  | signIn token =>
    cases h
    exact hs.of_eq rfl rfl rfl rfl
  | initSession =>
    cases h
    exact hs.of_eq rfl rfl rfl rfl
  | tick =>
    cases h
    refine ⟨hs.sent, fun m q session started hq hpos => ?_, hs.queued, hs.led⟩
    have hdue : s.now < started + refreshTimeoutMs := by
      refine hserves q (List.mem_of_getElem? hq) _ ?_
      unfold ApiRequest.deadline
      rw [hpos]
      rfl
    exact ⟨Nat.le_succ_of_le (hs.timely m q session started hq hpos).1, hdue⟩

/-! ### The requests are served -/

/-- A refresh that requests may be waiting for ends. -/
def Interceptor.Ends (s : Interceptor) : InterceptorAct → Prop
  | .expire _ => True
  | .settle session _ => ∃ r ∈ s.requests, r.awaits session = true
  | _ => False

/-- What becomes of a queued request at the end of a refresh: it is sent again with the token that the refresh brings,
or its caller gets the 401. -/
def ApiRequest.letGo (r : ApiRequest) : InterceptorAct → ApiRequest
  | .settle _ (some token) => r.retryWithNewToken (some token) false
  | _ => r.withError

section
variable {m : ℕ} {q : ApiRequest} {subject joined : ℕ} {ok : Bool}

/-- All observers of the subject are notified. -/
theorem InterceptorInv.getElem?_finish (hs : InterceptorInv s) (hq : s.requests[m]? = some q)
    (hpos : q.pos = .queued subject joined) :
    (s.finish ok).requests[m]? = some (if ok then q.retryWithNewToken s.accessToken false else q.withError) := by
  have hsubject : q.pos = .queued s.subject joined := (hs.queued m q subject joined hq hpos).2 ▸ hpos
  unfold Interceptor.finish
  rw [List.getElem?_map, hq, Option.map_some, ApiRequest.notify_of_queued hsubject]

theorem InterceptorInv.getElem?_catchRefreshError (hs : InterceptorInv s) (hn : n < s.requests.length) (hne : m ≠ n)
    (hq : s.requests[m]? = some q) (hpos : q.pos = .queued subject joined) :
    (s.catchRefreshError n r).requests[m]? = some q.withError := by
  have hlt : n < (s.finish false).logout.requests.length := hn.trans_eq length_finish.symm
  unfold Interceptor.catchRefreshError
  rw [getElem?_put (List.getElem?_eq_getElem hlt), if_neg hne]
  exact hs.getElem?_finish hq hpos

theorem InterceptorInv.getElem?_lead (hs : InterceptorInv s) (hn : n < s.requests.length) (hne : m ≠ n)
    (hq : s.requests[m]? = some q) (hpos : q.pos = .queued subject joined) :
    (s.lead n r ok).requests[m]? = some (if ok then q.retryWithNewToken s.accessToken false else q.withError) := by
  have hlt : ∀ ok, n < (s.finish ok).requests.length := fun ok => hn.trans_eq length_finish.symm
  unfold Interceptor.lead
  split_ifs with hok
  · rw [getElem?_put (List.getElem?_eq_getElem (hlt true)), if_neg hne, hs.getElem?_finish hq hpos, if_pos rfl]
  · -- the second time there is none to notify
    have hlt' : n < ((s.finish false).logout.finish false).logout.requests.length :=
      (hlt false).trans_eq length_finish.symm
    have hover : ((s.finish false).logout.finish false).logout.requests[m]? = some q.withError := by
      change ((s.finish false).requests.map _)[m]? = _
      rw [List.getElem?_map, hs.getElem?_finish hq hpos, Option.map_some]
      exact congrArg some (ApiRequest.notify_of_not_queued rfl)
    unfold Interceptor.catchRefreshError
    rw [getElem?_put (List.getElem?_eq_getElem hlt'), if_neg hne, hover]

/-- **The end of a refresh lets every queued request go.** -/
theorem InterceptorInv.letGo (hs : InterceptorInv s) {a : InterceptorAct} (h : s.apply apiBase a = some t)
    (hends : s.Ends a) (hq : s.requests[m]? = some q) (hpos : q.pos = .queued subject joined) :
    t.requests[m]? = some (q.letGo a) := by
  cases a with
  | settle session token =>
    replace h : s.settle session token = some t := h
    unfold Interceptor.settle at h
    split_ifs at h
    have hu : InterceptorInv { s with sessions := s.sessions.set session false, accessToken := token } :=
      hs.of_eq rfl rfl rfl rfl
    dsimp only at h
    split at h
    case h_1 hnone =>
      obtain ⟨l, hl, hawaits⟩ := hends
      rw [List.findIdx?_eq_none_iff] at hnone
      exact absurd hawaits (by rw [hnone l hl]; exact Bool.false_ne_true)
    case h_2 n hfound =>
      obtain ⟨l, hl, rfl⟩ := Option.map_eq_some_iff.mp h
      obtain ⟨hn, hawaits, -⟩ := List.findIdx?_eq_some_iff_getElem.mp hfound
      have hne : m ≠ n := by
        rintro rfl
        obtain ⟨started, hleads⟩ := awaits_iff.mp hawaits
        rw [List.getElem?_eq_getElem hn, Option.some_inj] at hq
        rw [hq, hpos] at hleads
        cases hleads
      rw [hu.getElem?_lead hn hne hq hpos]
      cases token <;> rfl
  | expire n =>
    obtain ⟨l, hl, hdue⟩ := Option.bind_eq_some_iff.mp h
    split at hdue
    case h_1 => cases hdue
    case h_2 d hd =>
      split_ifs at hdue
      cases hdue
      have hne : m ≠ n := by
        rintro rfl
        rw [hq, Option.some_inj] at hl
        subst hl
        unfold ApiRequest.deadline at hd
        rw [hpos] at hd
        cases hd
      exact hs.getElem?_catchRefreshError (List.getElem?_eq_some_iff.mp hl).1 hne hq hpos
  | _ => cases hends

end

/-- What is claimed of the requests. -/
structure Served (apiBase : List Char) (s : Interceptor) : Prop where
  /-- A queued request awaits a refresh that was under way when it was queued. -/
  led : ∀ r ∈ s.requests, ∀ subject joined, r.pos = .queued subject joined →
    ∃ l ∈ s.requests, ∃ session started, l.pos = .refreshing session started ∧ started ≤ joined
  /-- It is not queued for longer than a refresh may last. -/
  prompt : ∀ r ∈ s.requests, ∀ subject joined, r.pos = .queued subject joined → s.now ≤ joined + refreshTimeoutMs
  /-- When a refresh ends with a token, every queued request is sent again with that token; when it ends without one or
  times out, the callers get the errors. -/
  letGo : ∀ a t, s.apply apiBase a = some t → s.Ends a → ∀ (n : ℕ) (r : ApiRequest) subject joined,
    s.requests[n]? = some r → r.pos = .queued subject joined → t.requests[n]? = some (r.letGo a)
  /-- No request stays queued then. -/
  released : ∀ a t, s.apply apiBase a = some t → s.Ends a → ∀ r ∈ t.requests, r.isQueued = false
  /-- A request is sent twice at most, and for the second time with a token. -/
  twice : ∀ r ∈ s.requests, ∃ first, r.headers = [first] ∨ ∃ token, r.headers = [first, some token]

theorem InterceptorInv.served (hs : InterceptorInv s) (apiBase : List Char) : Served apiBase s := by
  have hled : ∀ r ∈ s.requests, ∀ subject joined, r.pos = .queued subject joined →
      ∃ l ∈ s.requests, ∃ session started, l.pos = .refreshing session started ∧ started ≤ joined ∧
        s.now ≤ started + refreshTimeoutMs := by
    intro r hr subject joined hpos
    obtain ⟨n, hn⟩ := List.mem_iff_getElem?.mp hr
    obtain ⟨m, l, session, started, hl, hlpos, hlater⟩ := hs.led (hs.queued n r subject joined hn hpos).1
    exact ⟨l, List.mem_of_getElem? hl, session, started, hlpos, hlater n r subject joined hn hpos,
      (hs.timely m l session started hl hlpos).2⟩
  refine ⟨fun r hr subject joined hpos => ?_, fun r hr subject joined hpos => ?_,
    fun a t h hends m q subject joined hq hpos => hs.letGo h hends hq hpos, fun a t h hends => ?_, fun r hr => ?_⟩
  · obtain ⟨l, hl, session, started, hlpos, hle, -⟩ := hled r hr subject joined hpos
    exact ⟨l, hl, session, started, hlpos, hle⟩
  · obtain ⟨l, -, session, started, -, hle, hnow⟩ := hled r hr subject joined hpos
    exact hnow.trans (Nat.add_le_add_right hle _)
  · cases a with
    | settle session token => exact ((hs.settle h).2 hends).free
    | expire n =>
      obtain ⟨r, hr, hdue⟩ := Option.bind_eq_some_iff.mp h
      split at hdue
      · cases hdue
      · split_ifs at hdue
        cases hdue
        exact (hs.catchRefreshError (List.getElem?_eq_some_iff.mp hr).1 (hs.sent n r hr)).free
    | _ => cases hends
  · obtain ⟨n, hn⟩ := List.mem_iff_getElem?.mp hr
    have hsent := hs.sent n r hn
    unfold ApiRequest.Sent at hsent
    split at hsent
    case h_4 =>
      obtain ⟨first, token, htwice⟩ := hsent
      exact ⟨first, .inr ⟨token, htwice⟩⟩
    case h_5 =>
      rcases hsent with ⟨first, honce⟩ | ⟨first, token, htwice⟩
      · exact ⟨first, .inl honce⟩
      · exact ⟨first, .inr ⟨token, htwice⟩⟩
    all_goals
      obtain ⟨first, honce⟩ := hsent
      exact ⟨first, .inl honce⟩

/-- **No queued request is forgotten**: in every run in which no caller of a leader unsubscribes, a queued request
awaits a refresh that ends within fifteen seconds, and that sends it again with the new token or leaves it with its
error; no request is sent a third time. -/
theorem requests_served (h : Run (fun s a t => Interceptor.apply apiBase s a = some t) Serves {} s) :
    Served apiBase s :=
  (h.invariant InterceptorInv interceptorInv_init fun hstep hserves hs => hs.step hstep hserves).served apiBase

/-! ### One rotation at a time -/

/-- No refresh times out, none is started beside the interceptor, and the second try of a leader does not fail while
another refresh is under way. -/
def RefreshesAlone (s : Interceptor) : InterceptorAct → Prop
  | .expire _ | .initSession => False
  | .reply n reply => reply = .ok ∨ s.isRefreshing = false ∨ ∀ r ∈ s.requests[n]?, r.pos ≠ .retried true
  | _ => True

instance : ∀ (s : Interceptor) (a : InterceptorAct), Decidable (RefreshesAlone s a)
  | _, .expire _ | _, .initSession => .isFalse id
  | s, .reply n reply =>
    inferInstanceAs (Decidable (reply = .ok ∨ s.isRefreshing = false ∨ ∀ r ∈ s.requests[n]?, r.pos ≠ .retried true))
  | _, .send _ | _, .settle _ _ | _, .cancel _ | _, .clear | _, .signIn _ | _, .tick => .isTrue trivial

/-- At most one call of `refreshSession()` is waiting for its answer, and none where the next 401 leads. -/
structure RotationInv (s : Interceptor) : Prop where
  /-- One at most. -/
  one : s.sessions.count true ≤ 1
  /-- None. -/
  none : s.isRefreshing = false → s.sessions.count true = 0

theorem RotationInv.of_eq (hs : RotationInv s) (hsessions : t.sessions = s.sessions)
    (hflag : t.isRefreshing = s.isRefreshing) : RotationInv t :=
  ⟨hsessions ▸ hs.one, by rw [hsessions, hflag]; exact hs.none⟩

/-- None is waiting. -/
theorem RotationInv.of_none (hs : s.sessions.count true = 0) (hsessions : t.sessions = s.sessions) : RotationInv t :=
  ⟨by rw [hsessions, hs]; exact Nat.zero_le 1, fun _ => hsessions ▸ hs⟩

theorem sessions_lead {ok : Bool} : (s.lead n r ok).sessions = s.sessions := by
  unfold Interceptor.lead
  split_ifs <;> rfl

/-- A 401 that leads is the first. -/
theorem RotationInv.unauthorized (hs : RotationInv s) : RotationInv (s.unauthorized n r) := by
  unfold Interceptor.unauthorized
  split_ifs with hflag
  · exact hs.of_eq rfl rfl
  · have hnone := hs.none (Bool.eq_false_iff.mpr hflag)
    exact ⟨by simp [hnone], nofun⟩

/-- The answer to a request. -/
theorem RotationInv.answer (hs : RotationInv s) {reply : Reply} (h : s.answer n r reply = some t)
    (halone : reply = .ok ∨ s.isRefreshing = false ∨ r.pos ≠ .retried true) : RotationInv t := by
  unfold Interceptor.answer at h
  cases hpos : r.pos with
  | sent =>
    rw [hpos] at h
    cases reply with
    | unauthorized =>
      cases h
      exact hs.unauthorized
    | ok | failed =>
      cases h
      exact hs.of_eq rfl rfl
  | retried led =>
    rw [hpos] at h halone
    cases led with
    | false => cases reply <;> cases h <;> exact hs.of_eq rfl rfl
    | true =>
      cases reply with
      | ok =>
        cases h
        exact hs.of_eq rfl rfl
      | unauthorized | failed =>
        cases h
        obtain ⟨⟨⟩⟩ | hidle | hother := halone
        · exact .of_none (hs.none hidle) rfl
        · exact absurd rfl hother
  | queued _ _ | refreshing _ _ | ended =>
    rw [hpos] at h
    cases h

/-- The call that ends was the only one. -/
theorem RotationInv.settle (hs : RotationInv s) {session : ℕ} {token : Option AccessToken}
    (h : s.settle session token = some t) : RotationInv t := by
  unfold Interceptor.settle at h
  split_ifs at h with hwaiting
  obtain ⟨hlt, hget⟩ := List.getElem?_eq_some_iff.mp hwaiting
  have hnone : (s.sessions.set session false).count true = 0 := by
    have hone := hs.one
    rw [List.count_set hlt, hget]
    simp only [beq_self_eq_true, if_true, Bool.false_beq, Bool.not_true, Bool.false_eq_true, if_false]
    omega
  dsimp only at h
  split at h
  · cases h
    exact .of_none hnone rfl
  · obtain ⟨r, -, rfl⟩ := Option.map_eq_some_iff.mp h
    exact .of_none hnone sessions_lead

/-- One step of a run. -/
theorem RotationInv.step (hs : RotationInv s) {a : InterceptorAct} (h : s.apply apiBase a = some t)
    (halone : RefreshesAlone s a) : RotationInv t := by
  cases a with
  | send url =>
    obtain ⟨-, ht⟩ := Option.ite_none_right_eq_some.mp h
    cases ht
    exact hs.of_eq rfl rfl
  | reply n reply =>
    obtain ⟨r, hr, hanswer⟩ := Option.bind_eq_some_iff.mp h
    exact hs.answer hanswer (halone.imp_right (Or.imp_right fun hother => hother r hr))
  | settle session token => exact hs.settle h
  | expire n => exact absurd halone id
  | cancel n =>
    obtain ⟨r, hr, rfl⟩ := Option.map_eq_some_iff.mp h
    exact hs.of_eq rfl rfl
  | clear =>
    obtain ⟨-, ht⟩ := Option.ite_none_right_eq_some.mp h
    cases ht
    exact hs.of_eq rfl rfl
  | signIn token =>
    cases h
    exact hs.of_eq rfl rfl
  | initSession => exact absurd halone id
  | tick =>
    cases h
    exact hs.of_eq rfl rfl

/-- **One rotation at a time**: at most one call of `refreshSession()` is waiting for its answer, in every run in which
no refresh times out and no second try of a leader fails while another refresh is under way. -/
theorem one_rotation (h : Run (fun s a t => Interceptor.apply apiBase s a = some t) RefreshesAlone {} s) :
    s.sessions.count true ≤ 1 :=
  (h.invariant RotationInv ⟨Nat.zero_le 1, fun _ => rfl⟩ fun hstep halone hs => hs.step hstep halone).one

/-! ### Samples -/

/-- A request that is intercepted. -/
def getOrders : InterceptorAct := .send "/api/v1/orders/".toList

/-- Two requests are answered with 401, and the refresh brings a token. -/
def twoExpired : List InterceptorAct :=
  [.signIn "old", getOrders, getOrders, .reply 0 .unauthorized, .reply 1 .unauthorized, .tick, .settle 0 (some "new")]

example : (follow (Interceptor.apply "/api".toList) twoExpired {}).map Interceptor.requests =
    some [⟨[some "old", some "new"], .retried true⟩, ⟨[some "old", some "new"], .retried false⟩] := by decide +kernel

/-- They are served. -/
theorem requests_served_sample :
    ∃ s, follow (Interceptor.apply "/api".toList) twoExpired {} = some s ∧ Served "/api".toList s := by
  have hfollow : (follow (Interceptor.apply "/api".toList) twoExpired {}).isSome = true := by decide +kernel
  obtain ⟨s, hs⟩ := Option.isSome_iff_exists.mp hfollow
  exact ⟨s, hs, requests_served (run_of_follow hs (by decide +kernel))⟩

/-- There is one rotation. -/
theorem one_rotation_sample :
    ∃ s, follow (Interceptor.apply "/api".toList) twoExpired {} = some s ∧ s.sessions.count true ≤ 1 := by
  have hfollow : (follow (Interceptor.apply "/api".toList) twoExpired {}).isSome = true := by decide +kernel
  obtain ⟨s, hs⟩ := Option.isSome_iff_exists.mp hfollow
  exact ⟨s, hs, one_rotation (run_of_follow hs (by decide +kernel))⟩

/-- The caller of the leader unsubscribes, and a second request is answered with 401. -/
def abandoned : List InterceptorAct :=
  [getOrders, getOrders, .reply 0 .unauthorized, .cancel 0, .reply 1 .unauthorized]

/-- It is queued for nothing. -/
theorem not_requests_served :
    ¬ ∀ (apiBase : List Char) (s : Interceptor),
      Run (fun s a t => Interceptor.apply apiBase s a = some t) AnyStep {} s → Served apiBase s := by
  intro h
  obtain ⟨s, hs⟩ : ∃ s, follow (Interceptor.apply "/api".toList) abandoned {} = some s ∧
      s.requests = [⟨[none], .ended .unsubscribed⟩, ⟨[none], .queued 1 0⟩] := by decide +kernel
  obtain ⟨l, hl, session, started, hpos, -⟩ :=
    (h _ s (run_of_follow hs.1 (along_anyStep _ _))).led ⟨[none], .queued 1 0⟩ (by simp [hs.2]) 1 0 rfl
  simp only [hs.2, List.mem_cons, List.not_mem_nil, or_false] at hl
  rcases hl with rfl | rfl <;> cases hpos

/-- The second try of a leader fails while another request leads, and then a third one does. -/
def misled : List InterceptorAct :=
  [getOrders, .reply 0 .unauthorized, .settle 0 (some "new"), getOrders, .reply 1 .unauthorized, .reply 0 .failed,
    getOrders, .reply 2 .unauthorized]

/-- Two rotations are under way. -/
theorem not_one_rotation :
    ¬ ∀ (apiBase : List Char) (s : Interceptor),
      Run (fun s a t => Interceptor.apply apiBase s a = some t) AnyStep {} s → s.sessions.count true ≤ 1 := by
  intro h
  have hcount : (follow (Interceptor.apply "/api".toList) misled {}).map (fun s => s.sessions.count true) = some 2 := by
    decide +kernel
  obtain ⟨s, hs, htwo⟩ := Option.map_eq_some_iff.mp hcount
  have hone := h _ s (run_of_follow hs (along_anyStep _ _))
  omega

end StratTrader.Frontend
