import StratTrader.Brokers.Base
import StratTrader.Foundation.Runs
import StratTrader.Foundation.Table
import Mathlib.Data.List.Infix
import Mathlib.Tactic.SplitIfs

/-!
# Impersonation

`admin_portal/impersonation.py` and `users/authentication.py`: an administrator is given an access
token that makes every view see another user, and the authentication of each request sees to it that
nothing but reading comes of it. The session of the token is looked up with every request, so that
the token can be revoked.

## What is proved

* `impersonation_confined`: a request under such a token that reaches a view only reads, is not one
  of the administrators' views, and has called `emit` once, for the administrator who has started the
  session, with a token of his own, and for that user: its row is in the audit log unless it could not
  be written. No socket is opened with such a token.
* `stopped_for_good`: once a session has been stopped, or has expired, no request under its token is
  let through any more.

## Honest scope

A token cannot be forged: a request carries one that has been issued, or none. The check of the
second factor is its outcome, and so is the check of the body. The row of the session, its audit row
and its token are made in one step, and so are the end of a session and its audit row. The identifier
of a session is one that there has never been. What the views of a user do is left out, and so is the method
`OPTIONS`, which every view answers alike. The two views with `authentication_classes` of their own, of the sign-in
with Google and of TradeStation's callback, do not look at the token and are left out. Where a statement other than
those of `emit` fails, its request is taken to have stood still.
-/

namespace StratTrader.Admin

open StratTrader.Brokers StratTrader.Foundation

/-! ### Rows and tokens -/

/-- `User`, as authentication and the permissions read it. -/
structure Member where
  /-- The primary key, as text. -/
  id : UserId
  /-- `is_active`. -/
  isActive : Bool
  /-- `is_staff`. -/
  isStaff : Bool
  deriving DecidableEq

/-- The identifier of a session. -/
abbrev SessionId := String

/-- `ImpersonationSession`. -/
structure ImpersonationSession where
  /-- The primary key, as text. -/
  id : SessionId
  /-- The administrator. -/
  actor : UserId
  /-- The user who is impersonated. -/
  target : UserId
  /-- When it expires. -/
  expiresAt : ℕ
  /-- When it was stopped. -/
  endedAt : Option ℕ := none
  deriving DecidableEq

/-- `is_active`. -/
def ImpersonationSession.isActive (session : ImpersonationSession) (now : ℕ) : Bool :=
  session.endedAt.isNone && decide (now < session.expiresAt)

/-- A session with the time when it was stopped. -/
def ImpersonationSession.ended (session : ImpersonationSession) (now : ℕ) : ImpersonationSession :=
  { session with endedAt := some now }

/-- `IMPERSONATION_TTL_MINUTES`, in seconds. -/
def impersonationTtl : ℕ := 15 * 60

/-- `ACCESS_TOKEN_LIFETIME`, in seconds. -/
def accessTtl : ℕ := 15 * 60

/-- An access token. -/
structure AccessToken where
  /-- `user_id`. -/
  userId : UserId
  /-- `exp`. -/
  exp : ℕ
  /-- `session_id`, where its `purpose` is `"impersonation"`. -/
  session : Option SessionId
  deriving DecidableEq

/-! ### Requests -/

/-- The views, by who is let in. -/
inductive Route where
  /-- `AllowAny`. -/
  | anyone
  /-- `IsAuthenticatedAndMFAEnforced`, with the view's `mfa_required`. -/
  | member (mfaRequired : Bool)
  /-- `IsAdminAndMFAEnforced`, but for the two below. -/
  | admin
  /-- `AdminImpersonateStartView`: whom, whether the body is valid, and whether the code is right. -/
  | start (target : UserId) (valid mfaOk : Bool)
  /-- `AdminImpersonationStopView`. -/
  | stop (session : SessionId)
  deriving DecidableEq

/-- The views of `AdminBaseView`. -/
def Route.isAdmin : Route → Bool
  | anyone | member _ => false
  | admin | start _ _ _ | stop _ => true

/-- Where a request stands. -/
inductive RequestPos where
  /-- It has arrived. -/
  | sent
  /-- The user of an impersonation token is loaded. -/
  | loaded
  /-- The session is active, and the method is safe. -/
  | checked
  /-- It is authenticated. -/
  | authenticated
  /-- It is permitted. -/
  | permitted
  /-- `stop_session` has found the session not ended. -/
  | stopping
  /-- The view has answered. -/
  | handled (status : ℕ)
  /-- It has been refused before it reached the view. -/
  | refused (status : ℕ)
  deriving DecidableEq

/-- The view is reached. -/
def RequestPos.inView : RequestPos → Bool
  | permitted | stopping | handled _ => true
  | sent | loaded | checked | authenticated | refused _ => false

/-- A request. -/
structure PortalRequest where
  /-- Its token. -/
  token : Option AccessToken
  /-- Whether its method is one of `SAFE_METHODS`. -/
  isSafe : Bool
  /-- Its view. -/
  route : Route
  /-- `request.user`, unless it is anonymous. -/
  user : Option Member := none
  /-- `request.impersonation`. -/
  impersonation : Option ImpersonationSession := none
  /-- Where it stands. -/
  pos : RequestPos := .sent
  deriving DecidableEq

/-- A request goes on. -/
def PortalRequest.goTo (r : PortalRequest) (pos : RequestPos) : PortalRequest := { r with pos := pos }

/-- The user of a request is loaded. -/
def PortalRequest.withUser (r : PortalRequest) (user : Member) : PortalRequest := { r with user := some user }

/-- The session of a request is loaded. -/
def PortalRequest.withImpersonation (r : PortalRequest) (session : ImpersonationSession) : PortalRequest :=
  { r with impersonation := some session }

/-- The session that the token of a request is for. -/
def PortalRequest.session (r : PortalRequest) : Option SessionId := r.token.bind AccessToken.session

/-- A row of the audit log. -/
inductive PortalAudit where
  /-- `admin.impersonation_started`. -/
  | started (session : SessionId) (actor target : UserId)
  /-- `admin.impersonation_stopped`. -/
  | stopped (session : SessionId) (actor : UserId)
  /-- `admin.impersonated_read`, of the `request`-th request. -/
  | read (request : ℕ) (session : SessionId) (actor user : UserId)
  deriving DecidableEq

/-- A row about the reading of a request. -/
def PortalAudit.isReadOf (i : ℕ) : PortalAudit → Bool
  | read j _ _ _ => decide (j = i)
  | started _ _ _ | stopped _ _ => false

/-- A call of `emit`. -/
structure Emission where
  /-- The row that is to be written. -/
  row : PortalAudit
  /-- It has been written. Otherwise `emit` has returned `None`, and its caller has gone on. -/
  written : Bool
  deriving DecidableEq

/-- The database, the tokens that have been issued, and the requests. -/
structure Portal where
  /-- The time, in seconds. -/
  now : ℕ
  /-- The users. -/
  members : Table Member.id
  /-- `mfa_enabled`, of a user. -/
  mfaEnabled : UserId → Bool
  /-- The sessions. -/
  sessions : Table ImpersonationSession.id
  /-- The tokens that have been issued. -/
  tokens : List AccessToken
  /-- The requests. -/
  requests : List PortalRequest
  /-- The tokens that the sockets of the dashboard were opened with. -/
  sockets : List AccessToken
  /-- The calls of `emit`. -/
  emissions : List Emission

namespace Portal

/-- The rows that were to be written. -/
def emitted (s : Portal) : List PortalAudit := s.emissions.map Emission.row

/-- The audit log. -/
def audit (s : Portal) : List PortalAudit := (s.emissions.filter Emission.written).map Emission.row

/-- A request goes on. -/
def setRequest (s : Portal) (i : ℕ) (r : PortalRequest) : Portal := { s with requests := s.requests.set i r }

/-! ### Authentication and permission -/

/-- `JWTAuthentication.authenticate`. -/
def loadUser (s : Portal) (r : PortalRequest) : PortalRequest :=
  match r.token with
  | none => r.goTo .authenticated
  | some token =>
    if token.exp ≤ s.now then r.goTo (.refused 401)
    else match s.members.find? token.userId with
      | none => r.goTo (.refused 401)
      | some user =>
        if !user.isActive then r.goTo (.refused 401)
        else (r.withUser user).goTo (if token.session.isSome then .loaded else .authenticated)

/-- The session of the token, and the method. -/
def checkSession (s : Portal) (r : PortalRequest) : PortalRequest :=
  match r.session.bind s.sessions.find? with
  | none => r.goTo (.refused 401)
  | some session =>
    if !session.isActive s.now then r.goTo (.refused 401)
    else if r.isSafe then (r.withImpersonation session).goTo .checked
    else (r.withImpersonation session).goTo (.refused 403)

/-- `has_permission`: the status of the refusal, if it is refused. -/
def refusal (s : Portal) (r : PortalRequest) : Option ℕ :=
  match r.route, r.user with
  | .anyone, _ => none
  | .member _, none => some 401
  | .member mfaRequired, some user => if mfaRequired && !s.mfaEnabled user.id then some 403 else none
  | .admin, none | .start _ _ _, none | .stop _, none => some 401
  | .admin, some user | .start _ _ _, some user | .stop _, some user =>
    if r.impersonation.isSome || !user.isStaff || !s.mfaEnabled user.id then some 403 else none

/-- `check_permissions`. -/
def permit (s : Portal) (r : PortalRequest) : PortalRequest :=
  match s.refusal r with
  | none => r.goTo .permitted
  | some status => r.goTo (.refused status)

/-! ### The views -/

/-- No session has ever had the identifier. -/
def isFresh (s : Portal) (id : SessionId) : Bool :=
  (s.sessions.find? id).isNone && s.tokens.all fun token => decide (token.session ≠ some id)

/-- `start_session`, and the token that is minted. -/
def startSession (s : Portal) (id : SessionId) (actor target : UserId) (written : Bool) : Portal :=
  { s with
    sessions := s.sessions.put ⟨id, actor, target, s.now + impersonationTtl, none⟩
    tokens := s.tokens ++ [⟨target, s.now + impersonationTtl, some id⟩]
    emissions := s.emissions ++ [⟨.started id actor target, written⟩] }

/-- The view answers. -/
def answer (s : Portal) (i : ℕ) (r : PortalRequest) (status : ℕ) : Portal := s.setRequest i (r.goTo (.handled status))

/-- What a view does with the `i`-th request; `id` is the identifier that is made for a session, and `written` says
whether its `emit` succeeds. -/
def view (s : Portal) (i : ℕ) (r : PortalRequest) (id : SessionId) (written : Bool) : Option Portal :=
  match r.route, r.user with
  | .anyone, _ | .member _, _ | .admin, _ => some (s.answer i r 200)
  | .start target valid mfaOk, some user =>
    if r.isSafe then some (s.answer i r 405)
    else if !valid then some (s.answer i r 400)
    else if !mfaOk then some (s.answer i r 403)
    else if (s.members.find? target).isNone then some (s.answer i r 404)
    else if target = user.id then some (s.answer i r 400)
    else if s.isFresh id then some ((s.startSession id user.id target written).answer i r 200)
    else none
  | .stop session, some _ =>
    if r.isSafe then some (s.answer i r 405)
    else match s.sessions.find? session with
      | none => some (s.answer i r 404)
      | some row =>
        if row.endedAt.isSome then some (s.answer i r 200)
        else some (s.setRequest i (r.goTo .stopping))
  | .start _ _ _, none | .stop _, none => none

/-- `stop_session`, once it has found the session not ended: the row is saved, unless it is gone. -/
def endSession (s : Portal) (i : ℕ) (r : PortalRequest) (written : Bool) : Option Portal :=
  match r.route, r.user with
  | .stop session, some user =>
    if (s.sessions.find? session).isNone then some (s.answer i r 500)
    else
      let sessions := s.sessions.modify session fun row => row.ended s.now
      let emissions := s.emissions ++ [⟨.stopped session user.id, written⟩]
      some (answer { s with sessions := sessions, emissions := emissions } i r 200)
  | _, _ => none

/-! ### Steps -/

/-- `on_delete=CASCADE`, of the administrator and of the user who is impersonated. -/
def sessionsWithout (s : Portal) (user : UserId) : Table ImpersonationSession.id where
  rows := s.sessions.rows.filter fun row => decide (row.actor ≠ user ∧ row.target ≠ user)
  nodup := s.sessions.nodup.sublist (List.filter_sublist.map _)

/-- `DashboardConsumer.connect` accepts. -/
def opensSocket (s : Portal) (token : AccessToken) : Bool :=
  decide (s.now < token.exp) && token.session.isNone &&
    (s.members.find? token.userId).any Member.isActive && s.mfaEnabled token.userId

/-- The `i`-th request goes on, if it stands there. -/
def advance (s : Portal) (i : ℕ) (pos : RequestPos) (f : PortalRequest → Option Portal) : Option Portal :=
  match s.requests[i]? with
  | none => none
  | some r => if r.pos = pos then f r else none

end Portal

/-- What happens. -/
inductive PortalAct where
  /-- Time passes. -/
  | tick (seconds : ℕ)
  /-- A user is added, or changed. -/
  | putMember (member : Member)
  /-- A second factor is enrolled, or removed. -/
  | setMfa (user : UserId) (enabled : Bool)
  /-- A user is deleted, with the sessions. -/
  | deleteMember (user : UserId)
  /-- A user signs in. -/
  | login (user : UserId)
  /-- A request arrives. -/
  | send (token : Option AccessToken) (isSafe : Bool) (route : Route)
  /-- The user of a request is loaded. -/
  | load (i : ℕ)
  /-- The session of its token is checked. -/
  | check (i : ℕ)
  /-- Its reading is written to the audit log, or is not. -/
  | emit (i : ℕ) (written : Bool)
  /-- Its permission is checked. -/
  | permit (i : ℕ)
  /-- The view does its work. -/
  | view (i : ℕ) (id : SessionId) (written : Bool)
  /-- `stop_session` saves the row. -/
  | endSession (i : ℕ) (written : Bool)
  /-- A socket asks to be opened. -/
  | openSocket (token : AccessToken)

namespace Portal

/-- The state behind a step; `none` if it cannot be done. -/
def apply (s : Portal) : PortalAct → Option Portal
  | .tick seconds => some { s with now := s.now + seconds }
  | .putMember member => some { s with members := s.members.put member }
  | .setMfa user enabled => some { s with mfaEnabled := Function.update s.mfaEnabled user enabled }
  | .deleteMember user => some { s with members := s.members.erase user, sessions := s.sessionsWithout user }
  | .login user => some { s with tokens := s.tokens ++ [⟨user, s.now + accessTtl, none⟩] }
  | .send token isSafe route =>
    if token.all fun t => decide (t ∈ s.tokens) then
      some { s with requests := s.requests ++ [{ token := token, isSafe := isSafe, route := route }] }
    else none
  | .load i => s.advance i .sent fun r => some (s.setRequest i (s.loadUser r))
  | .check i => s.advance i .loaded fun r => some (s.setRequest i (s.checkSession r))
  | .emit i written => s.advance i .checked fun r =>
    match r.impersonation, r.user with
    | some session, some user =>
      some (setRequest { s with emissions := s.emissions ++ [⟨.read i session.id session.actor user.id, written⟩] } i
        (r.goTo .authenticated))
    | _, _ => none
  | .permit i => s.advance i .authenticated fun r => some (s.setRequest i (s.permit r))
  | .view i id written => s.advance i .permitted fun r => s.view i r id written
  | .endSession i written => s.advance i .stopping fun r => s.endSession i r written
  | .openSocket token =>
    if decide (token ∈ s.tokens) && s.opensSocket token then some { s with sockets := s.sockets ++ [token] } else none

/-! ### What holds of a request -/

/-- An active administrator has started a session for the user, with a token of his own and the right code, and
`emit` was to say so. -/
def StartedBy (s : Portal) (id : SessionId) (actor target : UserId) : Prop :=
  .started id actor target ∈ s.emitted ∧ actor ≠ target ∧
    ∃ (j : ℕ) (q : PortalRequest) (token : AccessToken) (user : Member), s.requests[j]? = some q ∧
      q.route = .start target true true ∧ q.pos = .handled 200 ∧ q.token = some token ∧ token.session = none ∧
      token.userId = actor ∧ q.user = some user ∧ user.id = actor ∧ user.isStaff = true ∧ user.isActive = true

end Portal

/-- The row about the reading of the `i`-th request that is to have been written by now. -/
def PortalRequest.reading (r : PortalRequest) (i : ℕ) : List PortalAudit :=
  match r.impersonation, r.user with
  | some session, some user =>
    if r.isSafe && decide (r.pos ≠ .checked) then [.read i session.id session.actor user.id] else []
  | some _, none | none, _ => []

/-- What holds of the `i`-th request. -/
structure RequestInv (s : Portal) (i : ℕ) (r : PortalRequest) : Prop where
  /-- Its token has been issued. -/
  token : ∀ token, r.token = some token → token ∈ s.tokens
  /-- Its user is the one of the token, and was active. -/
  user : ∀ user, r.user = some user → user.isActive = true ∧ ∃ token, r.token = some token ∧ token.userId = user.id
  /-- Its session is the one of the token, and its user is the one who is impersonated. -/
  impersonation : ∀ session, r.impersonation = some session → r.session = some session.id ∧
    s.StartedBy session.id session.actor session.target ∧ ∃ user, r.user = some user ∧ user.id = session.target
  /-- The session is not looked up before the check. -/
  unchecked : r.pos = .sent ∨ r.pos = .loaded → r.impersonation = none
  /-- The user is loaded before the check. -/
  loaded : r.pos = .loaded → r.user.isSome = true
  /-- Under an impersonation token only what is safe gets past the check. -/
  safe : r.session.isSome = true → (r.pos = .checked ∨ r.pos = .authenticated ∨ r.pos.inView = true) →
    r.isSafe = true ∧ r.impersonation.isSome = true
  /-- Only administrators get to their views, and under no impersonation token. -/
  admin : r.pos.inView = true → r.route.isAdmin = true →
    r.impersonation = none ∧ ∃ user, r.user = some user ∧ user.isStaff = true
  /-- Its reading has been emitted. -/
  read : s.emitted.filter (PortalAudit.isReadOf i) = r.reading i

/-- What holds of a state. -/
structure PortalInv (s : Portal) : Prop where
  /-- Of the requests. -/
  requests : ∀ (i : ℕ) (r : PortalRequest), s.requests[i]? = some r → RequestInv s i r
  /-- Every session has been started, and has a token. -/
  sessions : ∀ session ∈ s.sessions.rows, s.StartedBy session.id session.actor session.target ∧
    ∃ token ∈ s.tokens, token.session = some session.id
  /-- The token of a session is for the user who is impersonated. -/
  tokens : ∀ token ∈ s.tokens, ∀ session ∈ s.sessions.rows, token.session = some session.id →
    token.userId = session.target
  /-- Nothing has been read by requests that are still to come. -/
  later : ∀ i, s.requests.length ≤ i → s.emitted.filter (PortalAudit.isReadOf i) = []
  /-- No socket was opened with an impersonation token. -/
  sockets : ∀ token ∈ s.sockets, token.session = none

/-- A later state: tokens stay issued, and requests that are answered stay so. -/
structure Portal.Extends (s t : Portal) : Prop where
  /-- The tokens. -/
  tokens : ∀ token ∈ s.tokens, token ∈ t.tokens
  /-- What was to be written. -/
  emitted : ∀ row ∈ s.emitted, row ∈ t.emitted
  /-- The requests. -/
  handled : ∀ (j : ℕ) (q : PortalRequest) (status : ℕ), s.requests[j]? = some q → q.pos = .handled status →
    t.requests[j]? = some q

theorem Portal.StartedBy.extends {s t : Portal} {id : SessionId} {actor target : UserId}
    (h : s.StartedBy id actor target) (hext : s.Extends t) : t.StartedBy id actor target := by
  obtain ⟨haudit, hne, j, q, token, user, hq, hroute, hpos, hrest⟩ := h
  exact ⟨hext.emitted _ haudit, hne, j, q, token, user, hext.handled j q 200 hq hpos, hroute, hpos, hrest⟩

theorem RequestInv.extends {s t : Portal} {i : ℕ} {r : PortalRequest} (h : RequestInv s i r) (hext : s.Extends t)
    (hread : t.emitted.filter (PortalAudit.isReadOf i) = s.emitted.filter (PortalAudit.isReadOf i)) :
    RequestInv t i r where
  token token htoken := hext.tokens token (h.token token htoken)
  user := h.user
  impersonation session hsession :=
    have ⟨hid, hstarted, huser⟩ := h.impersonation session hsession
    ⟨hid, hstarted.extends hext, huser⟩
  unchecked := h.unchecked
  loaded := h.loaded
  safe := h.safe
  admin := h.admin
  read := hread.trans h.read

/-! ### One step -/

section
variable {s : Portal} {i : ℕ} {r u : PortalRequest}

/-- What is emitted comes behind what was. -/
theorem Portal.emitted_append (s : Portal) (rows : List Emission) :
    emitted { s with emissions := s.emissions ++ rows } = s.emitted ++ rows.map Emission.row := List.map_append

theorem Portal.extends_setRequest (hr : s.requests[i]? = some r) (hpos : ∀ status, r.pos ≠ .handled status)
    (rows : List Emission) : s.Extends (Portal.setRequest { s with emissions := s.emissions ++ rows } i u) := by
  refine ⟨fun _ h => h, fun _ h => (s.emitted_append rows).symm ▸ List.mem_append_left _ h, fun j q status hq hhandled => ?_⟩
  have hne : i ≠ j := by
    rintro rfl
    rw [hr] at hq
    exact hpos status (by rw [Option.some.inj hq, hhandled])
  rw [Portal.setRequest, List.getElem?_set_ne hne, hq]

/-- A request goes on, and emits rows that are about no other request. -/
theorem PortalInv.go (h : PortalInv s) (hr : s.requests[i]? = some r) (hpos : ∀ status, r.pos ≠ .handled status)
    (rows : List Emission) (hrows : ∀ j, j ≠ i → (rows.map Emission.row).filter (PortalAudit.isReadOf j) = [])
    (hinv : ∀ t, s.Extends t → t.emitted = s.emitted ++ rows.map Emission.row → RequestInv t i u) :
    PortalInv (Portal.setRequest { s with emissions := s.emissions ++ rows } i u) := by
  have hext := Portal.extends_setRequest (u := u) hr hpos rows
  have hemitted : (Portal.setRequest { s with emissions := s.emissions ++ rows } i u).emitted =
      s.emitted ++ rows.map Emission.row := s.emitted_append rows
  have hlt : i < s.requests.length := (List.getElem?_eq_some_iff.mp hr).1
  refine ⟨fun j q hq => ?_, fun session hsession => ?_, h.tokens, fun j hj => ?_, h.sockets⟩
  · by_cases hj : i = j
    · subst hj
      rw [Portal.setRequest, List.getElem?_set_self hlt] at hq
      rw [← Option.some.inj hq]
      exact hinv _ hext hemitted
    · rw [Portal.setRequest, List.getElem?_set_ne hj] at hq
      refine (h.requests j q hq).extends hext ?_
      rw [hemitted, List.filter_append, hrows j (Ne.symm hj), List.append_nil]
  · obtain ⟨hstarted, htoken⟩ := h.sessions session hsession
    exact ⟨hstarted.extends hext, htoken⟩
  · have hlen : s.requests.length ≤ j := by simpa [Portal.setRequest] using hj
    have hlt' : i < j := hlt.trans_le hlen
    rw [hemitted, List.filter_append, h.later j hlen, hrows j hlt'.ne', List.append_nil]

/-- A request goes on, and nothing else changes. -/
theorem PortalInv.goAlone (h : PortalInv s) (hr : s.requests[i]? = some r) (hpos : ∀ status, r.pos ≠ .handled status)
    (hinv : ∀ t, s.Extends t → t.emitted = s.emitted → RequestInv t i u) : PortalInv (s.setRequest i u) := by
  have hgo := h.go (u := u) hr hpos [] (fun _ _ => rfl) fun t hext hemitted =>
    hinv t hext (hemitted.trans (List.append_nil _))
  simpa [Portal.setRequest] using hgo

/-- Sessions are changed or deleted, but for who they are of. -/
theorem PortalInv.withSessions (h : PortalInv s) (sessions : Table ImpersonationSession.id)
    (hsessions : ∀ session ∈ sessions.rows, ∃ row ∈ s.sessions.rows,
      row.id = session.id ∧ row.actor = session.actor ∧ row.target = session.target) :
    PortalInv { s with sessions := sessions } := by
  have hext : s.Extends { s with sessions := sessions } := ⟨fun _ h => h, fun _ h => h, fun _ _ _ hq _ => hq⟩
  refine ⟨fun j q hq => (h.requests j q hq).extends hext rfl, fun session hmem => ?_,
    fun token htoken session hmem => ?_, h.later, h.sockets⟩
  · obtain ⟨row, hrow, hid, hactor, htarget⟩ := hsessions session hmem
    obtain ⟨hstarted, htoken⟩ := h.sessions row hrow
    rw [hid, hactor, htarget] at hstarted
    rw [hid] at htoken
    exact ⟨hstarted.extends hext, htoken⟩
  · obtain ⟨row, hrow, hid, -, htarget⟩ := hsessions session hmem
    rw [← hid, ← htarget]
    exact h.tokens token htoken row hrow

/-! ### What a request keeps -/

@[simp] theorem PortalRequest.token_goTo (r : PortalRequest) (pos : RequestPos) : (r.goTo pos).token = r.token := rfl
@[simp] theorem PortalRequest.isSafe_goTo (r : PortalRequest) (pos : RequestPos) : (r.goTo pos).isSafe = r.isSafe := rfl
@[simp] theorem PortalRequest.route_goTo (r : PortalRequest) (pos : RequestPos) : (r.goTo pos).route = r.route := rfl
@[simp] theorem PortalRequest.user_goTo (r : PortalRequest) (pos : RequestPos) : (r.goTo pos).user = r.user := rfl
@[simp] theorem PortalRequest.pos_goTo (r : PortalRequest) (pos : RequestPos) : (r.goTo pos).pos = pos := rfl
@[simp] theorem PortalRequest.impersonation_goTo (r : PortalRequest) (pos : RequestPos) :
    (r.goTo pos).impersonation = r.impersonation := rfl
@[simp] theorem PortalRequest.session_goTo (r : PortalRequest) (pos : RequestPos) : (r.goTo pos).session = r.session :=
  rfl

theorem PortalRequest.reading_goTo (hpos : r.pos ≠ .checked) {pos : RequestPos} (hpos' : pos ≠ .checked) :
    (r.goTo pos).reading i = r.reading i := by
  unfold PortalRequest.reading
  simp [hpos, hpos']

theorem PortalRequest.reading_of_none (h : r.impersonation = none) : r.reading i = [] := by
  unfold PortalRequest.reading
  rw [h]

/-- Before its session is checked, a request is refused, or goes on without one. -/
theorem RequestInv.withoutSession (h : RequestInv s i r) (himpersonation : r.impersonation = none) {pos : RequestPos}
    (hpos : pos.inView = false) (hloaded : pos = .loaded → r.user.isSome = true)
    (hsafe : r.session.isSome = true → pos ≠ .checked ∧ pos ≠ .authenticated) : RequestInv s i (r.goTo pos) where
  token := h.token
  user := h.user
  impersonation := h.impersonation
  unchecked _ := himpersonation
  loaded := hloaded
  safe hsession hpast := by
    obtain hpast | hpast | hpast := hpast
    · exact absurd hpast (hsafe hsession).1
    · exact absurd hpast (hsafe hsession).2
    · rw [PortalRequest.pos_goTo, hpos] at hpast
      cases hpast
  admin hview := by
    rw [PortalRequest.pos_goTo, hpos] at hview
    cases hview
  read := by
    have hnone : (r.goTo pos).impersonation = none := himpersonation
    rw [h.read, PortalRequest.reading_of_none himpersonation, PortalRequest.reading_of_none hnone]

/-- The user of a request is loaded. -/
theorem RequestInv.withUser (h : RequestInv s i r) (hpos : r.pos = .sent) {user : Member}
    (hactive : user.isActive = true) {token : AccessToken} (htoken : r.token = some token) (hid : token.userId = user.id) :
    RequestInv s i (r.withUser user) where
  token := h.token
  user other hother := by
    cases hother
    exact ⟨hactive, token, htoken, hid⟩
  impersonation session hsession := by
    have hnone := h.unchecked (.inl hpos)
    exact absurd (hnone.symm.trans hsession) nofun
  unchecked := h.unchecked
  loaded _ := rfl
  safe := h.safe
  admin hview := by
    change r.pos.inView = true at hview
    rw [hpos] at hview
    cases hview
  read := by
    have hnone := h.unchecked (.inl hpos)
    have hnone' : (r.withUser user).impersonation = none := hnone
    rw [h.read, PortalRequest.reading_of_none hnone, PortalRequest.reading_of_none hnone']

theorem RequestInv.loadUser (h : RequestInv s i r) (hpos : r.pos = .sent) (t : Portal) :
    RequestInv s i (t.loadUser r) := by
  have hnone := h.unchecked (.inl hpos)
  have hrefused : RequestInv s i (r.goTo (.refused 401)) :=
    h.withoutSession hnone rfl (fun hpos => by cases hpos) fun _ => ⟨by decide, by decide⟩
  unfold Portal.loadUser
  cases htoken : r.token with
  | none =>
    refine h.withoutSession hnone rfl (fun hpos => by cases hpos) fun hsession => ?_
    simp [PortalRequest.session, htoken] at hsession
  | some token =>
    by_cases hexp : token.exp ≤ t.now
    · simpa only [if_pos hexp] using hrefused
    · simp only [if_neg hexp]
      cases hfound : t.members.find? token.userId with
      | none => exact hrefused
      | some user =>
        dsimp only
        split_ifs with hactive hsession
        · exact hrefused
        · have huser := h.withUser hpos (by simpa using hactive) htoken (Table.key_of_find? hfound).symm
          exact huser.withoutSession hnone rfl (fun _ => rfl) fun _ => ⟨by decide, by decide⟩
        · have huser := h.withUser hpos (by simpa using hactive) htoken (Table.key_of_find? hfound).symm
          refine huser.withoutSession hnone rfl (fun hpos => by cases hpos) fun hsome => absurd ?_ hsession
          have hbind : (r.withUser user).session = token.session := by
            change r.token.bind AccessToken.session = token.session
            rw [htoken, Option.bind_some]
          rwa [hbind] at hsome

/-- The session of a request is looked up. -/
theorem RequestInv.checkSession (h : RequestInv s i r) (hpos : r.pos = .loaded) {t : Portal}
    (hsessions : ∀ session ∈ t.sessions.rows, s.StartedBy session.id session.actor session.target)
    (htokens : ∀ token ∈ s.tokens, ∀ session ∈ t.sessions.rows, token.session = some session.id →
      token.userId = session.target) :
    RequestInv s i (t.checkSession r) := by
  have hnone := h.unchecked (.inr hpos)
  have hrefused : RequestInv s i (r.goTo (.refused 401)) :=
    h.withoutSession hnone rfl nofun fun _ => ⟨nofun, nofun⟩
  unfold Portal.checkSession
  cases hfound : r.session.bind t.sessions.find? with
  | none => exact hrefused
  | some session =>
    obtain ⟨id, hid, hfind⟩ := Option.bind_eq_some_iff.mp hfound
    obtain ⟨token, htoken, hsession⟩ := Option.bind_eq_some_iff.mp hid
    have hkey : session.id = id := Table.key_of_find? hfind
    have hmem := Table.mem_of_find? hfind
    obtain ⟨user, huser⟩ := Option.isSome_iff_exists.mp (h.loaded hpos)
    have htarget : user.id = session.target := by
      obtain ⟨-, token', htoken', hid'⟩ := h.user user huser
      rw [htoken] at htoken'
      obtain rfl := Option.some.inj htoken'
      rw [← hid', htokens token (h.token token htoken) session hmem (by rw [hsession, hkey])]
    -- the request, with the session: it goes on if it is safe
    have hfields : ∀ pos : RequestPos, (pos = .checked ∧ r.isSafe = true) ∨ (pos = .refused 403 ∧ r.isSafe = false) →
        RequestInv s i ((r.withImpersonation session).goTo pos) := by
      intro pos hcase
      refine ⟨h.token, h.user, fun other hother => ?_, ?_, ?_, ?_, ?_, ?_⟩
      · cases hother
        exact ⟨hid.trans (congrArg some hkey.symm), hsessions session hmem, user, huser, htarget⟩
      · obtain ⟨rfl, -⟩ | ⟨rfl, -⟩ := hcase <;> rintro (hearly | hearly) <;> cases hearly
      · obtain ⟨rfl, -⟩ | ⟨rfl, -⟩ := hcase <;> exact nofun
      · obtain ⟨rfl, hsafe⟩ | ⟨rfl, -⟩ := hcase
        · exact fun _ _ => ⟨hsafe, rfl⟩
        · rintro - (hpast | hpast | hpast) <;> cases hpast
      · obtain ⟨rfl, -⟩ | ⟨rfl, -⟩ := hcase <;> exact nofun
      · rw [h.read, PortalRequest.reading_of_none hnone]
        obtain ⟨rfl, hsafe⟩ | ⟨rfl, hsafe⟩ := hcase <;>
          simp [PortalRequest.reading, PortalRequest.goTo, PortalRequest.withImpersonation, huser, hsafe]
    dsimp only
    split_ifs with hactive hsafe
    · exact hrefused
    · exact hfields .checked (.inl ⟨rfl, hsafe⟩)
    · exact hfields (.refused 403) (.inr ⟨rfl, by simpa using hsafe⟩)

/-- Who is let into a view of the administrators. -/
theorem Portal.refusal_eq_none (h : s.refusal r = none) (hadmin : r.route.isAdmin = true) :
    r.impersonation = none ∧ ∃ user, r.user = some user ∧ user.isStaff = true := by
  have hcase : ∀ user : Member, (if r.impersonation.isSome || !user.isStaff || !s.mfaEnabled user.id then some 403
      else (none : Option ℕ)) = none → r.impersonation = none ∧ user.isStaff = true := by
    intro user hif
    split_ifs at hif with hrefused
    simp only [Bool.or_eq_true, not_or, Option.not_isSome_iff_eq_none] at hrefused
    exact ⟨hrefused.1.1, by simpa using hrefused.1.2⟩
  unfold Portal.refusal at h
  cases hroute : r.route with
  | anyone => rw [hroute] at hadmin; cases hadmin
  | member mfaRequired => rw [hroute] at hadmin; cases hadmin
  | admin | start _ _ _ | stop _ =>
    cases huser : r.user with
    | none => simp [hroute, huser] at h
    | some user =>
      rw [hroute, huser] at h
      obtain ⟨hnone, hstaff⟩ := hcase user h
      exact ⟨hnone, user, rfl, hstaff⟩

theorem RequestInv.permit (h : RequestInv s i r) (hpos : r.pos = .authenticated) (t : Portal) :
    RequestInv s i (t.permit r) := by
  have hread : ∀ pos : RequestPos, pos ≠ .checked →
      s.emitted.filter (PortalAudit.isReadOf i) = (r.goTo pos).reading i := fun pos hne => by
    rw [h.read, PortalRequest.reading_goTo (by rw [hpos]; exact nofun) hne]
  unfold Portal.permit
  cases hrefusal : t.refusal r with
  | none =>
    exact ⟨h.token, h.user, h.impersonation, nofun, nofun, fun hsession _ => h.safe hsession (.inr (.inl hpos)),
      fun _ hadmin => Portal.refusal_eq_none hrefusal hadmin, hread _ nofun⟩
  | some status =>
    refine ⟨h.token, h.user, h.impersonation, nofun, nofun, fun _ hpast => ?_, nofun, hread _ nofun⟩
    obtain hpast | hpast | hpast := hpast <;> cases hpast

/-- A view goes on, or answers. -/
theorem RequestInv.inView (h : RequestInv s i r) (hpos : r.pos.inView = true) {pos : RequestPos}
    (hpos' : pos.inView = true) : RequestInv s i (r.goTo pos) := by
  have hne : ∀ {p : RequestPos}, p.inView = true → p ≠ .checked := by
    rintro p hp rfl
    cases hp
  refine ⟨h.token, h.user, h.impersonation, fun hearly => ?_, fun hloaded => ?_,
    fun hsession _ => h.safe hsession (.inr (.inr hpos)), fun _ hadmin => h.admin hpos hadmin, ?_⟩
  · obtain hearly | hearly := hearly <;> cases hearly <;> cases hpos'
  · cases hloaded
    cases hpos'
  · rw [h.read, PortalRequest.reading_goTo (hne hpos) (hne hpos')]

theorem Portal.advance_eq_some {pos : RequestPos} {f : PortalRequest → Option Portal} {t : Portal} :
    s.advance i pos f = some t ↔ ∃ r, s.requests[i]? = some r ∧ r.pos = pos ∧ f r = some t := by
  unfold Portal.advance
  cases hr : s.requests[i]? with
  | none => simp
  | some r =>
    by_cases hpos : r.pos = pos
    · simp [hpos]
    · simp only [Option.some.injEq, exists_eq_left', hpos, false_and]
      exact ⟨nofun, nofun⟩

/-- What a view does: it answers, starts a session, or has found one that it is to end. -/
theorem Portal.view_cases {id : SessionId} {written : Bool} {t : Portal} (h : s.view i r id written = some t) :
    (∃ status, t = s.answer i r status ∧
      (r.route.isAdmin = true → status = 200 → r.route = .admin ∨
        ∃ session row, r.route = .stop session ∧ s.sessions.find? session = some row ∧ row.endedAt.isSome = true)) ∨
    (∃ target user, r.route = .start target true true ∧ r.user = some user ∧ target ≠ user.id ∧ s.isFresh id = true ∧
      t = (s.answer i r 200).startSession id user.id target written) ∨
    ∃ session, r.route = .stop session ∧ t = s.setRequest i (r.goTo .stopping) := by
  unfold Portal.view at h
  cases hroute : r.route with
  | anyone | member _ =>
    simp only [hroute, Option.some.injEq] at h
    exact .inl ⟨200, h.symm, fun hadmin => by cases hadmin⟩
  | admin =>
    simp only [hroute, Option.some.injEq] at h
    exact .inl ⟨200, h.symm, fun _ _ => .inl rfl⟩
  | start target valid mfaOk =>
    cases huser : r.user with
    | none => simp [hroute, huser] at h
    | some user =>
      simp only [hroute, huser] at h
      split_ifs at h with hsafe hvalid hcode hgone hself hfresh <;> cases h
      · exact .inl ⟨405, rfl, fun _ hok => by cases hok⟩
      · exact .inl ⟨400, rfl, fun _ hok => by cases hok⟩
      · exact .inl ⟨403, rfl, fun _ hok => by cases hok⟩
      · exact .inl ⟨404, rfl, fun _ hok => by cases hok⟩
      · exact .inl ⟨400, rfl, fun _ hok => by cases hok⟩
      · obtain rfl : valid = true := by simpa using hvalid
        obtain rfl : mfaOk = true := by simpa using hcode
        exact .inr (.inl ⟨target, user, rfl, rfl, hself, hfresh, rfl⟩)
  | stop session =>
    cases huser : r.user with
    | none => simp [hroute, huser] at h
    | some user =>
      simp only [hroute, huser] at h
      split_ifs at h with hsafe
      · cases h
        exact .inl ⟨405, rfl, fun _ hok => by cases hok⟩
      · cases hfound : s.sessions.find? session with
        | none =>
          simp only [hfound, Option.some.injEq] at h
          exact .inl ⟨404, h.symm, fun _ hok => by cases hok⟩
        | some row =>
          simp only [hfound] at h
          split_ifs at h with hended <;> cases h
          · exact .inl ⟨200, rfl, fun _ _ => .inr ⟨session, row, rfl, hfound, hended⟩⟩
          · exact .inr (.inr ⟨session, rfl, rfl⟩)

/-- A session that is started is a new one, of the administrator whose request is answered. -/
theorem PortalInv.startSession (h : PortalInv s) {id : SessionId} {actor target : UserId} {written : Bool}
    (hfresh : s.isFresh id = true) (hstarted : (s.startSession id actor target written).StartedBy id actor target) :
    PortalInv (s.startSession id actor target written) := by
  have hemitted : (s.startSession id actor target written).emitted = s.emitted ++ [.started id actor target] :=
    s.emitted_append _
  have hext : s.Extends (s.startSession id actor target written) :=
    ⟨fun _ hmem => List.mem_append_left _ hmem, fun _ hmem => hemitted ▸ List.mem_append_left _ hmem,
      fun _ _ _ hq _ => hq⟩
  have hread : ∀ j, (s.startSession id actor target written).emitted.filter (PortalAudit.isReadOf j) =
      s.emitted.filter (PortalAudit.isReadOf j) := fun j => by
    simp [hemitted, PortalAudit.isReadOf]
  obtain ⟨hnone, hunused⟩ : s.sessions.find? id = none ∧ ∀ token ∈ s.tokens, token.session ≠ some id := by
    simpa [Portal.isFresh] using hfresh
  have hrows : (s.startSession id actor target written).sessions.rows =
      s.sessions.rows ++ [⟨id, actor, target, s.now + impersonationTtl, none⟩] := Table.rows_put_new hnone
  refine ⟨fun j q hq => (h.requests j q hq).extends hext (hread j), fun session hmem => ?_,
    fun token htoken session hmem hid => ?_, fun j hj => (hread j).trans (h.later j hj), h.sockets⟩
  · rw [hrows] at hmem
    obtain hmem | hmem := List.mem_append.mp hmem
    · obtain ⟨hold, token, htoken, hid⟩ := h.sessions session hmem
      exact ⟨hold.extends hext, token, List.mem_append_left _ htoken, hid⟩
    · obtain rfl := List.mem_singleton.mp hmem
      exact ⟨hstarted, _, List.mem_append_right _ (List.mem_singleton_self _), rfl⟩
  · rw [hrows] at hmem
    obtain htoken | htoken := List.mem_append.mp htoken <;> obtain hmem | hmem := List.mem_append.mp hmem
    · exact h.tokens token htoken session hmem hid
    · obtain rfl := List.mem_singleton.mp hmem
      exact absurd hid (hunused token htoken)
    · obtain rfl := List.mem_singleton.mp htoken
      exact absurd (Option.some.inj hid).symm (Table.find?_eq_none.mp hnone session hmem)
    · obtain rfl := List.mem_singleton.mp hmem
      obtain rfl := List.mem_singleton.mp htoken
      rfl

/-- The answer of a view. -/
theorem PortalInv.answer (h : PortalInv s) (hr : s.requests[i]? = some r) (hview : r.pos.inView = true)
    (hpos : ∀ status, r.pos ≠ .handled status) (status : ℕ) : PortalInv (s.answer i r status) :=
  h.goAlone hr hpos fun _ hext hemitted => ((h.requests i r hr).extends hext (congrArg _ hemitted)).inView hview rfl

theorem PortalInv.view (h : PortalInv s) (hr : s.requests[i]? = some r) (hpos : r.pos = .permitted) {id : SessionId}
    {written : Bool} {t : Portal} (hv : s.view i r id written = some t) : PortalInv t := by
  have hview : r.pos.inView = true := by rw [hpos]; rfl
  have hunhandled : ∀ status, r.pos ≠ .handled status := by rw [hpos]; exact nofun
  have hinv := h.requests i r hr
  obtain ⟨status, rfl, -⟩ | ⟨target, user, hroute, huser, hself, hfresh, rfl⟩ | ⟨session, -, rfl⟩ := Portal.view_cases hv
  · exact h.answer hr hview hunhandled status
  · refine (h.answer hr hview hunhandled 200).startSession hfresh ?_
    obtain ⟨hnone, admin, hadmin, hstaff⟩ := hinv.admin hview (by rw [hroute]; rfl)
    obtain rfl : user = admin := Option.some.inj (huser.symm.trans hadmin)
    obtain ⟨hactive, token, htoken, hid⟩ := hinv.user user huser
    have hsession : token.session = none := by
      cases hsome : token.session with
      | none => rfl
      | some session =>
        have hchecked := (hinv.safe (by simp [PortalRequest.session, htoken, hsome]) (.inr (.inr hview))).2
        rw [hnone] at hchecked
        cases hchecked
    have hlt : i < s.requests.length := (List.getElem?_eq_some_iff.mp hr).1
    have hemitted : ((s.answer i r 200).startSession id user.id target written).emitted =
        s.emitted ++ [.started id user.id target] := Portal.emitted_append _ _
    exact ⟨hemitted ▸ List.mem_append_right _ (List.mem_singleton_self _), hself.symm, i, r.goTo (.handled 200), token, user,
      List.getElem?_set_self hlt, hroute, rfl, htoken, hsession, hid, huser, rfl, hstaff, hactive⟩
  · exact h.goAlone hr hunhandled fun _ hext hemitted => (hinv.extends hext (congrArg _ hemitted)).inView hview rfl

theorem PortalInv.emit (h : PortalInv s) (hr : s.requests[i]? = some r) (hpos : r.pos = .checked)
    {session : ImpersonationSession} (hsession : r.impersonation = some session) {user : Member}
    (huser : r.user = some user) (written : Bool) :
    PortalInv (Portal.setRequest
      { s with emissions := s.emissions ++ [⟨.read i session.id session.actor user.id, written⟩] } i
      (r.goTo .authenticated)) := by
  have hinv := h.requests i r hr
  have hunhandled : ∀ status, r.pos ≠ .handled status := by rw [hpos]; exact nofun
  refine h.go hr hunhandled _ (fun j hj => by simp [PortalAudit.isReadOf, hj.symm]) fun t hext hemitted => ?_
  -- a request without an impersonation token has no session
  have hsafe : r.isSafe = true := by
    have hsome : r.session.isSome = true := by
      rw [(hinv.impersonation session hsession).1]
      rfl
    exact (hinv.safe hsome (.inl hpos)).1
  have hbefore : s.emitted.filter (PortalAudit.isReadOf i) = [] := by
    rw [hinv.read]
    simp [PortalRequest.reading, hsession, huser, hpos]
  refine ⟨fun token htoken => hext.tokens token (hinv.token token htoken), hinv.user, fun other hother => ?_, ?_, nofun,
    fun _ _ => ⟨hsafe, by simp [hsession]⟩, nofun, ?_⟩
  · obtain ⟨hid, hstarted, htarget⟩ := hinv.impersonation other hother
    exact ⟨hid, hstarted.extends hext, htarget⟩
  · rintro (hearly | hearly) <;> cases hearly
  · rw [hemitted, List.filter_append, hbefore]
    simp [PortalRequest.reading, PortalAudit.isReadOf, hsession, huser, hsafe]

/-- `stop_session` saves the row, or finds it gone. -/
theorem PortalInv.endSession (h : PortalInv s) (hr : s.requests[i]? = some r) (hpos : r.pos = .stopping) {t : Portal}
    {written : Bool} (he : s.endSession i r written = some t) : PortalInv t := by
  have hunhandled : ∀ status, r.pos ≠ .handled status := by rw [hpos]; exact nofun
  have hview : r.pos.inView = true := by rw [hpos]; rfl
  have hinv := h.requests i r hr
  unfold Portal.endSession at he
  cases hroute : r.route with
  | anyone | member _ | admin | start _ _ _ => simp [hroute] at he
  | stop session =>
    cases huser : r.user with
    | none => simp [hroute, huser] at he
    | some user =>
      simp only [hroute, huser] at he
      split_ifs at he <;> cases he
      · exact h.answer hr hview hunhandled 500
      · have hgo : PortalInv (Portal.setRequest
            { s with emissions := s.emissions ++ [⟨.stopped session user.id, written⟩] } i (r.goTo (.handled 200))) := by
          refine h.go hr hunhandled _ (fun _ _ => rfl) fun t hext hemitted => ?_
          refine (hinv.extends hext ?_).inView hview rfl
          simp [hemitted, PortalAudit.isReadOf]
        refine hgo.withSessions (s.sessions.modify session fun row => row.ended s.now)
          fun row hmem => ?_
        rw [Table.rows_modify _ _ fun row => (rfl : (row.ended s.now).id = row.id)] at hmem
        obtain ⟨old, hold, rfl⟩ := List.mem_map.mp hmem
        refine ⟨old, hold, ?_⟩
        split_ifs <;> exact ⟨rfl, rfl, rfl⟩

/-- Nothing is changed but users, the time, and tokens that are not for a session. -/
theorem PortalInv.frame {t : Portal} (h : PortalInv s) (hrequests : t.requests = s.requests)
    (hsessions : t.sessions = s.sessions) (hemissions : t.emissions = s.emissions) (hkept : ∀ token ∈ s.tokens, token ∈ t.tokens)
    (htokens : ∀ token ∈ t.tokens, token ∈ s.tokens ∨ token.session = none)
    (hsockets : ∀ token ∈ t.sockets, token.session = none) : PortalInv t := by
  have hemitted : t.emitted = s.emitted := congrArg (List.map Emission.row) hemissions
  have hext : s.Extends t :=
    ⟨hkept, fun _ hmem => by rwa [hemitted], fun _ _ _ hq _ => by rwa [hrequests]⟩
  refine ⟨fun j q hq => ?_, fun session hmem => ?_, fun token htoken session hmem hid => ?_, fun j hj => ?_, hsockets⟩
  · rw [hrequests] at hq
    exact (h.requests j q hq).extends hext (by rw [hemitted])
  · rw [hsessions] at hmem
    obtain ⟨hstarted, token, htoken, hid⟩ := h.sessions session hmem
    exact ⟨hstarted.extends hext, token, hkept token htoken, hid⟩
  · rw [hsessions] at hmem
    obtain htoken | hnone := htokens token htoken
    · exact h.tokens token htoken session hmem hid
    · rw [hnone] at hid
      cases hid
  · rw [hrequests] at hj
    rw [hemitted, h.later j hj]

/-- A request arrives, with a token that has been issued. -/
theorem PortalInv.send (h : PortalInv s) {token : Option AccessToken} (htoken : ∀ t, token = some t → t ∈ s.tokens)
    (isSafe : Bool) (route : Route) :
    PortalInv { s with requests := s.requests ++ [{ token := token, isSafe := isSafe, route := route }] } := by
  have hext : s.Extends { s with requests := s.requests ++ [{ token := token, isSafe := isSafe, route := route }] } :=
    ⟨fun _ hmem => hmem, fun _ hmem => hmem, fun j q _ hq _ => by
      rw [List.getElem?_append_left (List.getElem?_eq_some_iff.mp hq).1, hq]⟩
  refine ⟨fun j q hq => ?_, fun session hmem => ?_, h.tokens, fun j hj => ?_, h.sockets⟩
  · obtain hlt | hle := lt_or_ge j s.requests.length
    · rw [List.getElem?_append_left hlt] at hq
      exact (h.requests j q hq).extends hext rfl
    · rw [List.getElem?_append_right hle] at hq
      obtain rfl := List.mem_singleton.mp (List.mem_of_getElem? hq)
      refine ⟨htoken, nofun, nofun, fun _ => rfl, nofun, fun _ hpast => ?_, nofun, h.later j hle⟩
      obtain hpast | hpast | hpast := hpast <;> cases hpast
  · obtain ⟨hstarted, hissued⟩ := h.sessions session hmem
    exact ⟨hstarted.extends hext, hissued⟩
  · refine h.later j (le_trans ?_ hj)
    simp

theorem PortalInv.apply (h : PortalInv s) {a : PortalAct} {t : Portal} (hs : s.apply a = some t) : PortalInv t := by
  have hsame : ∀ token ∈ s.tokens, token ∈ s.tokens ∨ token.session = none := fun _ hmem => .inl hmem
  cases a with
  | tick _ | putMember _ | setMfa _ _ =>
    cases hs
    exact h.frame rfl rfl rfl (fun _ hmem => hmem) hsame h.sockets
  | deleteMember user =>
    cases hs
    have hsessions := h.withSessions (s.sessionsWithout user) fun row hmem =>
      ⟨row, (List.mem_filter.mp hmem).1, rfl, rfl, rfl⟩
    exact hsessions.frame rfl rfl rfl (fun _ hmem => hmem) hsame h.sockets
  | login user =>
    cases hs
    refine h.frame rfl rfl rfl (fun _ hmem => List.mem_append_left _ hmem) (fun token hmem => ?_) h.sockets
    obtain hmem | hmem := List.mem_append.mp hmem
    · exact .inl hmem
    · exact .inr (by rw [List.mem_singleton.mp hmem])
  | send token isSafe route =>
    simp only [Portal.apply] at hs
    split_ifs at hs with hissued
    cases hs
    refine h.send (fun t ht => ?_) isSafe route
    simpa [ht] using hissued
  | load i =>
    obtain ⟨r, hr, hpos, hgo⟩ := Portal.advance_eq_some.mp hs
    cases hgo
    refine h.goAlone hr (by rw [hpos]; exact nofun) fun t hext hemitted => ?_
    exact ((h.requests i r hr).extends hext (congrArg _ hemitted)).loadUser hpos s
  | check i =>
    obtain ⟨r, hr, hpos, hgo⟩ := Portal.advance_eq_some.mp hs
    cases hgo
    refine h.goAlone hr (by rw [hpos]; exact nofun) fun t hext hemitted => ?_
    have hchecked := (h.requests i r hr).checkSession hpos (fun session hmem => (h.sessions session hmem).1) h.tokens
    exact hchecked.extends hext (congrArg _ hemitted)
  | emit i written =>
    obtain ⟨r, hr, hpos, hgo⟩ := Portal.advance_eq_some.mp hs
    cases hsession : r.impersonation with
    | none => simp [hsession] at hgo
    | some session =>
      cases huser : r.user with
      | none => simp [hsession, huser] at hgo
      | some user =>
        simp only [hsession, huser, Option.some.injEq] at hgo
        rw [← hgo]
        exact h.emit hr hpos hsession huser written
  | permit i =>
    obtain ⟨r, hr, hpos, hgo⟩ := Portal.advance_eq_some.mp hs
    cases hgo
    refine h.goAlone hr (by rw [hpos]; exact nofun) fun t hext hemitted => ?_
    exact ((h.requests i r hr).extends hext (congrArg _ hemitted)).permit hpos s
  | view i id written =>
    obtain ⟨r, hr, hpos, hgo⟩ := Portal.advance_eq_some.mp hs
    exact h.view hr hpos hgo
  | endSession i written =>
    obtain ⟨r, hr, hpos, hgo⟩ := Portal.advance_eq_some.mp hs
    exact h.endSession hr hpos hgo
  | openSocket token =>
    simp only [Portal.apply] at hs
    split_ifs at hs with hopens
    cases hs
    refine h.frame rfl rfl rfl (fun _ hmem => hmem) hsame fun other hmem => ?_
    obtain hmem | hmem := List.mem_append.mp hmem
    · exact h.sockets other hmem
    · rw [List.mem_singleton.mp hmem]
      simp only [Portal.opensSocket, Bool.and_eq_true, Option.isNone_iff_eq_none] at hopens
      exact hopens.2.1.1.2

/-! ### Sessions that are over -/

/-- The session has been there, and is not active any more. -/
def Portal.IsOver (s : Portal) (id : SessionId) : Prop :=
  (∃ token ∈ s.tokens, token.session = some id) ∧
    ∀ session, s.sessions.find? id = some session → session.isActive s.now = false

/-- A session that has ended is not active. -/
theorem ImpersonationSession.isActive_of_ended {session : ImpersonationSession} (h : session.endedAt.isSome = true)
    (now : ℕ) : session.isActive now = false := by
  unfold ImpersonationSession.isActive
  rw [Option.isNone_eq_false_iff.mpr h, Bool.false_and]

/-- A session that is not active stays so. -/
theorem ImpersonationSession.isActive_later {session : ImpersonationSession} {now later : ℕ} (hle : now ≤ later)
    (h : session.isActive now = false) : session.isActive later = false := by
  simp only [ImpersonationSession.isActive, Bool.and_eq_false_iff, decide_eq_false_iff_not, not_lt] at h ⊢
  obtain hended | hexpired := h
  · exact .inl hended
  · exact .inr (hexpired.trans hle)

/-- A session that is over is refused. -/
theorem Portal.checkSession_of_isOver {id : SessionId} (hover : s.IsOver id) (hsession : r.session = some id) :
    s.checkSession r = r.goTo (.refused 401) := by
  unfold Portal.checkSession
  rw [hsession, Option.bind_some]
  cases hfound : s.sessions.find? id with
  | none => rfl
  | some session => simp [hover.2 session hfound]

theorem Portal.IsOver.later {t : Portal} {id : SessionId} (h : s.IsOver id) (hnow : s.now ≤ t.now)
    (htokens : ∀ token ∈ s.tokens, token ∈ t.tokens)
    (hsessions : ∀ session, t.sessions.find? id = some session →
      session.endedAt.isSome = true ∨ s.sessions.find? id = some session) : t.IsOver id := by
  obtain ⟨⟨token, htoken, hid⟩, hover⟩ := h
  refine ⟨⟨token, htokens token htoken, hid⟩, fun session hfound => ?_⟩
  obtain hended | hold := hsessions session hfound
  · exact ImpersonationSession.isActive_of_ended hended _
  · exact ImpersonationSession.isActive_later hnow (hover session hold)

/-- A session that is started is another one. -/
theorem Portal.IsOver.startSession {id other : SessionId} (h : s.IsOver id) (hfresh : s.isFresh other = true)
    (actor target : UserId) (written : Bool) : (s.startSession other actor target written).IsOver id := by
  refine h.later le_rfl (fun _ hmem => List.mem_append_left _ hmem) fun session hfound => .inr ?_
  obtain ⟨token, htoken, hid⟩ := h.1
  have hne : id ≠ other := by
    rintro rfl
    simp only [Portal.isFresh, Bool.and_eq_true, List.all_eq_true, decide_eq_true_eq] at hfresh
    exact hfresh.2 token htoken hid
  rw [Portal.startSession, Table.find?_put, if_neg hne] at hfound
  exact hfound

theorem Portal.IsOver.view {id other : SessionId} {written : Bool} (h : s.IsOver id) {t : Portal}
    (hv : s.view i r other written = some t) : t.IsOver id := by
  have hgo : ∀ u : PortalRequest, (s.setRequest i u).IsOver id := fun _ => h
  obtain ⟨status, rfl, -⟩ | ⟨target, user, -, -, -, hfresh, rfl⟩ | ⟨session, -, rfl⟩ := Portal.view_cases hv
  · exact hgo _
  · exact Portal.IsOver.startSession (hgo _) hfresh user.id target written
  · exact hgo _

/-- What `stop_session` does when it saves the row. -/
theorem Portal.endSession_cases {written : Bool} {t : Portal} (h : s.endSession i r written = some t) :
    ∃ session, r.route = .stop session ∧ (t = s.answer i r 500 ∨ ∃ user : Member,
      (s.sessions.find? session).isSome = true ∧ t = Portal.answer { s with
        sessions := s.sessions.modify session fun row => row.ended s.now
        emissions := s.emissions ++ [⟨.stopped session user.id, written⟩] } i r 200) := by
  unfold Portal.endSession at h
  cases hroute : r.route with
  | anyone | member _ | admin | start _ _ _ => simp [hroute] at h
  | stop session =>
    cases huser : r.user with
    | none => simp [hroute, huser] at h
    | some user =>
      simp only [hroute, huser] at h
      split_ifs at h with hgone <;> cases h
      · exact ⟨session, rfl, .inl rfl⟩
      · exact ⟨session, rfl, .inr ⟨user, by simpa [Option.isSome_iff_ne_none] using hgone, rfl⟩⟩

theorem Portal.IsOver.endSession {id : SessionId} {written : Bool} (h : s.IsOver id) {t : Portal}
    (he : s.endSession i r written = some t) : t.IsOver id := by
  obtain ⟨session, -, rfl | ⟨user, -, rfl⟩⟩ := Portal.endSession_cases he
  · exact h
  · refine h.later le_rfl (fun _ hmem => hmem) fun row hfound => ?_
    change (s.sessions.modify session _).find? id = some row at hfound
    rw [Table.find?_modify _ _ fun row => (rfl : (row.ended s.now).id = row.id)] at hfound
    split_ifs at hfound
    · obtain ⟨old, -, rfl⟩ := Option.map_eq_some_iff.mp hfound
      exact .inl rfl
    · exact .inr hfound

/-- What is over stays over. -/
theorem Portal.IsOver.apply {id : SessionId} (h : s.IsOver id) {a : PortalAct} {t : Portal} (hs : s.apply a = some t) :
    t.IsOver id := by
  cases a with
  | tick seconds =>
    cases hs
    exact h.later (Nat.le_add_right _ _) (fun _ hmem => hmem) fun _ => .inr
  | putMember _ | setMfa _ _ =>
    cases hs
    exact h
  | deleteMember user =>
    cases hs
    refine h.later le_rfl (fun _ hmem => hmem) fun session hfound => .inr ?_
    obtain ⟨hmem, hkey⟩ := Table.find?_eq_some.mp hfound
    exact Table.find?_eq_some.mpr ⟨(List.mem_filter.mp hmem).1, hkey⟩
  | login user =>
    cases hs
    exact h.later le_rfl (fun _ hmem => List.mem_append_left _ hmem) fun _ => .inr
  | send token isSafe route =>
    simp only [Portal.apply] at hs
    split_ifs at hs
    cases hs
    exact h
  | load i | check i | permit i =>
    obtain ⟨r, -, -, hgo⟩ := Portal.advance_eq_some.mp hs
    cases hgo
    exact h
  | emit i written =>
    obtain ⟨r, -, -, hgo⟩ := Portal.advance_eq_some.mp hs
    split at hgo <;> cases hgo
    exact h
  | view i other written =>
    obtain ⟨r, -, -, hgo⟩ := Portal.advance_eq_some.mp hs
    exact h.view hgo
  | endSession i written =>
    obtain ⟨r, -, -, hgo⟩ := Portal.advance_eq_some.mp hs
    exact h.endSession hgo
  | openSocket token =>
    simp only [Portal.apply] at hs
    split_ifs at hs
    cases hs
    exact h

/-- The `i`-th request is under a token of the session, and has found the session active. -/
def Portal.Admitted (s : Portal) (id : SessionId) (i : ℕ) : Prop :=
  ∃ r, s.requests[i]? = some r ∧ r.session = some id ∧ r.impersonation.isSome = true

theorem Portal.getElem?_set_cases {t : Portal} (ht : t.requests = s.requests.set i u) (hr : s.requests[i]? = some r)
    {j : ℕ} {q : PortalRequest} (hq : t.requests[j]? = some q) : (j = i ∧ q = u) ∨ s.requests[j]? = some q := by
  by_cases hj : i = j
  · subst hj
    rw [ht, List.getElem?_set_self (List.getElem?_eq_some_iff.mp hr).1] at hq
    exact .inl ⟨rfl, (Option.some.inj hq).symm⟩
  · rw [ht, List.getElem?_set_ne hj] at hq
    exact .inr hq

theorem Portal.Admitted.of_set {t : Portal} {id : SessionId} {j : ℕ} (h : t.Admitted id j)
    (ht : t.requests = s.requests.set i u) (hr : s.requests[i]? = some r) (htoken : u.token = r.token)
    (hsome : r.session = some id → u.impersonation.isSome = true → r.impersonation.isSome = true) :
    s.Admitted id j := by
  obtain ⟨q, hq, hsession, hadmitted⟩ := h
  obtain ⟨rfl, rfl⟩ | hq := Portal.getElem?_set_cases ht hr hq
  · have hid : r.session = some id := by
      rw [← hsession, PortalRequest.session, PortalRequest.session, htoken]
    exact ⟨r, hr, hid, hsome hid hadmitted⟩
  · exact ⟨q, hq, hsession, hadmitted⟩

theorem Portal.loadUser_keeps : (s.loadUser r).token = r.token ∧ (s.loadUser r).impersonation = r.impersonation := by
  unfold Portal.loadUser
  split
  · exact ⟨rfl, rfl⟩
  · split
    · exact ⟨rfl, rfl⟩
    · split
      · exact ⟨rfl, rfl⟩
      · split <;> exact ⟨rfl, rfl⟩

theorem Portal.token_checkSession : (s.checkSession r).token = r.token := by
  unfold Portal.checkSession
  split
  · rfl
  · split_ifs <;> rfl

theorem Portal.permit_keeps : (s.permit r).token = r.token ∧ (s.permit r).impersonation = r.impersonation := by
  unfold Portal.permit
  split <;> exact ⟨rfl, rfl⟩

/-- Once a session is over, no request is admitted for it any more. -/
theorem Portal.IsOver.admitted {id : SessionId} (h : s.IsOver id) {a : PortalAct} {t : Portal} (hs : s.apply a = some t)
    {j : ℕ} (hj : t.Admitted id j) : s.Admitted id j := by
  cases a with
  | tick _ | putMember _ | setMfa _ _ | deleteMember _ | login _ =>
    cases hs
    exact hj
  | send token isSafe route =>
    simp only [Portal.apply] at hs
    split_ifs at hs
    cases hs
    obtain ⟨q, hq, hsession, hadmitted⟩ := hj
    obtain hlt | hle := lt_or_ge j s.requests.length
    · rw [List.getElem?_append_left hlt] at hq
      exact ⟨q, hq, hsession, hadmitted⟩
    · rw [List.getElem?_append_right hle] at hq
      obtain rfl := List.mem_singleton.mp (List.mem_of_getElem? hq)
      cases hadmitted
  | load i =>
    obtain ⟨r, hr, -, hgo⟩ := Portal.advance_eq_some.mp hs
    cases hgo
    exact hj.of_set rfl hr Portal.loadUser_keeps.1 fun _ hsome => by rwa [← Portal.loadUser_keeps.2]
  | check i =>
    obtain ⟨r, hr, -, hgo⟩ := Portal.advance_eq_some.mp hs
    cases hgo
    refine hj.of_set rfl hr Portal.token_checkSession fun hid hsome => ?_
    rwa [Portal.checkSession_of_isOver h hid] at hsome
  | emit i written =>
    obtain ⟨r, hr, -, hgo⟩ := Portal.advance_eq_some.mp hs
    split at hgo <;> cases hgo
    exact hj.of_set rfl hr rfl fun _ hsome => hsome
  | permit i =>
    obtain ⟨r, hr, -, hgo⟩ := Portal.advance_eq_some.mp hs
    cases hgo
    exact hj.of_set rfl hr Portal.permit_keeps.1 fun _ hsome => by rwa [← Portal.permit_keeps.2]
  | view i other written =>
    obtain ⟨r, hr, -, hgo⟩ := Portal.advance_eq_some.mp hs
    obtain ⟨status, rfl, -⟩ | ⟨target, user, -, -, -, -, rfl⟩ | ⟨session, -, rfl⟩ := Portal.view_cases hgo <;>
      exact hj.of_set rfl hr rfl fun _ hsome => hsome
  | endSession i written =>
    obtain ⟨r, hr, -, hgo⟩ := Portal.advance_eq_some.mp hs
    obtain ⟨session, -, rfl | ⟨user, -, rfl⟩⟩ := Portal.endSession_cases hgo <;>
      exact hj.of_set rfl hr rfl fun _ hsome => hsome
  | openSocket token =>
    simp only [Portal.apply] at hs
    split_ifs at hs
    cases hs
    exact hj

/-! ### Sessions that have been stopped -/

/-- The sessions whose stop has been answered are over. -/
def Portal.StopsDone (s : Portal) : Prop :=
  ∀ (j : ℕ) (q : PortalRequest) (id : SessionId), s.requests[j]? = some q → q.route = .stop id → q.pos = .handled 200 →
    s.IsOver id

theorem Portal.StopsDone.of_set {t : Portal} (h : s.StopsDone) (hover : ∀ id, s.IsOver id → t.IsOver id)
    (ht : t.requests = s.requests.set i u) (hr : s.requests[i]? = some r)
    (hstop : ∀ id, u.route = .stop id → u.pos = .handled 200 → t.IsOver id) : t.StopsDone := by
  intro j q id hq hroute hpos
  obtain ⟨rfl, rfl⟩ | hq := Portal.getElem?_set_cases ht hr hq
  · exact hstop id hroute hpos
  · exact hover id (h j q id hq hroute hpos)

theorem Portal.loadUser_unhandled (status : ℕ) : (s.loadUser r).pos ≠ .handled status := by
  unfold Portal.loadUser
  split
  · exact fun hpos => by cases hpos
  · split
    · exact fun hpos => by cases hpos
    · split
      · exact fun hpos => by cases hpos
      · split
        · exact fun hpos => by cases hpos
        · dsimp only [PortalRequest.pos_goTo]
          split <;> exact fun hpos => by cases hpos

theorem Portal.checkSession_unhandled (status : ℕ) : (s.checkSession r).pos ≠ .handled status := by
  unfold Portal.checkSession
  split
  · exact nofun
  · split_ifs <;> exact nofun

theorem Portal.permit_unhandled (status : ℕ) : (s.permit r).pos ≠ .handled status := by
  unfold Portal.permit
  split <;> exact nofun

/-- A session that is in the table has been there. -/
theorem PortalInv.isOver (h : PortalInv s) {id : SessionId} {session : ImpersonationSession}
    (hfound : s.sessions.find? id = some session) (hactive : session.isActive s.now = false) : s.IsOver id := by
  obtain ⟨-, token, htoken, hid⟩ := h.sessions session (Table.mem_of_find? hfound)
  rw [show session.id = id from Table.key_of_find? hfound] at hid
  refine ⟨⟨token, htoken, hid⟩, fun other hother => ?_⟩
  rw [hfound] at hother
  rwa [← Option.some.inj hother]

theorem Portal.StopsDone.view (h : s.StopsDone) (hs : PortalInv s) (hr : s.requests[i]? = some r) {other : SessionId}
    {written : Bool} {t : Portal} (hv : s.view i r other written = some t) : t.StopsDone := by
  have hover : ∀ id, s.IsOver id → t.IsOver id := fun _ hid => hid.view hv
  obtain ⟨status, rfl, hended⟩ | ⟨target, user, hroute, -, -, -, rfl⟩ | ⟨session, -, rfl⟩ := Portal.view_cases hv
  · refine h.of_set hover rfl hr fun id hroute hpos => hover id ?_
    have hstop : r.route = .stop id := hroute
    obtain hadmin | ⟨session, row, hsession, hfound, hend⟩ :=
      hended (by rw [hstop]; rfl) (RequestPos.handled.inj hpos)
    · rw [hstop] at hadmin
      cases hadmin
    · rw [hstop] at hsession
      obtain rfl := Route.stop.inj hsession
      exact hs.isOver hfound (ImpersonationSession.isActive_of_ended hend _)
  · refine h.of_set hover rfl hr fun id hstop _ => ?_
    change r.route = .stop id at hstop
    rw [hroute] at hstop
    cases hstop
  · exact h.of_set hover rfl hr nofun

theorem Portal.StopsDone.endSession (h : s.StopsDone) (hs : PortalInv s) (hr : s.requests[i]? = some r) {written : Bool}
    {t : Portal} (he : s.endSession i r written = some t) : t.StopsDone := by
  have hover : ∀ id, s.IsOver id → t.IsOver id := fun _ hid => hid.endSession he
  obtain ⟨session, hroute, rfl | ⟨user, hsome, rfl⟩⟩ := Portal.endSession_cases he
  · refine h.of_set hover rfl hr fun _ _ hpos => ?_
    cases hpos
  · refine h.of_set hover rfl hr fun id hstop _ => ?_
    change r.route = .stop id at hstop
    rw [hroute] at hstop
    obtain rfl := Route.stop.inj hstop
    obtain ⟨row, hrow⟩ := Option.isSome_iff_exists.mp hsome
    obtain ⟨-, token, htoken, hid⟩ := hs.sessions row (Table.mem_of_find? hrow)
    rw [show row.id = session from Table.key_of_find? hrow] at hid
    refine ⟨⟨token, htoken, hid⟩, fun later hfound => ImpersonationSession.isActive_of_ended ?_ _⟩
    change (s.sessions.modify session _).find? session = some later at hfound
    rw [Table.find?_modify _ _ fun row => (rfl : (row.ended s.now).id = row.id), if_pos rfl, hrow] at hfound
    rw [← Option.some.inj hfound]
    rfl

theorem Portal.StopsDone.apply (h : s.StopsDone) (hs : PortalInv s) {a : PortalAct} {t : Portal}
    (ht : s.apply a = some t) : t.StopsDone := by
  have hover : ∀ id, s.IsOver id → t.IsOver id := fun _ hid => hid.apply ht
  cases a with
  | tick _ | putMember _ | setMfa _ _ | deleteMember _ | login _ =>
    cases ht
    exact fun j q id hq hroute hpos => hover id (h j q id hq hroute hpos)
  | send token isSafe route =>
    simp only [Portal.apply] at ht
    split_ifs at ht
    cases ht
    intro j q id hq hroute hpos
    obtain hlt | hle := lt_or_ge j s.requests.length
    · rw [List.getElem?_append_left hlt] at hq
      exact hover id (h j q id hq hroute hpos)
    · rw [List.getElem?_append_right hle] at hq
      obtain rfl := List.mem_singleton.mp (List.mem_of_getElem? hq)
      cases hpos
  | load i =>
    obtain ⟨r, hr, -, hgo⟩ := Portal.advance_eq_some.mp ht
    cases hgo
    exact h.of_set hover rfl hr fun _ _ hpos => absurd hpos (Portal.loadUser_unhandled 200)
  | check i =>
    obtain ⟨r, hr, -, hgo⟩ := Portal.advance_eq_some.mp ht
    cases hgo
    exact h.of_set hover rfl hr fun _ _ hpos => absurd hpos (Portal.checkSession_unhandled 200)
  | emit i written =>
    obtain ⟨r, hr, -, hgo⟩ := Portal.advance_eq_some.mp ht
    split at hgo <;> cases hgo
    exact h.of_set hover rfl hr nofun
  | permit i =>
    obtain ⟨r, hr, -, hgo⟩ := Portal.advance_eq_some.mp ht
    cases hgo
    exact h.of_set hover rfl hr fun _ _ hpos => absurd hpos (Portal.permit_unhandled 200)
  | view i other written =>
    obtain ⟨r, hr, -, hgo⟩ := Portal.advance_eq_some.mp ht
    exact h.view hs hr hgo
  | endSession i written =>
    obtain ⟨r, hr, -, hgo⟩ := Portal.advance_eq_some.mp ht
    exact h.endSession hs hr hgo
  | openSocket token =>
    simp only [Portal.apply] at ht
    split_ifs at ht
    cases ht
    exact fun j q id hq hroute hpos => hover id (h j q id hq hroute hpos)

end

/-! ### Runs -/

/-- The steps. -/
def Portal.Step (s : Portal) (a : PortalAct) (t : Portal) : Prop := s.apply a = some t

/-- No one has been impersonated, and nothing has been asked. -/
structure Portal.Initial (s : Portal) : Prop where
  /-- The sessions. -/
  sessions : s.sessions.rows = []
  /-- The tokens. -/
  tokens : ∀ token ∈ s.tokens, token.session = none
  /-- The requests. -/
  requests : s.requests = []
  /-- The sockets. -/
  sockets : s.sockets = []
  /-- The calls of `emit`. -/
  emissions : s.emissions = []

theorem PortalInv.initial {s : Portal} (h : s.Initial) : PortalInv s := by
  refine ⟨fun i r hr => ?_, fun session hmem => ?_, fun token _ session hmem => ?_, fun i _ => ?_, fun token hmem => ?_⟩
  · rw [h.requests] at hr
    cases hr
  · rw [h.sessions] at hmem
    cases hmem
  · rw [h.sessions] at hmem
    cases hmem
  · rw [Portal.emitted, h.emissions]
    rfl
  · rw [h.sockets] at hmem
    cases hmem

theorem PortalInv.run {s₀ s : Portal} (h₀ : s₀.Initial) (h : Run Portal.Step AnyStep s₀ s) :
    PortalInv s ∧ s.StopsDone := by
  refine h.invariant (fun s => PortalInv s ∧ s.StopsDone) ⟨.initial h₀, fun j q _ hq => ?_⟩
    fun hs _ ⟨hinv, hstops⟩ => ⟨hinv.apply hs, hstops.apply hinv hs⟩
  rw [h₀.requests] at hq
  cases hq

/-- The rows of the audit log among those that were to be written. -/
theorem Portal.filter_audit {s : Portal} {p : PortalAudit → Bool} {row : PortalAudit} (h : s.emitted.filter p = [row]) :
    ∃ written, s.emissions.filter (fun e => p e.row) = [⟨row, written⟩] ∧
      s.audit.filter p = if written then [row] else [] := by
  unfold Portal.emitted at h
  rw [List.filter_map, List.map_eq_singleton_iff] at h
  obtain ⟨⟨row', written⟩, hone, rfl⟩ := h
  refine ⟨written, hone, ?_⟩
  unfold Portal.audit
  rw [List.filter_map, List.filter_filter, List.filter_congr fun e _ => Bool.and_comm _ _, ← List.filter_filter, hone]
  cases written <;> rfl

/-- **A request under an impersonation token that reaches a view** only reads, is not one of the administrators'
views, and has called `emit` once: with a row of the administrator who has started the session, for the user whose data
it reads, which is in the audit log if it could be written. No socket is opened with such a token. -/
theorem impersonation_confined {s₀ s : Portal} (h₀ : s₀.Initial) (h : Run Portal.Step AnyStep s₀ s) :
    (∀ (i : ℕ) (r : PortalRequest), s.requests[i]? = some r → r.session.isSome = true → r.pos.inView = true →
      r.isSafe = true ∧ r.route.isAdmin = false ∧ ∃ (session : ImpersonationSession) (user : Member),
        r.session = some session.id ∧ r.user = some user ∧ user.id = session.target ∧
        s.StartedBy session.id session.actor session.target ∧
        ∃ written, s.emissions.filter (fun e => e.row.isReadOf i) =
            [⟨.read i session.id session.actor session.target, written⟩] ∧
          s.audit.filter (PortalAudit.isReadOf i) =
            if written then [.read i session.id session.actor session.target] else []) ∧
    ∀ token ∈ s.sockets, token.session = none := by
  obtain ⟨hinv, -⟩ := PortalInv.run h₀ h
  refine ⟨fun i r hr hsession hview => ?_, hinv.sockets⟩
  have hrequest := hinv.requests i r hr
  obtain ⟨hsafe, hchecked⟩ := hrequest.safe hsession (.inr (.inr hview))
  obtain ⟨session, hfound⟩ := Option.isSome_iff_exists.mp hchecked
  obtain ⟨hid, hstarted, user, huser, htarget⟩ := hrequest.impersonation session hfound
  refine ⟨hsafe, ?_, session, user, hid, huser, htarget, hstarted, Portal.filter_audit ?_⟩
  · rw [Bool.eq_false_iff]
    intro hadmin
    have hnone := (hrequest.admin hview hadmin).1
    rw [hnone] at hfound
    cases hfound
  · have hpast : r.pos ≠ .checked := by
      intro hpos
      rw [hpos] at hview
      cases hview
    rw [hrequest.read]
    simp [PortalRequest.reading, hfound, huser, hsafe, hpast, htarget]

/-- **Once a session is over**, because its stop has been answered, it has expired, or it is gone with one of the two
users, no request under its token is let through: one that reaches a view had found the session active before. -/
theorem stopped_for_good {s₀ s t : Portal} (h₀ : s₀.Initial) (h : Run Portal.Step AnyStep s₀ s) {id : SessionId}
    (hover : (∃ (j : ℕ) (q : PortalRequest), s.requests[j]? = some q ∧ q.route = .stop id ∧ q.pos = .handled 200) ∨
      (∃ session, s.sessions.find? id = some session ∧ session.expiresAt ≤ s.now) ∨
      (s.sessions.find? id = none ∧ ∃ token ∈ s.tokens, token.session = some id))
    (h' : Run Portal.Step AnyStep s t) {i : ℕ} {r : PortalRequest} (hr : t.requests[i]? = some r)
    (hsession : r.session = some id) (hview : r.pos.inView = true) :
    ∃ q, s.requests[i]? = some q ∧ q.session = some id ∧ q.impersonation.isSome = true := by
  obtain ⟨hinv, hstops⟩ := PortalInv.run h₀ h
  have hisOver : s.IsOver id := by
    obtain ⟨j, q, hq, hroute, hpos⟩ | ⟨session, hfound, hexpired⟩ | ⟨hgone, htoken⟩ := hover
    · exact hstops j q id hq hroute hpos
    · refine hinv.isOver hfound ?_
      simp [ImpersonationSession.isActive, hexpired]
    · refine ⟨htoken, fun session hfound => ?_⟩
      rw [hgone] at hfound
      cases hfound
  have hkept : t.IsOver id ∧ ∀ j, t.Admitted id j → s.Admitted id j :=
    h'.invariant (fun t => t.IsOver id ∧ ∀ j, t.Admitted id j → s.Admitted id j) ⟨hisOver, fun _ hj => hj⟩
      fun hs _ ⟨hu, hback⟩ => ⟨hu.apply hs, fun j hj => hback j (hu.admitted hs hj)⟩
  have hend : PortalInv t :=
    h'.invariant PortalInv hinv fun hs _ hu => hu.apply hs
  have hchecked := ((hend.requests i r hr).safe (by rw [hsession]; rfl) (.inr (.inr hview))).2
  exact hkept.2 i ⟨r, hr, hsession, hchecked⟩

/-! ### Samples -/

/-- An administrator and a user. -/
def samplePortal : Portal where
  now := 0
  members := (Table.empty.put ⟨"admin", true, true⟩).put ⟨"user", true, false⟩
  mfaEnabled id := decide (id = "admin")
  sessions := .empty
  tokens := []
  requests := []
  sockets := []
  emissions := []

theorem samplePortal_initial : samplePortal.Initial := ⟨rfl, nofun, rfl, rfl, rfl⟩

/-- The administrator starts a session, and a request with its token has loaded its user. -/
def sampleStart : List PortalAct :=
  [.login "admin", .send (some ⟨"admin", 900, none⟩) false (.start "user" true true), .load 0, .permit 0,
    .view 0 "s" true,
    .send (some ⟨"user", 900, some "s"⟩) true (.member false), .load 1]

/-- It reads, and so does another one, whose row cannot be written. -/
def sampleRead : List PortalAct :=
  [.check 1, .emit 1 true, .permit 1, .view 1 "" true, .send (some ⟨"user", 900, some "s"⟩) true (.member false),
    .load 2, .check 2, .emit 2 false, .permit 2, .view 2 "" true]

example : (follow Portal.apply (sampleStart ++ sampleRead) samplePortal).map (fun s => (s.emitted.length, s.audit)) =
    some (3, [.started "s" "admin" "user", .read 1 "s" "admin" "user"]) := by decide +kernel

/-- The session is stopped, while another request is permitted. -/
def sampleStop : List PortalAct :=
  [.check 1, .emit 1 true, .permit 1, .send (some ⟨"admin", 900, none⟩) false (.stop "s"), .load 2, .permit 2,
    .view 2 "" true, .endSession 2 true]

theorem impersonation_confined_sample :
    ∃ (s : Portal) (r : PortalRequest), follow Portal.apply (sampleStart ++ sampleRead) samplePortal = some s ∧
      s.requests[1]? = some r ∧ r.isSafe = true ∧ r.route.isAdmin = false ∧
      ∃ (session : ImpersonationSession) (user : Member),
        r.session = some session.id ∧ r.user = some user ∧ user.id = session.target ∧
        s.StartedBy session.id session.actor session.target ∧
        ∃ written, s.emissions.filter (fun e => e.row.isReadOf 1) =
            [⟨.read 1 session.id session.actor session.target, written⟩] ∧
          s.audit.filter (PortalAudit.isReadOf 1) =
            if written then [.read 1 session.id session.actor session.target] else [] := by
  obtain ⟨s, hs⟩ : ∃ s, follow Portal.apply (sampleStart ++ sampleRead) samplePortal = some s := ⟨_, rfl⟩
  obtain ⟨r, hr, hsession, hview⟩ :
      ∃ r, s.requests[1]? = some r ∧ r.session.isSome = true ∧ r.pos.inView = true := by
    cases hs
    exact ⟨_, rfl, rfl, rfl⟩
  exact ⟨s, r, hs, hr,
    (impersonation_confined samplePortal_initial (run_of_follow hs (along_anyStep _ _))).1 1 r hr hsession hview⟩

/-- The request that was permitted goes on when the session has been stopped. -/
theorem stopped_for_good_sample :
    ∃ (s t : Portal) (r : PortalRequest), follow Portal.apply (sampleStart ++ sampleStop) samplePortal = some s ∧
      follow Portal.apply [.tick 10, .view 1 "" true] s = some t ∧ t.requests[1]? = some r ∧ r.pos = .handled 200 ∧
      ∃ q, s.requests[1]? = some q ∧ q.session = some "s" ∧ q.impersonation.isSome = true := by
  obtain ⟨s, hs⟩ : ∃ s, follow Portal.apply (sampleStart ++ sampleStop) samplePortal = some s := ⟨_, rfl⟩
  obtain ⟨t, ht⟩ : ∃ t, follow Portal.apply [.tick 10, .view 1 "" true] s = some t := by
    cases hs
    exact ⟨_, rfl⟩
  have hstopped :
      ∃ (j : ℕ) (q : PortalRequest), s.requests[j]? = some q ∧ q.route = .stop "s" ∧ q.pos = .handled 200 := by
    cases hs
    exact ⟨2, _, rfl, rfl, rfl⟩
  obtain ⟨r, hr, hsession, hpos⟩ : ∃ r, t.requests[1]? = some r ∧ r.session = some "s" ∧ r.pos = .handled 200 := by
    cases hs
    cases ht
    exact ⟨_, rfl, rfl, rfl⟩
  exact ⟨s, t, r, hs, ht, hr, hpos, stopped_for_good samplePortal_initial (run_of_follow hs (along_anyStep _ _))
    (.inl hstopped) (run_of_follow ht (along_anyStep _ _)) hr hsession (by rw [hpos]; rfl)⟩

end StratTrader.Admin
