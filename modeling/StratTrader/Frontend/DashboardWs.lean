import StratTrader.Frontend.RefreshInterceptor
import Mathlib.Data.List.Infix

/-!
# The live feed

`core/services/ws.service.ts` keeps one socket for the shell, the dashboard and a backtest's page, which attach
through `DashboardFacade` and `BacktestFacade`. The socket is counted: it is closed when the last facade detaches,
and opened again, with a delay that doubles, when the server closes it.

## What is proved

* `feed_contained`: in every run, at most one socket is connecting or open and it is the service's own, at most one
  heartbeat and one reconnection are scheduled and the service holds both, a delay is between one second and thirty,
  there are at most as many references as facades that are subscribed, and without a reference nothing is left.
* `feed_alive`: from any state in which no component is mounted, and until one leaves whose facade another one uses,
  or the session ends, the feed of the mounted components comes back whenever it is down.
* `heartbeat_kept`: as long as no socket is opened while another one is closing, an open socket has its heartbeat.
* `not_feed_alive`, `not_heartbeat_kept`: neither holds of all runs. The dashboard's page is mounted inside the
  shell and shares its facade, so leaving the page detaches the shell.

## Honest scope

A step is a task of the event loop. Frames and what the facades make of them are left out, and so is the guard for
rendering on the server. An `onerror` handler only closes its socket, as a closing handshake does.
-/

namespace StratTrader.Frontend

open StratTrader.Foundation

/-! ### The browser -/

/-- `WebSocket.readyState`. -/
inductive ReadyState where
  /-- `CONNECTING`. -/
  | connecting
  /-- `OPEN`. -/
  | opened
  /-- `CLOSING`. -/
  | closing
  /-- `CLOSED`. -/
  | closed
  deriving DecidableEq

/-- A `WebSocket` that the service has opened. -/
structure WebSocket where
  /-- Its state. -/
  readyState : ReadyState
  /-- The token in its subprotocol. -/
  token : AccessToken
  /-- Its `onclose` handler is set. -/
  onclose : Bool
  deriving DecidableEq

namespace WebSocket

/-- It is open, or will be. -/
def live (w : WebSocket) : Bool := w.readyState = .opened || w.readyState = .connecting

/-- `close()`. -/
def close (w : WebSocket) : WebSocket := if w.live then { w with readyState := .closing } else w

@[simp] theorem live_close (w : WebSocket) : w.close.live = false := by
  unfold close
  split_ifs with h
  · rfl
  · exact Bool.eq_false_iff.mpr h

@[simp] theorem onclose_close (w : WebSocket) : w.close.onclose = w.onclose := by
  unfold close
  split_ifs <;> rfl

end WebSocket

/-- The service, and the browser's timers and sockets. -/
structure DashboardWs where
  /-- The sockets ever opened. -/
  sockets : List WebSocket := []
  /-- `socket`. -/
  socket : Option ℕ := none
  /-- `heartbeatTimer`. -/
  heartbeatTimer : Option ℕ := none
  /-- `reconnectTimer`. -/
  reconnectTimer : Option ℕ := none
  /-- `reconnectAttempts`. -/
  reconnectAttempts : ℕ := 0
  /-- `closedByClient`. -/
  closedByClient : Bool := false
  /-- `refs`. -/
  refs : ℕ := 0
  /-- `connected`. -/
  connected : Bool := false
  /-- The intervals that run. -/
  intervals : List ℕ := []
  /-- The timeouts that are pending, with their delays. -/
  timeouts : List (ℕ × ℕ) := []
  /-- The number of the next timer. -/
  timer : ℕ := 0
  /-- `AuthStore.accessToken`. -/
  accessToken : Option AccessToken := none
  deriving DecidableEq

/-- `MAX_BACKOFF_MS`. -/
def maxBackoffMs : ℕ := 30000

/-- The delay before an attempt. -/
def reconnectDelay (attempts : ℕ) : ℕ := min maxBackoffMs (1000 * Nat.pow 2 attempts)

theorem reconnectDelay_bounds (attempts : ℕ) :
    1000 ≤ reconnectDelay attempts ∧ reconnectDelay attempts ≤ maxBackoffMs := by
  have hpow : 1 ≤ Nat.pow 2 attempts := Nat.one_le_two_pow
  unfold reconnectDelay maxBackoffMs
  omega

namespace DashboardWs

/-- The token that opens a socket. -/
def token (s : DashboardWs) : Option AccessToken := s.accessToken.filter fun token => token != ""

/-- The service's own socket. -/
def current (s : DashboardWs) : Option WebSocket := s.socket.bind fun i => s.sockets[i]?

/-- `openSocket`. -/
def openSocket (s : DashboardWs) : DashboardWs :=
  if s.current.any WebSocket.live then s
  else
    match s.token with
    | none => s
    | some token =>
      { s with
        closedByClient := false
        sockets := s.sockets ++ [⟨.connecting, token, true⟩]
        socket := some s.sockets.length }

/-- `stopHeartbeat`. -/
def stopHeartbeat (s : DashboardWs) : DashboardWs :=
  match s.heartbeatTimer with
  | none => s
  | some timer => { s with intervals := s.intervals.filter (· != timer), heartbeatTimer := none }

/-- `startHeartbeat`. -/
def startHeartbeat (s : DashboardWs) : DashboardWs :=
  let t := s.stopHeartbeat
  { t with heartbeatTimer := some t.timer, intervals := t.intervals ++ [t.timer], timer := t.timer + 1 }

/-- `scheduleReconnect`. -/
def scheduleReconnect (s : DashboardWs) : DashboardWs :=
  match s.reconnectTimer with
  | some _ => s
  | none =>
    { s with
      reconnectAttempts := s.reconnectAttempts + 1
      reconnectTimer := some s.timer
      timeouts := s.timeouts ++ [(s.timer, reconnectDelay s.reconnectAttempts)]
      timer := s.timer + 1 }

/-- `if (this.reconnectTimer) { clearTimeout(this.reconnectTimer); this.reconnectTimer = null; }`. -/
def clearReconnect (s : DashboardWs) : DashboardWs :=
  match s.reconnectTimer with
  | none => s
  | some timer => { s with timeouts := s.timeouts.filter (·.1 != timer), reconnectTimer := none }

/-- `if (this.socket) { this.socket.onclose = null; this.socket.close(); this.socket = null; }`. -/
def dropSocket (s : DashboardWs) : DashboardWs :=
  match s.socket with
  | none => s
  | some i => { s with sockets := s.sockets.modify i fun w => { w with onclose := false }.close, socket := none }

/-- `_close`. -/
def close (s : DashboardWs) : DashboardWs :=
  { ({ s with closedByClient := true } : DashboardWs).stopHeartbeat.clearReconnect.dropSocket with connected := false }

/-- `connect`. -/
def connect (s : DashboardWs) : DashboardWs := ({ s with refs := s.refs + 1 } : DashboardWs).openSocket

/-- `disconnect`. -/
def disconnect (s : DashboardWs) : DashboardWs :=
  let t := { s with refs := s.refs - 1 }
  if 0 < t.refs then t else t.close

/-- `forceDisconnect`. -/
def forceDisconnect (s : DashboardWs) : DashboardWs := ({ s with refs := 0 } : DashboardWs).close

/-- `onopen`. -/
def onopen (s : DashboardWs) : DashboardWs :=
  ({ s with reconnectAttempts := 0, connected := true } : DashboardWs).startHeartbeat

/-- `onclose`. -/
def onclose (s : DashboardWs) : DashboardWs :=
  let t := ({ s with connected := false } : DashboardWs).stopHeartbeat
  if !t.closedByClient && decide (0 < t.refs) && t.token.isSome then t.scheduleReconnect else t

/-- One socket in another state. -/
def setReady (s : DashboardWs) (i : ℕ) (readyState : ReadyState) : DashboardWs :=
  { s with sockets := s.sockets.modify i fun w => { w with readyState } }

/-- A socket is open. -/
def opened (s : DashboardWs) (i : ℕ) : Option DashboardWs :=
  (s.sockets[i]?).bind fun w => if w.readyState = .connecting then some (s.setReady i .opened).onopen else none

/-- A socket begins to close. -/
def closing (s : DashboardWs) (i : ℕ) : Option DashboardWs :=
  (s.sockets[i]?).bind fun w => if w.live then some (s.setReady i .closing) else none

/-- A socket is closed. -/
def closed (s : DashboardWs) (i : ℕ) : Option DashboardWs :=
  (s.sockets[i]?).bind fun w =>
    if w.readyState = .closed then none
    else some (if w.onclose then (s.setReady i .closed).onclose else s.setReady i .closed)

/-- A timeout fires: `this.reconnectTimer = null; this.openSocket()`. -/
def fire (s : DashboardWs) (timer : ℕ) : Option DashboardWs :=
  if timer ∈ s.timeouts.map Prod.fst then
    some ({ s with timeouts := s.timeouts.filter (·.1 != timer), reconnectTimer := none } : DashboardWs).openSocket
  else none

end DashboardWs

/-! ### The components and their facades -/

/-- The components that attach to the feed. -/
inductive Component where
  /-- `ShellComponent`. -/
  | shell
  /-- `DashboardComponent`. -/
  | dashboard
  /-- `BacktestDetailComponent`. -/
  | backtest
  deriving DecidableEq

/-- The service and the facades that use it. -/
structure Feed where
  /-- The service. -/
  ws : DashboardWs := {}
  /-- `DashboardFacade.sub` is held. -/
  dashboardSub : Bool := false
  /-- `BacktestFacade.sub` is held. -/
  backtestSub : Bool := false
  /-- The components that are mounted. -/
  mounted : List Component := []
  deriving DecidableEq

/-- What can happen. -/
inductive FeedAct where
  /-- A component is initialised. -/
  | mount (c : Component)
  /-- A component is destroyed. -/
  | unmount (c : Component)
  /-- `logout` or `signOut` calls `forceDisconnect`. -/
  | forceDisconnect
  /-- The store takes a token, or is cleared. -/
  | setToken (token : Option AccessToken)
  /-- A socket is open. -/
  | opened (i : ℕ)
  /-- The server begins to close a socket, or its `onerror` handler closes it. -/
  | closing (i : ℕ)
  /-- A socket is closed. -/
  | closed (i : ℕ)
  /-- A timeout fires. -/
  | fire (timer : ℕ)
  deriving DecidableEq

namespace Feed

/-- `start` of a component's facade. -/
def start (s : Feed) : Component → Feed
  | .shell | .dashboard => if s.dashboardSub then s else { s with dashboardSub := true, ws := s.ws.connect }
  | .backtest => if s.backtestSub then s else { s with backtestSub := true, ws := s.ws.connect }

/-- `stop` of a component's facade: only `BacktestFacade` looks whether it is subscribed. -/
def stop (s : Feed) : Component → Feed
  | .shell | .dashboard => { s with dashboardSub := false, ws := s.ws.disconnect }
  | .backtest => if s.backtestSub then { s with backtestSub := false, ws := s.ws.disconnect } else s

/-- One step. -/
def apply (s : Feed) : FeedAct → Option Feed
  | .mount c => if c ∈ s.mounted then none else some (({ s with mounted := c :: s.mounted } : Feed).start c)
  | .unmount c =>
    if c ∈ s.mounted then some (({ s with mounted := s.mounted.filter (· != c) } : Feed).stop c) else none
  | .forceDisconnect => some { s with ws := s.ws.forceDisconnect }
  | .setToken token => some { s with ws := { s.ws with accessToken := token } }
  | .opened i => (s.ws.opened i).map fun ws => { s with ws }
  | .closing i => (s.ws.closing i).map fun ws => { s with ws }
  | .closed i => (s.ws.closed i).map fun ws => { s with ws }
  | .fire timer => (s.ws.fire timer).map fun ws => { s with ws }

end Feed

/-! ### What holds in every run -/

/-- **The service holds what it has started.** -/
structure Held (s : DashboardWs) : Prop where
  /-- A socket that is connecting or open is the service's own. -/
  live : ∀ (i : ℕ) (w : WebSocket), s.sockets[i]? = some w → w.live = true → s.socket = some i
  /-- The service hears of the end of its socket. -/
  heard : ∀ i, s.socket = some i → ∃ w, s.sockets[i]? = some w ∧ w.onclose = true
  /-- The heartbeat is the interval that runs. -/
  intervals : s.intervals = s.heartbeatTimer.toList
  /-- The reconnection is the timeout that is pending. -/
  timeouts : s.timeouts.map Prod.fst = s.reconnectTimer.toList
  /-- How long it takes. -/
  delays : ∀ p ∈ s.timeouts, 1000 ≤ p.2 ∧ p.2 ≤ maxBackoffMs
  /-- The heartbeat runs while the feed is shown as connected. -/
  connected : s.connected = s.heartbeatTimer.isSome

/-- And without a reference it holds nothing. -/
structure WsInv (s : DashboardWs) : Prop extends Held s where
  /-- Nothing is left. -/
  quiet : s.refs = 0 → s.socket = none ∧ s.heartbeatTimer = none ∧ s.reconnectTimer = none

namespace DashboardWs

variable {s t : DashboardWs}

theorem stopHeartbeat_eq (h : s.intervals = s.heartbeatTimer.toList) :
    s.stopHeartbeat = { s with intervals := [], heartbeatTimer := none } := by
  unfold stopHeartbeat
  cases hs : s.heartbeatTimer with
  | none =>
    rw [hs, Option.toList_none] at h
    cases s
    simp_all
  | some timer =>
    rw [hs, Option.toList_some] at h
    simp [h]

theorem clearReconnect_eq (h : s.timeouts.map Prod.fst = s.reconnectTimer.toList) :
    s.clearReconnect = { s with timeouts := [], reconnectTimer := none } := by
  unfold clearReconnect
  cases hs : s.reconnectTimer with
  | none =>
    rw [hs, Option.toList_none, List.map_eq_nil_iff] at h
    cases s
    simp_all
  | some timer =>
    rw [hs, Option.toList_some, List.map_eq_singleton_iff] at h
    obtain ⟨p, hp, hfst⟩ := h
    simp [hp, hfst]

@[simp] theorem refs_openSocket (s : DashboardWs) : s.openSocket.refs = s.refs := by
  unfold openSocket
  split_ifs
  · rfl
  · split <;> rfl

@[simp] theorem refs_connect (s : DashboardWs) : s.connect.refs = s.refs + 1 := refs_openSocket _

@[simp] theorem refs_scheduleReconnect (s : DashboardWs) : s.scheduleReconnect.refs = s.refs := by
  unfold scheduleReconnect
  split <;> rfl

theorem current_of_socket {i : ℕ} {w : WebSocket} (hi : s.socket = some i) (hw : s.sockets[i]? = some w) :
    s.current = some w := by
  rw [current, hi]
  exact hw

/-- A socket among those with one in another state. -/
theorem getElem?_setReady {i j : ℕ} {w : WebSocket} {readyState : ReadyState}
    (h : (s.setReady i readyState).sockets[j]? = some w) :
    ∃ v, s.sockets[j]? = some v ∧ w = if i = j then { v with readyState } else v := by
  rw [setReady, List.getElem?_modify] at h
  obtain ⟨v, hv, rfl⟩ := Option.map_eq_some_iff.mp h
  exact ⟨v, hv, by split_ifs <;> rfl⟩

end DashboardWs

variable {s t : DashboardWs} {i : ℕ} {w : WebSocket}

theorem wsInv_init : WsInv {} where
  live _ _ h := nomatch h
  heard _ h := nomatch h
  intervals := rfl
  timeouts := rfl
  delays _ h := nomatch h
  connected := rfl
  quiet _ := ⟨rfl, rfl, rfl⟩

/-- What the store holds does not matter. -/
theorem Held.of_eq (hs : Held s) (hsockets : t.sockets = s.sockets) (hsocket : t.socket = s.socket)
    (hheartbeat : t.heartbeatTimer = s.heartbeatTimer) (hintervals : t.intervals = s.intervals)
    (hreconnect : t.reconnectTimer = s.reconnectTimer) (htimeouts : t.timeouts = s.timeouts)
    (hconnected : t.connected = s.connected) : Held t := by
  constructor
  · rw [hsockets, hsocket]
    exact hs.live
  · rw [hsockets, hsocket]
    exact hs.heard
  · rw [hintervals, hheartbeat, hs.intervals]
  · rw [htimeouts, hreconnect, hs.timeouts]
  · rw [htimeouts]
    exact hs.delays
  · rw [hconnected, hheartbeat, hs.connected]

/-- A reference keeps what is there. -/
theorem Held.wsInv (hs : Held s) (hrefs : s.refs ≠ 0) : WsInv s := ⟨hs, fun h => absurd h hrefs⟩

/-- A socket is opened only where none is open. -/
theorem Held.openSocket (hs : Held s) : Held s.openSocket := by
  unfold DashboardWs.openSocket
  split_ifs with hlive
  · exact hs
  split
  · exact hs
  refine ⟨fun i w hw hwlive => ?_, fun i hi => ?_, hs.intervals, hs.timeouts, hs.delays, hs.connected⟩
  · rw [List.getElem?_append] at hw
    split_ifs at hw with hi
    · have hcurrent := DashboardWs.current_of_socket (hs.live i w hw hwlive) hw
      rw [hcurrent] at hlive
      exact absurd hwlive hlive
    · obtain ⟨hlt, -⟩ := List.getElem?_eq_some_iff.mp hw
      have hone : i - s.sockets.length < 1 := hlt
      have hlast : i = s.sockets.length := by omega
      rw [hlast]
  · cases hi
    exact ⟨_, List.getElem?_concat_length, rfl⟩

/-- What `_close` leaves. -/
theorem Held.close_eq (hs : Held s) : s.close = { s with
    closedByClient := true, intervals := [], heartbeatTimer := none, timeouts := [], reconnectTimer := none,
    connected := false, socket := none, sockets := s.dropSocket.sockets } := by
  have hstop : ({ s with closedByClient := true } : DashboardWs).stopHeartbeat =
      { s with closedByClient := true, intervals := [], heartbeatTimer := none } := DashboardWs.stopHeartbeat_eq hs.intervals
  have hclear : ({ s with closedByClient := true, intervals := [], heartbeatTimer := none } : DashboardWs).clearReconnect =
      { s with
        closedByClient := true, intervals := [], heartbeatTimer := none, timeouts := [], reconnectTimer := none } :=
    DashboardWs.clearReconnect_eq hs.timeouts
  rw [DashboardWs.close, hstop, hclear]
  unfold DashboardWs.dropSocket
  cases hsocket : s.socket <;> rfl

/-- Nothing is left. -/
theorem Held.close (hs : Held s) : WsInv s.close := by
  rw [hs.close_eq]
  refine ⟨⟨fun i w hw hlive => ?_, fun i hi => (nomatch hi), rfl, rfl, fun _ h => (nomatch h), rfl⟩,
    fun _ => ⟨rfl, rfl, rfl⟩⟩
  unfold DashboardWs.dropSocket at hw
  cases hsocket : s.socket with
  | none =>
    rw [hsocket] at hw
    exact hsocket ▸ hs.live i w hw hlive
  | some j =>
    rw [hsocket] at hw
    dsimp only at hw
    rw [List.getElem?_modify] at hw
    obtain ⟨v, hv, rfl⟩ := Option.map_eq_some_iff.mp hw
    split_ifs at hlive with hji
    · simp at hlive
    · have hi := hs.live i v hv hlive
      rw [hsocket] at hi
      exact absurd (Option.some.inj hi) hji

theorem Held.connect (hs : Held s) : WsInv s.connect :=
  Held.wsInv (Held.openSocket (hs.of_eq rfl rfl rfl rfl rfl rfl rfl)) (by simp)

theorem Held.disconnect (hs : Held s) : WsInv s.disconnect := by
  have hless : Held { s with refs := s.refs - 1 } := hs.of_eq rfl rfl rfl rfl rfl rfl rfl
  unfold DashboardWs.disconnect
  dsimp only
  split_ifs with hrefs
  · exact hless.wsInv (Nat.pos_iff_ne_zero.mp hrefs)
  · exact hless.close

theorem Held.forceDisconnect (hs : Held s) : WsInv s.forceDisconnect :=
  Held.close (hs.of_eq rfl rfl rfl rfl rfl rfl rfl)

/-- The service's own socket is open. -/
theorem Held.onopen (hs : Held s) : Held s.onopen := by
  have hstop : ({ s with reconnectAttempts := 0, connected := true } : DashboardWs).stopHeartbeat =
      { s with reconnectAttempts := 0, connected := true, intervals := [], heartbeatTimer := none } :=
    DashboardWs.stopHeartbeat_eq hs.intervals
  unfold DashboardWs.onopen DashboardWs.startHeartbeat
  rw [hstop]
  exact ⟨hs.live, hs.heard, rfl, hs.timeouts, hs.delays, rfl⟩

/-- A reconnection is scheduled where none is. -/
theorem Held.scheduleReconnect (hs : Held s) : Held s.scheduleReconnect := by
  unfold DashboardWs.scheduleReconnect
  cases hreconnect : s.reconnectTimer with
  | some timer => exact hs
  | none =>
    have htimeouts := hs.timeouts
    rw [hreconnect, Option.toList_none, List.map_eq_nil_iff] at htimeouts
    refine ⟨hs.live, hs.heard, hs.intervals, by simp [htimeouts], fun p hp => ?_, hs.connected⟩
    rw [htimeouts, List.nil_append, List.mem_singleton] at hp
    rw [hp]
    exact reconnectDelay_bounds _

/-- What `onclose` leaves. -/
theorem Held.onclose_eq (hs : Held s) : s.onclose =
    if !s.closedByClient && decide (0 < s.refs) && s.token.isSome then
      ({ s with connected := false, intervals := [], heartbeatTimer := none } : DashboardWs).scheduleReconnect
    else { s with connected := false, intervals := [], heartbeatTimer := none } := by
  have hstop : ({ s with connected := false } : DashboardWs).stopHeartbeat =
      { s with connected := false, intervals := [], heartbeatTimer := none } := DashboardWs.stopHeartbeat_eq hs.intervals
  unfold DashboardWs.onclose
  rw [hstop]
  rfl

/-- The end of a socket. -/
theorem WsInv.onclose (hs : WsInv s) : WsInv s.onclose := by
  have hdown : Held { s with connected := false, intervals := [], heartbeatTimer := none } :=
    ⟨hs.live, hs.heard, rfl, hs.timeouts, hs.delays, rfl⟩
  rw [hs.toHeld.onclose_eq]
  split_ifs with hagain
  · refine hdown.scheduleReconnect.wsInv ?_
    simp only [Bool.and_eq_true, decide_eq_true_eq] at hagain
    rw [DashboardWs.refs_scheduleReconnect]
    exact Nat.pos_iff_ne_zero.mp hagain.1.2
  · exact ⟨hdown, fun h => ⟨(hs.quiet h).1, rfl, (hs.quiet h).2.2⟩⟩

/-- A socket goes on to a state in which it is not more alive. -/
theorem Held.setReady (hs : Held s) (i : ℕ) {readyState : ReadyState}
    (hlive : ∀ w, s.sockets[i]? = some w → ({ w with readyState } : WebSocket).live = true → w.live = true) :
    Held (s.setReady i readyState) := by
  refine ⟨fun j w hw hwlive => ?_, fun j hj => ?_, hs.intervals, hs.timeouts, hs.delays, hs.connected⟩
  · obtain ⟨v, hv, rfl⟩ := DashboardWs.getElem?_setReady hw
    split_ifs at hwlive with hij
    · subst hij
      exact hs.live i v hv (hlive v hv hwlive)
    · exact hs.live j v hv hwlive
  · obtain ⟨w, hw, hheard⟩ := hs.heard j hj
    refine ⟨if i = j then { w with readyState } else w, ?_, by split_ifs <;> exact hheard⟩
    unfold DashboardWs.setReady
    rw [List.getElem?_modify, hw]
    split_ifs <;> rfl

theorem WsInv.setReady (hs : WsInv s) (i : ℕ) {readyState : ReadyState}
    (hlive : ∀ w, s.sockets[i]? = some w → ({ w with readyState } : WebSocket).live = true → w.live = true) :
    WsInv (s.setReady i readyState) := ⟨hs.toHeld.setReady i hlive, hs.quiet⟩

/-! ### The socket's events -/

/-- What an event of a socket has done. -/
theorem opened_eq (h : s.opened i = some t) :
    ∃ w, s.sockets[i]? = some w ∧ w.readyState = .connecting ∧ t = (s.setReady i .opened).onopen := by
  obtain ⟨w, hw, hopen⟩ := Option.bind_eq_some_iff.mp h
  obtain ⟨hconnecting, ht⟩ := Option.ite_none_right_eq_some.mp hopen
  exact ⟨w, hw, hconnecting, (Option.some.inj ht).symm⟩

theorem closing_eq (h : s.closing i = some t) :
    ∃ w, s.sockets[i]? = some w ∧ w.live = true ∧ t = s.setReady i .closing := by
  obtain ⟨w, hw, hclose⟩ := Option.bind_eq_some_iff.mp h
  obtain ⟨hlive, ht⟩ := Option.ite_none_right_eq_some.mp hclose
  exact ⟨w, hw, hlive, (Option.some.inj ht).symm⟩

theorem closed_eq (h : s.closed i = some t) :
    ∃ w, s.sockets[i]? = some w ∧ w.readyState ≠ .closed ∧
      t = if w.onclose then (s.setReady i .closed).onclose else s.setReady i .closed := by
  obtain ⟨w, hw, hclose⟩ := Option.bind_eq_some_iff.mp h
  obtain ⟨hopen, ht⟩ := Option.ite_none_left_eq_some.mp hclose
  exact ⟨w, hw, hopen, (Option.some.inj ht).symm⟩

/-- The timeout that fires is the one that the service holds. -/
theorem Held.fire_eq (hs : Held s) {timer : ℕ} (h : s.fire timer = some t) :
    s.reconnectTimer = some timer ∧ t = ({ s with timeouts := [], reconnectTimer := none } : DashboardWs).openSocket := by
  obtain ⟨hmem, ht⟩ := Option.ite_none_right_eq_some.mp h
  rw [hs.timeouts, Option.mem_toList] at hmem
  have htimeouts := hs.timeouts
  rw [Option.mem_def.mp hmem, Option.toList_some, List.map_eq_singleton_iff] at htimeouts
  obtain ⟨p, hp, hfst⟩ := htimeouts
  refine ⟨hmem, (Option.some.inj ht).symm.trans ?_⟩
  simp [hp, hfst]

theorem WsInv.opened (hs : WsInv s) (h : s.opened i = some t) : WsInv t := by
  obtain ⟨w, hw, hconnecting, rfl⟩ := opened_eq h
  have hlive : w.live = true := by simp [WebSocket.live, hconnecting]
  have hready : WsInv (s.setReady i .opened) := hs.setReady i fun v hv _ => by
    rw [hw] at hv
    cases hv
    exact hlive
  have hrefs : s.refs ≠ 0 := fun h0 => by
    have hsocket := hs.live i w hw hlive
    rw [(hs.quiet h0).1] at hsocket
    cases hsocket
  refine hready.toHeld.onopen.wsInv ?_
  unfold DashboardWs.onopen DashboardWs.startHeartbeat DashboardWs.stopHeartbeat
  split <;> exact hrefs

theorem WsInv.closing (hs : WsInv s) (h : s.closing i = some t) : WsInv t := by
  obtain ⟨w, -, -, rfl⟩ := closing_eq h
  exact hs.setReady i fun _ _ hlive => absurd hlive Bool.false_ne_true

theorem WsInv.closed (hs : WsInv s) (h : s.closed i = some t) : WsInv t := by
  obtain ⟨w, -, -, rfl⟩ := closed_eq h
  have hready : WsInv (s.setReady i .closed) := hs.setReady i fun _ _ hlive => absurd hlive Bool.false_ne_true
  split_ifs
  · exact hready.onclose
  · exact hready

theorem WsInv.fire (hs : WsInv s) {timer : ℕ} (h : s.fire timer = some t) : WsInv t := by
  obtain ⟨htimer, rfl⟩ := hs.toHeld.fire_eq h
  have hfired : Held { s with timeouts := [], reconnectTimer := none } :=
    ⟨hs.live, hs.heard, hs.intervals, rfl, fun _ h => (nomatch h), hs.connected⟩
  refine hfired.openSocket.wsInv ?_
  rw [DashboardWs.refs_openSocket]
  intro h0
  rw [(hs.quiet h0).2.2] at htimer
  cases htimer

/-! ### The references -/

/-- Every reference is a facade's that is subscribed, and it was subscribed by a component that is mounted. -/
structure FeedInv (s : Feed) : Prop where
  /-- The service holds what it has started. -/
  ws : WsInv s.ws
  /-- The references. -/
  refs : s.ws.refs ≤ s.dashboardSub.toNat + s.backtestSub.toNat
  /-- The shell or the dashboard is mounted. -/
  dashboard : s.dashboardSub = true → .shell ∈ s.mounted ∨ .dashboard ∈ s.mounted
  /-- The backtest's page is mounted. -/
  backtest : s.backtestSub = true → .backtest ∈ s.mounted

namespace DashboardWs

@[simp] theorem refs_stopHeartbeat (s : DashboardWs) : s.stopHeartbeat.refs = s.refs := by
  unfold stopHeartbeat
  split <;> rfl

@[simp] theorem refs_close (s : DashboardWs) : s.close.refs = s.refs := by
  unfold close dropSocket clearReconnect stopHeartbeat
  dsimp only
  split <;> split <;> split <;> rfl

@[simp] theorem refs_disconnect (s : DashboardWs) : s.disconnect.refs = s.refs - 1 := by
  unfold disconnect
  dsimp only
  split_ifs
  · rfl
  · exact refs_close _

@[simp] theorem refs_forceDisconnect (s : DashboardWs) : s.forceDisconnect.refs = 0 := refs_close _

/-- Events do not count. -/
theorem refs_opened (h : s.opened i = some t) : t.refs = s.refs := by
  obtain ⟨w, -, -, rfl⟩ := opened_eq h
  unfold onopen startHeartbeat
  exact refs_stopHeartbeat _

theorem refs_closing (h : s.closing i = some t) : t.refs = s.refs := by
  obtain ⟨w, -, -, rfl⟩ := closing_eq h
  rfl

theorem refs_closed (h : s.closed i = some t) : t.refs = s.refs := by
  obtain ⟨w, -, -, rfl⟩ := closed_eq h
  split_ifs
  · unfold onclose
    dsimp only
    split_ifs
    · rw [refs_scheduleReconnect]
      exact refs_stopHeartbeat _
    · exact refs_stopHeartbeat _
  · rfl

theorem refs_fire {timer : ℕ} (h : s.fire timer = some t) : t.refs = s.refs := by
  obtain ⟨-, ht⟩ := Option.ite_none_right_eq_some.mp h
  rw [← Option.some.inj ht, refs_openSocket]

end DashboardWs

variable {f g : Feed}

theorem feedInv_init : FeedInv {} := ⟨wsInv_init, Nat.zero_le _, nofun, nofun⟩

theorem FeedInv.mount (hf : FeedInv f) (c : Component) :
    FeedInv (({ f with mounted := c :: f.mounted } : Feed).start c) := by
  have hrefs := hf.refs
  have hmore : f.dashboardSub = true → .shell ∈ c :: f.mounted ∨ .dashboard ∈ c :: f.mounted := fun h =>
    (hf.dashboard h).imp (List.mem_cons_of_mem c) (List.mem_cons_of_mem c)
  unfold Feed.start
  cases c with
  | backtest =>
    dsimp only
    split_ifs with hsub
    · exact ⟨hf.ws, hf.refs, hmore, fun _ => List.mem_cons_self⟩
    · refine ⟨hf.ws.toHeld.connect, ?_, hmore, fun _ => List.mem_cons_self⟩
      simp_all
  | shell | dashboard =>
    dsimp only
    split_ifs with hsub
    · exact ⟨hf.ws, hf.refs, hmore, fun h => List.mem_cons_of_mem _ (hf.backtest h)⟩
    · refine ⟨hf.ws.toHeld.connect, ?_, by simp, fun h => List.mem_cons_of_mem _ (hf.backtest h)⟩
      simp_all [Nat.add_comm]

theorem FeedInv.unmount (hf : FeedInv f) (c : Component) :
    FeedInv (({ f with mounted := f.mounted.filter (· != c) } : Feed).stop c) := by
  have hrefs := hf.refs
  have hstays : ∀ {c'}, c' ∈ f.mounted → c' ≠ c → c' ∈ f.mounted.filter (· != c) := fun hmem hne =>
    List.mem_filter.mpr ⟨hmem, bne_iff_ne.mpr hne⟩
  unfold Feed.stop
  cases c with
  | backtest =>
    have hdashboard : f.dashboardSub = true →
        .shell ∈ f.mounted.filter (· != .backtest) ∨ .dashboard ∈ f.mounted.filter (· != .backtest) :=
      fun h => (hf.dashboard h).imp (hstays · nofun) (hstays · nofun)
    dsimp only
    split_ifs with hsub
    · refine ⟨hf.ws.toHeld.disconnect, ?_, hdashboard, nofun⟩
      rw [hsub] at hrefs
      simpa using hrefs
    · exact ⟨hf.ws, hf.refs, hdashboard, fun h => absurd h hsub⟩
  | shell | dashboard =>
    refine ⟨hf.ws.toHeld.disconnect, ?_, nofun, fun h => hstays (hf.backtest h) nofun⟩
    have hone := Bool.toNat_le f.dashboardSub
    simp only [DashboardWs.refs_disconnect, Bool.toNat_false, Nat.zero_add]
    omega

/-- What the service does of itself leaves the facades as they are. -/
theorem FeedInv.of_ws (hf : FeedInv f) {ws : DashboardWs} (hws : WsInv ws) (hrefs : ws.refs ≤ f.ws.refs) :
    FeedInv { f with ws } := ⟨hws, hrefs.trans hf.refs, hf.dashboard, hf.backtest⟩

/-- One step. -/
theorem FeedInv.step (hf : FeedInv f) {a : FeedAct} (h : f.apply a = some g) : FeedInv g := by
  cases a with
  | mount c =>
    obtain ⟨-, hg⟩ := Option.ite_none_left_eq_some.mp h
    cases hg
    exact hf.mount c
  | unmount c =>
    obtain ⟨-, hg⟩ := Option.ite_none_right_eq_some.mp h
    cases hg
    exact hf.unmount c
  | forceDisconnect =>
    cases h
    exact hf.of_ws hf.ws.toHeld.forceDisconnect (by simp)
  | setToken token =>
    cases h
    exact hf.of_ws ⟨hf.ws.toHeld.of_eq rfl rfl rfl rfl rfl rfl rfl, hf.ws.quiet⟩ le_rfl
  | opened i =>
    obtain ⟨ws, hws, rfl⟩ := Option.map_eq_some_iff.mp h
    exact hf.of_ws (hf.ws.opened hws) (DashboardWs.refs_opened hws).le
  | closing i =>
    obtain ⟨ws, hws, rfl⟩ := Option.map_eq_some_iff.mp h
    exact hf.of_ws (hf.ws.closing hws) (DashboardWs.refs_closing hws).le
  | closed i =>
    obtain ⟨ws, hws, rfl⟩ := Option.map_eq_some_iff.mp h
    exact hf.of_ws (hf.ws.closed hws) (DashboardWs.refs_closed hws).le
  | fire timer =>
    obtain ⟨ws, hws, rfl⟩ := Option.map_eq_some_iff.mp h
    exact hf.of_ws (hf.ws.fire hws) (DashboardWs.refs_fire hws).le

/-- A run of the feed. -/
abbrev FeedRun : (Feed → FeedAct → Prop) → Feed → Feed → Prop := Run fun f a g => f.apply a = some g

theorem FeedInv.run {P : Feed → FeedAct → Prop} (hf : FeedInv f) (h : FeedRun P f g) : FeedInv g :=
  h.invariant FeedInv hf fun hstep _ hf => hf.step hstep

/-- The feed leaks nothing. -/
structure Contained (f : Feed) : Prop where
  /-- At most one socket is connecting or open, and the service knows it. -/
  live : ∀ (i : ℕ) (w : WebSocket), f.ws.sockets[i]? = some w → w.live = true → f.ws.socket = some i
  /-- One heartbeat at most, while the feed is shown as connected. -/
  heartbeat : f.ws.intervals.length = f.ws.connected.toNat
  /-- One reconnection at most. -/
  reconnect : f.ws.timeouts.length ≤ 1
  /-- The service holds the interval that runs, and can stop it. -/
  heartbeatTimer : f.ws.intervals = f.ws.heartbeatTimer.toList
  /-- It holds the timeout that is pending, and can clear it. -/
  reconnectTimer : f.ws.timeouts.map Prod.fst = f.ws.reconnectTimer.toList
  /-- How long it takes. -/
  delays : ∀ p ∈ f.ws.timeouts, 1000 ≤ p.2 ∧ p.2 ≤ maxBackoffMs
  /-- A reference for each facade that is subscribed, at most. -/
  refs : f.ws.refs ≤ f.dashboardSub.toNat + f.backtestSub.toNat
  /-- Without a reference, or without a component, nothing is left. -/
  quiet : f.ws.refs = 0 ∨ f.mounted = [] → (∀ w ∈ f.ws.sockets, w.live = false) ∧ f.ws.intervals = [] ∧
    f.ws.timeouts = [] ∧ f.ws.connected = false

theorem FeedInv.refs_eq_zero (hf : FeedInv f) (hmounted : f.mounted = []) : f.ws.refs = 0 := by
  have hrefs := hf.refs
  have hdashboard : f.dashboardSub = false := Bool.eq_false_iff.mpr fun h => by simpa [hmounted] using hf.dashboard h
  have hbacktest : f.backtestSub = false := Bool.eq_false_iff.mpr fun h => by simpa [hmounted] using hf.backtest h
  simpa [hdashboard, hbacktest] using hrefs

theorem FeedInv.contained (hf : FeedInv f) : Contained f := by
  have hws := hf.ws
  refine ⟨hws.live, ?_, ?_, hws.intervals, hws.timeouts, hws.delays, hf.refs, fun h => ?_⟩
  · rw [hws.intervals, hws.connected]
    cases f.ws.heartbeatTimer <;> rfl
  · rw [← List.length_map Prod.fst, hws.timeouts]
    cases f.ws.reconnectTimer <;> simp
  · obtain ⟨hsocket, hheartbeat, hreconnect⟩ := hws.quiet (h.elim id hf.refs_eq_zero)
    have htimeouts := hws.timeouts
    rw [hreconnect, Option.toList_none, List.map_eq_nil_iff] at htimeouts
    refine ⟨fun w hw => ?_, by rw [hws.intervals, hheartbeat]; rfl, htimeouts, by rw [hws.connected, hheartbeat]; rfl⟩
    obtain ⟨i, hi⟩ := List.mem_iff_getElem?.mp hw
    refine Bool.eq_false_iff.mpr fun hlive => ?_
    have hown := hws.live i w hi hlive
    rw [hsocket] at hown
    cases hown

/-- **The feed leaks nothing**: in every run there is at most one live socket, one heartbeat and one reconnection, the
service holds them, and once nobody is attached there is none. -/
theorem feed_contained (h : FeedRun AnyStep {} f) : Contained f := (feedInv_init.run h).contained

/-! ### The feed comes back -/

/-- The service is attached and will open a socket, has one, or hears of its end. -/
structure Attached (s : DashboardWs) : Prop where
  /-- There is a session. -/
  token : s.token.isSome = true
  /-- It has not closed the socket itself. -/
  open' : s.closedByClient = false
  /-- It has a socket, or will try again. -/
  up : s.reconnectTimer.isSome = true ∨ ∃ w, s.current = some w ∧ w.readyState ≠ .closed

theorem Attached.of_eq (hs : Attached s) (htoken : t.accessToken = s.accessToken)
    (hclosed : t.closedByClient = s.closedByClient) (hreconnect : t.reconnectTimer = s.reconnectTimer)
    (hcurrent : t.current = s.current) : Attached t :=
  ⟨by rw [DashboardWs.token, htoken]; exact hs.token, hclosed.trans hs.open', by rw [hreconnect, hcurrent]; exact hs.up⟩

namespace DashboardWs

/-- With a token, `openSocket` leaves a socket that is connecting or open. -/
theorem current_openSocket (htoken : s.token.isSome = true) : ∃ w, s.openSocket.current = some w ∧ w.live = true := by
  unfold openSocket
  split_ifs with hlive
  · exact (Option.any_eq_true _ _).mp hlive
  obtain ⟨token, htoken⟩ := Option.isSome_iff_exists.mp htoken
  rw [htoken]
  exact ⟨⟨.connecting, token, true⟩, List.getElem?_concat_length, rfl⟩

theorem readyState_ne_closed (h : w.live = true) : w.readyState ≠ .closed := by
  intro hclosed
  simp [WebSocket.live, hclosed] at h

@[simp] theorem token_openSocket (s : DashboardWs) : s.openSocket.token = s.token := by
  unfold openSocket
  split_ifs
  · rfl
  · split <;> rfl

/-- It has not been closed by the client, unless it was there before. -/
theorem closedByClient_openSocket (htoken : s.token.isSome = true)
    (h : s.current.any WebSocket.live = true → s.closedByClient = false) : s.openSocket.closedByClient = false := by
  unfold openSocket
  split_ifs with hlive
  · exact h hlive
  obtain ⟨token, htoken⟩ := Option.isSome_iff_exists.mp htoken
  rw [htoken]

/-- The service's own socket, with one in another state. -/
theorem current_setReady (s : DashboardWs) (i : ℕ) (readyState : ReadyState) :
    (s.setReady i readyState).current =
      s.current.map fun w => if s.socket = some i then { w with readyState } else w := by
  unfold current setReady
  dsimp only
  cases hsocket : s.socket with
  | none => rfl
  | some j =>
    simp only [Option.bind_some, List.getElem?_modify, Option.some.injEq]
    by_cases hij : i = j
    · simp [hij]
    · simp [hij, Ne.symm hij]

/-- `onopen` changes the heartbeat only. -/
theorem onopen_frame (s : DashboardWs) : s.onopen.accessToken = s.accessToken ∧
    s.onopen.closedByClient = s.closedByClient ∧ s.onopen.reconnectTimer = s.reconnectTimer ∧
    s.onopen.current = s.current := by
  unfold onopen startHeartbeat stopHeartbeat current
  split <;> exact ⟨rfl, rfl, rfl, rfl⟩

end DashboardWs

/-- A socket of a service that is attached goes on, but does not close. -/
theorem Attached.setReady (hs : Attached s) {readyState : ReadyState}
    (hready : readyState = .closed → s.socket ≠ some i) : Attached (s.setReady i readyState) := by
  refine ⟨hs.token, hs.open', hs.up.imp_right ?_⟩
  rintro ⟨w, hw, hopen⟩
  rw [DashboardWs.current_setReady, hw]
  refine ⟨_, rfl, ?_⟩
  split_ifs with hsocket
  · exact fun h => hready h hsocket
  · exact hopen

/-- A facade attaches. -/
theorem WsInv.connect_attached (hs : WsInv s) (ha : s.refs ≠ 0 → Attached s) (htoken : s.token.isSome = true) :
    Attached s.connect := by
  refine ⟨?_, ?_, .inr ?_⟩
  · rw [DashboardWs.connect, DashboardWs.token_openSocket]
    exact htoken
  · refine DashboardWs.closedByClient_openSocket htoken fun hlive => ?_
    by_cases hrefs : s.refs = 0
    · unfold DashboardWs.current at hlive
      dsimp only at hlive
      rw [(hs.quiet hrefs).1] at hlive
      cases hlive
    · exact (ha hrefs).open'
  · obtain ⟨w, hw, hlive⟩ := DashboardWs.current_openSocket (s := { s with refs := s.refs + 1 }) htoken
    exact ⟨w, hw, DashboardWs.readyState_ne_closed hlive⟩

/-- The socket of a service that is attached closes, and a reconnection is pending. -/
theorem WsInv.onclose_attached (hs : WsInv s) (hrefs : s.refs ≠ 0) (htoken : s.token.isSome = true)
    (hopen : s.closedByClient = false) : Attached s.onclose ∧ s.onclose.timeouts ≠ [] := by
  have htrue : (!s.closedByClient && decide (0 < s.refs) && s.token.isSome) = true := by
    simp [hopen, htoken, Nat.pos_iff_ne_zero, hrefs]
  have htimeouts := hs.timeouts
  rw [hs.toHeld.onclose_eq, if_pos htrue]
  unfold DashboardWs.scheduleReconnect
  cases hreconnect : s.reconnectTimer with
  | none => exact ⟨⟨htoken, hopen, .inl rfl⟩, List.append_ne_nil_of_right_ne_nil _ (List.cons_ne_nil _ _)⟩
  | some timer =>
    refine ⟨⟨htoken, hopen, .inl ?_⟩, ?_⟩
    · simp
    · intro hnil
      rw [hreconnect, show s.timeouts = [] from hnil] at htimeouts
      cases htimeouts

/-- An event of a socket. -/
theorem WsInv.opened_attached (ha : Attached s) (h : s.opened i = some t) : Attached t := by
  obtain ⟨w, -, -, rfl⟩ := opened_eq h
  obtain ⟨htoken, hclosed, hreconnect, hcurrent⟩ := DashboardWs.onopen_frame (s.setReady i .opened)
  have hready : Attached (s.setReady i .opened) := ha.setReady fun h => nomatch h
  exact hready.of_eq htoken hclosed hreconnect hcurrent

theorem WsInv.closed_attached (hs : WsInv s) (hrefs : s.refs ≠ 0) (ha : Attached s) (h : s.closed i = some t) :
    Attached t := by
  obtain ⟨w, hw, -, rfl⟩ := closed_eq h
  split_ifs with hheard
  · have hready : WsInv (s.setReady i .closed) := hs.setReady i fun _ _ hlive => absurd hlive Bool.false_ne_true
    exact (hready.onclose_attached hrefs ha.token ha.open').1
  · refine ha.setReady fun _ hsocket => hheard ?_
    obtain ⟨v, hv, hvheard⟩ := hs.heard i hsocket
    rw [hw] at hv
    cases hv
    exact hvheard

theorem WsInv.fire_attached (hs : WsInv s) (ha : Attached s) {timer : ℕ} (h : s.fire timer = some t) :
    Attached t ∧ ∃ w, t.current = some w ∧ w.live = true := by
  obtain ⟨-, rfl⟩ := hs.toHeld.fire_eq h
  obtain ⟨w, hw, hlive⟩ :=
    DashboardWs.current_openSocket (s := { s with timeouts := [], reconnectTimer := none }) ha.token
  refine ⟨⟨?_, ?_, .inr ⟨w, hw, DashboardWs.readyState_ne_closed hlive⟩⟩, w, hw, hlive⟩
  · rw [DashboardWs.token_openSocket]
    exact ha.token
  · exact DashboardWs.closedByClient_openSocket ha.token fun _ => ha.open'

/-- No component leaves whose facade another one uses, components are mounted with a token, and the session ends only
when none is mounted. -/
def Attended (f : Feed) : FeedAct → Prop
  | .mount _ => f.ws.token.isSome = true
  | .unmount .shell => .dashboard ∉ f.mounted
  | .unmount .dashboard => .shell ∉ f.mounted
  | .forceDisconnect => f.mounted = []
  | .setToken token => f.mounted = [] ∨ (({ f.ws with accessToken := token } : DashboardWs).token.isSome = true)
  | _ => True

instance : ∀ (f : Feed) (a : FeedAct), Decidable (Attended f a)
  | f, .mount _ => inferInstanceAs (Decidable (f.ws.token.isSome = true))
  | f, .unmount .shell => inferInstanceAs (Decidable (Component.dashboard ∉ f.mounted))
  | f, .unmount .dashboard => inferInstanceAs (Decidable (Component.shell ∉ f.mounted))
  | f, .forceDisconnect => inferInstanceAs (Decidable (f.mounted = []))
  | f, .setToken token => inferInstanceAs
    (Decidable (f.mounted = [] ∨ (({ f.ws with accessToken := token } : DashboardWs).token.isSome = true)))
  | _, .unmount .backtest | _, .opened _ | _, .closing _ | _, .closed _ | _, .fire _ => .isTrue trivial

/-- **What holds while the feed is attended.** -/
structure AliveInv (f : Feed) : Prop extends FeedInv f where
  /-- A reference for each facade that is subscribed. -/
  exact' : f.ws.refs = f.dashboardSub.toNat + f.backtestSub.toNat
  /-- A facade is subscribed while one of its components is mounted. -/
  shared : .shell ∈ f.mounted ∨ .dashboard ∈ f.mounted → f.dashboardSub = true
  /-- The same of the backtest's page. -/
  own : .backtest ∈ f.mounted → f.backtestSub = true
  /-- The feed is up, or comes back. -/
  alive : f.ws.refs ≠ 0 → Attached f.ws

theorem FeedInv.aliveInv (hf : FeedInv f) (hmounted : f.mounted = []) : AliveInv f := by
  have hdashboard : f.dashboardSub = false := Bool.eq_false_iff.mpr fun h => by simpa [hmounted] using hf.dashboard h
  have hbacktest : f.backtestSub = false := Bool.eq_false_iff.mpr fun h => by simpa [hmounted] using hf.backtest h
  have hrefs := hf.refs_eq_zero hmounted
  refine ⟨hf, by simp [hrefs, hdashboard, hbacktest], ?_, ?_, fun h => absurd hrefs h⟩ <;> simp [hmounted]

theorem AliveInv.mount (hf : AliveInv f) (c : Component) (htoken : f.ws.token.isSome = true) :
    AliveInv (({ f with mounted := c :: f.mounted } : Feed).start c) := by
  have hinv := hf.toFeedInv.mount c
  have hexact := hf.exact'
  have hconnect := hf.ws.connect_attached hf.alive htoken
  have hshared : ∀ {d : Component}, d ∈ f.mounted → d ≠ .backtest → f.dashboardSub = true := fun {d} hd hne =>
    hf.shared (by cases d <;> simp_all)
  unfold Feed.start at hinv ⊢
  cases c with
  | backtest =>
    dsimp only at hinv ⊢
    split_ifs at hinv ⊢ with hsub
    · exact ⟨hinv, hexact, by simpa using hf.shared, fun _ => hsub, hf.alive⟩
    · refine ⟨hinv, ?_, by simpa using hf.shared, fun _ => rfl, fun _ => hconnect⟩
      simp_all
  | shell | dashboard =>
    dsimp only at hinv ⊢
    split_ifs at hinv ⊢ with hsub
    · exact ⟨hinv, hexact, fun _ => hsub, by simpa using hf.own, hf.alive⟩
    · refine ⟨hinv, ?_, fun _ => rfl, by simpa using hf.own, fun _ => hconnect⟩
      simp_all [Nat.add_comm]

/-- A facade detaches, and another one is still attached. -/
theorem attached_disconnect (ha : s.refs ≠ 0 → Attached s) (h : s.disconnect.refs ≠ 0) : Attached s.disconnect := by
  rw [DashboardWs.refs_disconnect] at h
  have hpos : 0 < s.refs - 1 := Nat.pos_iff_ne_zero.mpr h
  unfold DashboardWs.disconnect
  dsimp only
  rw [if_pos hpos]
  exact (ha (by omega)).of_eq rfl rfl rfl rfl

theorem AliveInv.unmount (hf : AliveInv f) {c : Component} (hc : c ∈ f.mounted) (hattended : Attended f (.unmount c)) :
    AliveInv (({ f with mounted := f.mounted.filter (· != c) } : Feed).stop c) := by
  have hinv := hf.toFeedInv.unmount c
  have hexact := hf.exact'
  have hdisconnect := attached_disconnect hf.alive
  unfold Feed.stop at hinv ⊢
  cases c with
  | backtest =>
    have hsub := hf.own hc
    dsimp only at hinv ⊢
    rw [if_pos hsub] at hinv ⊢
    exact ⟨hinv, by simp_all, by simpa using hf.shared, by simp, hdisconnect⟩
  | shell =>
    have hsub := hf.shared (.inl hc)
    have hother : Component.dashboard ∉ f.mounted := hattended
    exact ⟨hinv, by simp_all [Nat.add_comm], by simp [hother], by simpa using hf.own, hdisconnect⟩
  | dashboard =>
    have hsub := hf.shared (.inr hc)
    have hother : Component.shell ∉ f.mounted := hattended
    exact ⟨hinv, by simp_all [Nat.add_comm], by simp [hother], by simpa using hf.own, hdisconnect⟩

/-- What the service does of itself. -/
theorem AliveInv.of_ws (hf : AliveInv f) {ws : DashboardWs} (hws : WsInv ws) (hrefs : ws.refs = f.ws.refs)
    (halive : f.ws.refs ≠ 0 → Attached ws) : AliveInv { f with ws } :=
  ⟨hf.toFeedInv.of_ws hws hrefs.le, hrefs.trans hf.exact', hf.shared, hf.own, fun h => halive (hrefs ▸ h)⟩

/-- One step. -/
theorem AliveInv.step (hf : AliveInv f) {a : FeedAct} (h : f.apply a = some g) (hattended : Attended f a) :
    AliveInv g := by
  have hws := hf.ws
  cases a with
  | mount c =>
    obtain ⟨-, hg⟩ := Option.ite_none_left_eq_some.mp h
    cases hg
    exact hf.mount c hattended
  | unmount c =>
    obtain ⟨hc, hg⟩ := Option.ite_none_right_eq_some.mp h
    cases hg
    exact hf.unmount hc hattended
  | forceDisconnect =>
    cases h
    have hrefs := hf.refs_eq_zero hattended
    exact hf.of_ws hws.toHeld.forceDisconnect (by simp [hrefs]) fun h => absurd hrefs h
  | setToken token =>
    cases h
    refine hf.of_ws ⟨hws.toHeld.of_eq rfl rfl rfl rfl rfl rfl rfl, hws.quiet⟩ rfl fun hrefs => ?_
    rcases hattended with hmounted | htoken
    · exact absurd (hf.refs_eq_zero hmounted) hrefs
    · exact ⟨htoken, (hf.alive hrefs).open', (hf.alive hrefs).up⟩
  | opened i =>
    obtain ⟨ws, hopened, rfl⟩ := Option.map_eq_some_iff.mp h
    exact hf.of_ws (hws.opened hopened) (DashboardWs.refs_opened hopened) fun hrefs =>
      WsInv.opened_attached (hf.alive hrefs) hopened
  | closing i =>
    obtain ⟨ws, hclosing, rfl⟩ := Option.map_eq_some_iff.mp h
    refine hf.of_ws (hws.closing hclosing) (DashboardWs.refs_closing hclosing) fun hrefs => ?_
    obtain ⟨w, -, -, rfl⟩ := closing_eq hclosing
    exact (hf.alive hrefs).setReady fun h => nomatch h
  | closed i =>
    obtain ⟨ws, hclosed, rfl⟩ := Option.map_eq_some_iff.mp h
    exact hf.of_ws (hws.closed hclosed) (DashboardWs.refs_closed hclosed) fun hrefs =>
      hws.closed_attached hrefs (hf.alive hrefs) hclosed
  | fire timer =>
    obtain ⟨ws, hfire, rfl⟩ := Option.map_eq_some_iff.mp h
    exact hf.of_ws (hws.fire hfire) (DashboardWs.refs_fire hfire) fun hrefs =>
      (hws.fire_attached (hf.alive hrefs) hfire).1

/-- The feed is up, or comes back. -/
structure FeedAlive (s : DashboardWs) : Prop where
  /-- There is a socket that is not closed, or a reconnection is pending. -/
  up : s.timeouts ≠ [] ∨ ∃ w, s.current = some w ∧ w.readyState ≠ .closed
  /-- A reconnection leaves a socket that is connecting or open. -/
  fires : ∀ timer t, s.fire timer = some t → ∃ w, t.current = some w ∧ w.live = true
  /-- The end of the socket leaves a reconnection pending. -/
  closes : ∀ i t, s.socket = some i → s.closed i = some t → t.timeouts ≠ []

theorem AliveInv.feedAlive (hf : AliveInv f) (hmounted : f.mounted ≠ []) : FeedAlive f.ws := by
  have hws := hf.ws
  have hrefs : f.ws.refs ≠ 0 := by
    have hexact := hf.exact'
    obtain ⟨c, hc⟩ := List.exists_mem_of_ne_nil _ hmounted
    cases c with
    | backtest => simp [hexact, hf.own hc]
    | shell => simp [hexact, hf.shared (.inl hc)]
    | dashboard => simp [hexact, hf.shared (.inr hc)]
  have ha := hf.alive hrefs
  refine ⟨ha.up.imp_left fun hreconnect hnil => ?_, fun timer t h => (hws.fire_attached ha h).2, fun i t hi h => ?_⟩
  · have htimeouts := hws.timeouts
    rw [hnil, List.map_nil] at htimeouts
    rw [Option.toList_eq_nil_iff.mp htimeouts.symm] at hreconnect
    cases hreconnect
  · obtain ⟨w, hw, -, rfl⟩ := closed_eq h
    obtain ⟨v, hv, hheard⟩ := hws.heard i hi
    rw [hw] at hv
    cases hv
    rw [if_pos hheard]
    have hready : WsInv (f.ws.setReady i .closed) := hws.setReady i fun _ _ hlive => absurd hlive Bool.false_ne_true
    exact (hready.onclose_attached hrefs ha.token ha.open').2

/-- **The feed comes back**: once all components have left, and whatever happened before, the feed of the components
that are mounted is up or comes back, until one leaves whose facade another one uses or the session ends. -/
theorem feed_alive (h : FeedRun AnyStep {} f) (hmounted : f.mounted = []) (h' : FeedRun Attended f g)
    (hsome : g.mounted ≠ []) : FeedAlive g.ws :=
  (h'.invariant AliveInv ((feedInv_init.run h).aliveInv hmounted) fun hstep hattended hf =>
    hf.step hstep hattended).feedAlive hsome

/-! ### The heartbeat -/

/-- No socket is opened while the service's own one is closing. -/
def Unhurried (f : Feed) (a : FeedAct) : Prop :=
  ∀ w ∈ f.ws.current, w.readyState = .closing → ∀ g ∈ f.apply a, g.ws.sockets.length = f.ws.sockets.length

instance (f : Feed) (a : FeedAct) : Decidable (Unhurried f a) :=
  inferInstanceAs (Decidable (∀ w ∈ f.ws.current, w.readyState = .closing → ∀ g ∈ f.apply a,
    g.ws.sockets.length = f.ws.sockets.length))

/-- No socket that it has left behind is heard. -/
structure HeartInv (s : DashboardWs) : Prop where
  /-- A socket whose end is heard is the service's own. -/
  alone : ∀ (i : ℕ) (w : WebSocket), s.sockets[i]? = some w → w.readyState ≠ .closed → w.onclose = true →
    s.socket = some i
  /-- An open socket has its heartbeat. -/
  beats : ∀ w, s.current = some w → w.readyState = .opened → s.heartbeatTimer.isSome = true

theorem HeartInv.of_eq (hs : HeartInv s) (hsockets : t.sockets = s.sockets) (hsocket : t.socket = s.socket)
    (hheartbeat : t.heartbeatTimer = s.heartbeatTimer) : HeartInv t := by
  refine ⟨?_, ?_⟩
  · rw [hsockets, hsocket]
    exact hs.alone
  · unfold DashboardWs.current
    rw [hsockets, hsocket, hheartbeat]
    exact hs.beats

theorem HeartInv.openSocket (hs : HeartInv s)
    (hunhurried : ∀ w ∈ s.current, w.readyState = .closing → s.openSocket.sockets.length = s.sockets.length) :
    HeartInv s.openSocket := by
  unfold DashboardWs.openSocket at hunhurried ⊢
  split_ifs at hunhurried ⊢ with hlive
  · exact hs
  split at hunhurried
  · exact hs
  replace hunhurried : ∀ w ∈ s.current, w.readyState ≠ .closing := fun w hw hclosing => by
    have hone := hunhurried w hw hclosing
    rw [List.length_append, List.length_singleton] at hone
    omega
  refine ⟨fun i w hw hopen hheard => ?_, fun w hw hopen => ?_⟩
  · rw [List.getElem?_append] at hw
    split_ifs at hw with hi
    · have hcurrent := DashboardWs.current_of_socket (hs.alone i w hw hopen hheard) hw
      have hclosing := hunhurried w hcurrent
      rw [hcurrent, Option.any_some] at hlive
      unfold WebSocket.live at hlive
      cases hw : w.readyState <;> simp_all
    · obtain ⟨hlt, -⟩ := List.getElem?_eq_some_iff.mp hw
      have hone : i - s.sockets.length < 1 := hlt
      have hlast : i = s.sockets.length := by omega
      rw [hlast]
  · have hnew : (s.sockets ++ [(⟨.connecting, _, true⟩ : WebSocket)])[s.sockets.length]? = some w := hw
    rw [List.getElem?_concat_length] at hnew
    cases hnew
    cases hopen

theorem HeartInv.close (hs : HeartInv s) (hheld : Held s) : HeartInv s.close := by
  rw [hheld.close_eq]
  refine ⟨fun i w hw hopen hheard => ?_, fun w hw => (nomatch hw)⟩
  unfold DashboardWs.dropSocket at hw
  cases hsocket : s.socket with
  | none =>
    rw [hsocket] at hw
    exact hsocket ▸ hs.alone i w hw hopen hheard
  | some j =>
    rw [hsocket] at hw
    dsimp only at hw
    rw [List.getElem?_modify] at hw
    obtain ⟨v, hv, rfl⟩ := Option.map_eq_some_iff.mp hw
    split_ifs at hopen hheard with hji
    · simp at hheard
    · have hi := hs.alone i v hv hopen hheard
      rw [hsocket] at hi
      exact absurd (Option.some.inj hi) hji

theorem HeartInv.disconnect (hs : HeartInv s) (hheld : Held s) : HeartInv s.disconnect := by
  have hless : HeartInv { s with refs := s.refs - 1 } := hs.of_eq rfl rfl rfl
  unfold DashboardWs.disconnect
  dsimp only
  split_ifs
  · exact hless
  · exact hless.close (hheld.of_eq rfl rfl rfl rfl rfl rfl rfl)

theorem HeartInv.opened (hs : HeartInv s) (hheld : Held s) (h : s.opened i = some t) : HeartInv t := by
  obtain ⟨w, hw, hconnecting, rfl⟩ := opened_eq h
  have hstop : ({ s.setReady i .opened with reconnectAttempts := 0, connected := true } : DashboardWs).stopHeartbeat =
      { s.setReady i .opened with
        reconnectAttempts := 0, connected := true, intervals := [], heartbeatTimer := none } :=
    DashboardWs.stopHeartbeat_eq hheld.intervals
  unfold DashboardWs.onopen DashboardWs.startHeartbeat
  rw [hstop]
  refine ⟨fun j v hv hopen hheard => ?_, fun _ _ _ => rfl⟩
  obtain ⟨u, hu, rfl⟩ := DashboardWs.getElem?_setReady hv
  split_ifs at hopen hheard with hij
  · subst hij
    rw [hw] at hu
    cases hu
    exact hs.alone i w hw (by simp [hconnecting]) hheard
  · exact hs.alone j u hu hopen hheard

theorem HeartInv.closing (hs : HeartInv s) (h : s.closing i = some t) : HeartInv t := by
  obtain ⟨w, hw, hlive, rfl⟩ := closing_eq h
  refine ⟨fun j v hv hopen hheard => ?_, fun v hv hopen => ?_⟩
  · obtain ⟨u, hu, rfl⟩ := DashboardWs.getElem?_setReady hv
    split_ifs at hopen hheard with hij
    · subst hij
      rw [hw] at hu
      cases hu
      exact hs.alone i w hw (DashboardWs.readyState_ne_closed hlive) hheard
    · exact hs.alone j u hu hopen hheard
  · rw [DashboardWs.current_setReady] at hv
    obtain ⟨u, hu, rfl⟩ := Option.map_eq_some_iff.mp hv
    split_ifs at hopen
    exact hs.beats u hu hopen

theorem HeartInv.closed (hs : HeartInv s) (hheld : Held s) (h : s.closed i = some t) : HeartInv t := by
  obtain ⟨w, hw, hnot, rfl⟩ := closed_eq h
  have halone : ∀ (j : ℕ) (v : WebSocket), (s.setReady i .closed).sockets[j]? = some v → v.readyState ≠ .closed →
      v.onclose = true → s.socket = some j := by
    intro j v hv hopen hheard
    obtain ⟨u, hu, rfl⟩ := DashboardWs.getElem?_setReady hv
    split_ifs at hopen hheard with hij
    · exact absurd rfl hopen
    · exact hs.alone j u hu hopen hheard
  split_ifs with hheard
  · have hdown : HeartInv
        { s.setReady i .closed with connected := false, intervals := [], heartbeatTimer := none } := by
      refine ⟨halone, fun v hv hopen => ?_⟩
      have hown : s.socket = some i := hs.alone i w hw hnot hheard
      have hcurrent : (s.setReady i .closed).current = some v := hv
      rw [DashboardWs.current_setReady, DashboardWs.current_of_socket hown hw] at hcurrent
      simp only [hown, if_true, Option.map_some, Option.some.injEq] at hcurrent
      rw [← hcurrent] at hopen
      cases hopen
    have hready : Held (s.setReady i .closed) := hheld.setReady i fun _ _ hlive => absurd hlive Bool.false_ne_true
    rw [hready.onclose_eq]
    split_ifs
    · unfold DashboardWs.scheduleReconnect
      split
      · exact hdown
      · exact hdown.of_eq rfl rfl rfl
    · exact hdown
  · refine ⟨halone, fun v hv hopen => ?_⟩
    rw [DashboardWs.current_setReady] at hv
    obtain ⟨u, hu, rfl⟩ := Option.map_eq_some_iff.mp hv
    split_ifs at hopen
    exact hs.beats u hu hopen

/-- One step. -/
theorem HeartInv.step (hs : HeartInv f.ws) (hf : FeedInv f) {a : FeedAct} (h : f.apply a = some g)
    (hunhurried : Unhurried f a) : HeartInv g.ws := by
  have hheld := hf.ws.toHeld
  cases a with
  | mount c =>
    obtain ⟨-, hg⟩ := Option.ite_none_left_eq_some.mp h
    have hopen : g.ws = f.ws.connect → HeartInv g.ws := fun hconnect => by
      rw [hconnect]
      refine HeartInv.openSocket (hs.of_eq rfl rfl rfl) fun w hw hclosing => ?_
      have hsame := hunhurried w hw hclosing g h
      rw [hconnect] at hsame
      exact hsame
    have hstart : g.ws = f.ws ∨ g.ws = f.ws.connect := by
      cases hg
      unfold Feed.start
      cases c <;> dsimp only <;> split_ifs <;> simp
    rcases hstart with hsame | hconnect
    · rw [hsame]
      exact hs
    · exact hopen hconnect
  | unmount c =>
    obtain ⟨-, hg⟩ := Option.ite_none_right_eq_some.mp h
    have hclose := hs.disconnect hheld
    cases hg
    unfold Feed.stop
    cases c with
    | backtest => dsimp only; split_ifs <;> first | exact hs | exact hclose
    | shell | dashboard => exact hclose
  | forceDisconnect =>
    cases h
    exact HeartInv.close (hs.of_eq rfl rfl rfl) (hheld.of_eq rfl rfl rfl rfl rfl rfl rfl)
  | setToken token =>
    cases h
    exact hs.of_eq rfl rfl rfl
  | opened i =>
    obtain ⟨ws, hws, rfl⟩ := Option.map_eq_some_iff.mp h
    exact hs.opened hheld hws
  | closing i =>
    obtain ⟨ws, hws, rfl⟩ := Option.map_eq_some_iff.mp h
    exact hs.closing hws
  | closed i =>
    obtain ⟨ws, hws, rfl⟩ := Option.map_eq_some_iff.mp h
    exact hs.closed hheld hws
  | fire timer =>
    obtain ⟨ws, hws, rfl⟩ := Option.map_eq_some_iff.mp h
    obtain ⟨-, rfl⟩ := hheld.fire_eq hws
    exact HeartInv.openSocket (hs.of_eq rfl rfl rfl) fun w hw hclosing => hunhurried w hw hclosing _ h

/-- **An open socket has its heartbeat**, and the feed is shown as connected, in every run in which no socket is opened
while another one is closing. -/
theorem heartbeat_kept (h : FeedRun Unhurried {} f) {w : WebSocket} (hw : f.ws.current = some w)
    (hopen : w.readyState = .opened) : f.ws.connected = true ∧ ∃ timer, f.ws.intervals = [timer] := by
  have hboth : FeedInv f ∧ HeartInv f.ws :=
    h.invariant (fun f => FeedInv f ∧ HeartInv f.ws)
      ⟨feedInv_init, fun _ _ h => (nomatch h), fun _ h => (nomatch h)⟩
      fun hstep hunhurried hf => ⟨hf.1.step hstep, hf.2.step hf.1 hstep hunhurried⟩
  obtain ⟨timer, htimer⟩ := Option.isSome_iff_exists.mp (hboth.2.beats w hw hopen)
  have hws := hboth.1.ws
  exact ⟨by rw [hws.connected, htimer]; rfl, timer, by rw [hws.intervals, htimer]; rfl⟩

/-! ### Samples -/

/-- The shell is mounted, and its socket is open; the server closes it, while the dashboard's page is opened, and the
reconnection is open again. -/
def dropped : List FeedAct :=
  [.setToken (some "token"), .mount .shell, .opened 0, .closing 0, .mount .dashboard, .closed 0, .fire 1, .opened 1]

example : (follow Feed.apply dropped {}).map (fun f => (f.ws.socket, f.ws.refs, f.ws.connected)) =
    some (some 1, 1, true) := by decide +kernel

/-- The feed leaks nothing. -/
theorem feed_contained_sample : ∃ f, follow Feed.apply dropped {} = some f ∧ Contained f := by
  have hfollow : (follow Feed.apply dropped {}).isSome = true := by decide +kernel
  obtain ⟨f, hf⟩ := Option.isSome_iff_exists.mp hfollow
  exact ⟨f, hf, feed_contained (run_of_follow hf (along_anyStep _ _))⟩

/-- It comes back. -/
theorem feed_alive_sample : ∃ f, follow Feed.apply (dropped.take 6) {} = some f ∧ FeedAlive f.ws := by
  have hfollow : ∃ f, follow Feed.apply (dropped.take 6) {} = some f ∧ f.mounted ≠ [] := by decide +kernel
  obtain ⟨f, hf, hsome⟩ := hfollow
  exact ⟨f, hf, feed_alive (.refl _) rfl (run_of_follow hf (by decide +kernel)) hsome⟩

/-- Its heartbeat goes on. -/
theorem heartbeat_kept_sample :
    ∃ f, follow Feed.apply dropped {} = some f ∧ f.ws.connected = true ∧ ∃ timer, f.ws.intervals = [timer] := by
  have hfollow : ∃ f, follow Feed.apply dropped {} = some f ∧
      f.ws.current = some ⟨.opened, "token", true⟩ := by decide +kernel
  obtain ⟨f, hf, hcurrent⟩ := hfollow
  exact ⟨f, hf, heartbeat_kept (run_of_follow hf (by decide +kernel)) hcurrent rfl⟩

/-- The dashboard's page is opened in the shell, and left. -/
def pageLeft : List FeedAct :=
  [.setToken (some "token"), .mount .shell, .opened 0, .mount .dashboard, .unmount .dashboard]

/-- The shell's feed is gone. -/
theorem not_feed_alive : ¬ ∀ f, FeedRun AnyStep {} f → f.ws.token.isSome = true → f.mounted ≠ [] → FeedAlive f.ws := by
  intro h
  have hfollow : ∃ f, follow Feed.apply pageLeft {} = some f ∧ f.ws.token.isSome = true ∧ f.mounted = [.shell] ∧
      f.ws.timeouts = [] ∧ f.ws.current = none := by decide +kernel
  obtain ⟨f, hf, htoken, hmounted, htimeouts, hcurrent⟩ := hfollow
  have hup := (h f (run_of_follow hf (along_anyStep _ _)) htoken (by simp [hmounted])).up
  simp [htimeouts, hcurrent] at hup

/-- A backtest's page is opened while the shell's socket is closing, and then that socket is closed. -/
def overtaken : List FeedAct :=
  [.setToken (some "token"), .mount .shell, .opened 0, .closing 0, .mount .backtest, .opened 1, .closed 0]

/-- The open socket has no heartbeat. -/
theorem not_heartbeat_kept : ¬ ∀ f w, FeedRun AnyStep {} f → f.ws.current = some w → w.readyState = .opened →
    f.ws.connected = true := by
  intro h
  have hfollow : ∃ f, follow Feed.apply overtaken {} = some f ∧ f.ws.current = some ⟨.opened, "token", true⟩ ∧
      f.ws.connected = false := by decide +kernel
  obtain ⟨f, hf, hcurrent, hdown⟩ := hfollow
  have hshown := h f _ (run_of_follow hf (along_anyStep _ _)) hcurrent rfl
  rw [hdown] at hshown
  cases hshown

end StratTrader.Frontend
