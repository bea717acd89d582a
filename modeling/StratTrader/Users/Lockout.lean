import StratTrader.Users.Views

/-!
# Lockout behind proxies

Failed logins that arrive through trusted proxies. Each proxy appends the address it was
called from to `X-Forwarded-For`; what stands before is the text that the client itself has
sent. The address of the client is read from the first entry, so it is the client's own text
where the client has sent one.

Two runs of one history are compared that differ in the texts of the clients.

## What is proved

* `clientIp_request`: the address is the first entry of the text of the client, or the first proxy's
  when the client has sent none.
* `login_failed`: what `LoginView` leaves behind when a password is wrong is what `failLogin` leaves.
* `observe_eq_iff`: the decisions and the stored addresses are the same in both runs exactly when, for
  every request, the database keeps the same of that entry, or both entries have as many failures on
  record as lock a client out, so that neither is recorded.

## Honest scope

A proxy that finds no header begins one. Nothing but the failures of the history is written.
-/

namespace StratTrader.Users

open StratTrader.Brokers StratTrader.Foundation

/-- A failed login, but for what the client sent for `X-Forwarded-For`. -/
structure Attempt where
  /-- The address that was signed in with. -/
  email : String
  /-- `timezone.now()`. -/
  now : ℤ
  /-- What the first proxy appends: the address of the client. -/
  hop : String
  /-- What the other proxies append, in order. -/
  hops : List String
  /-- `REMOTE_ADDR`: the address of the last proxy. -/
  remoteAddr : Option String
  /-- The client has an address. -/
  hop_ne : hop ≠ ""

/-- A proxy appends a hop. -/
def appendHop (header : Option String) (hop : String) : String :=
  match header with
  | none => hop
  | some text => text ++ ", " ++ hop

/-- The header that arrives, where the client has sent `text`. -/
def Attempt.forwardedFor (a : Attempt) (text : Option String) : String :=
  a.hops.foldl (fun header hop => appendHop (some header) hop) (appendHop text a.hop)

/-- The request that arrives. -/
def Attempt.request (a : Attempt) (text : Option String) : RequestMeta := ⟨some (a.forwardedFor text), a.remoteAddr⟩

/-- The entry that is taken for the address of the client: the first of its own text, if it has sent one. -/
def Attempt.entry (a : Attempt) (text : Option String) : String := firstHop (text.getD a.hop)

section
variable (rt : Runtime) (settings : Settings)

/-- `LoginView.post`, with a password that is wrong: the decision whether it is locked, which is recorded no
further; `none` is an exception. -/
def failLogin (a : Attempt) (text : Option String) : Prog State (Option Bool) := do
  match ← isLocked rt settings a.now a.email (clientIp (a.request text)) with
  | none => return none
  | some true => return some true
  | some false =>
    let _ ← recordFailedLogin rt a.now a.email (a.request text)
    return some false

/-- The addresses of the failures that a request has added. -/
def addedIps (s t : State) : List (Option String) :=
  (t.failedLogins.drop s.failedLogins.length).map FailedLoginAttempt.ip

/-- What is seen of a history: for each request the decision whether it is locked, and the address that
is stored. -/
def observe : State → List (Attempt × Option String) → List (Option Bool × List (Option String))
  | _, [] => []
  | s, (a, text) :: history =>
    let (next, decision) := (failLogin rt settings a text).run s
    (decision, addedIps s next) :: observe next history

/-- As many failures of the account are on record, since the window has begun, as lock a client with the address
out. -/
def Attempt.isLockedOut (a : Attempt) (s : State) (column : Option String) : Bool :=
  decide (settings.lockoutThreshold ≤ s.failedLogins.countP fun attempt =>
    decide (attempt.email = a.email ∧ a.now - settings.lockoutWindow ≤ attempt.occurredAt) &&
      (column.isNone || decide (attempt.ip = column)))

/-- Two texts of a client that make no difference: the database keeps the same of the entries, or both are
locked out. -/
def Attempt.Alike (a : Attempt) (s : State) (text text' : Option String) : Prop :=
  storeIp rt (some (a.entry text)) = storeIp rt (some (a.entry text')) ∨
    ∃ column column', storeIp rt (some (a.entry text)) = some column ∧
      storeIp rt (some (a.entry text')) = some column' ∧
      a.isLockedOut settings s column = true ∧ a.isLockedOut settings s column' = true

/-- The two texts of every request make no difference, in the state that the requests before have left. -/
def AllAlike : State → List (Attempt × Option String × Option String) → Prop
  | _, [] => True
  | s, (a, text, text') :: history =>
    a.Alike rt settings s text text' ∧ AllAlike ((failLogin rt settings a text).run s).1 history

end

/-! ### The entry -/

theorem firstHop_append (s t : String) : firstHop (s ++ ", " ++ t) = firstHop s := by
  have hcomma : ", ".toList = [',', ' '] := rfl
  unfold firstHop
  rw [String.toList_append, String.toList_append, hcomma, List.append_assoc, List.takeWhile_append]
  split_ifs with hall
  · rw [List.cons_append, List.takeWhile_cons_of_neg (by simp), List.append_nil,
      (List.takeWhile_prefix _).eq_of_length hall]
  · rfl

theorem firstHop_foldl (hops : List String) (header : String) :
    firstHop (hops.foldl (fun header hop => appendHop (some header) hop) header) = firstHop header := by
  induction hops generalizing header with
  | nil => rfl
  | cons hop hops ih => rw [List.foldl_cons, ih, appendHop, firstHop_append]

theorem foldl_appendHop_ne {header : String} (h : header ≠ "") (hops : List String) :
    hops.foldl (fun header hop => appendHop (some header) hop) header ≠ "" := by
  induction hops generalizing header with
  | nil => exact h
  | cons hop hops ih =>
    apply ih
    unfold appendHop
    simp

/-- **The address of a client is the first entry of its own text**, if it has sent one. -/
theorem clientIp_request (a : Attempt) (text : Option String) : clientIp (a.request text) = some (a.entry text) := by
  have hne : a.forwardedFor text ≠ "" := by
    refine foldl_appendHop_ne ?_ a.hops
    cases text with
    | none => exact a.hop_ne
    | some text => simp [appendHop]
  unfold clientIp Attempt.request Attempt.entry
  dsimp only
  rw [if_pos hne, Attempt.forwardedFor, firstHop_foldl]
  cases text with
  | none => rfl
  | some text => rw [appendHop, firstHop_append, Option.getD_some]

/-! ### One request -/

section
variable {rt : Runtime} {settings : Settings}

/-- What the database keeps of the address of a request. -/
def Attempt.column (rt : Runtime) (a : Attempt) (text : Option String) : Option (Option String) :=
  storeIp rt (some (a.entry text))

/-- **What a failed login decides and writes**: it writes only where it is not locked out. -/
theorem failLogin_run (a : Attempt) (text : Option String) (s : State) :
    (failLogin rt settings a text).run s = match a.column rt text with
      | none => (s, none)
      | some column =>
        if a.isLockedOut settings s column then (s, some true)
        else ({ s with failedLogins := s.failedLogins ++ [⟨a.email, column, a.now⟩] }, some false) := by
  unfold failLogin isLocked recordFailedLogin
  rw [clientIp_request]
  unfold Attempt.column
  cases storeIp rt (some (a.entry text)) with
  | none => rfl
  | some column =>
    dsimp only
    rw [Prog.run_bind]
    change Prog.run (match some (a.isLockedOut settings s column) with
      | none => return none
      | some true => return some true
      | some false => _) s = _
    cases a.isLockedOut settings s column <;> rfl

/-- The address that is stored. -/
theorem addedIps_failLogin (a : Attempt) (text : Option String) (s : State) :
    addedIps s ((failLogin rt settings a text).run s).1 = match a.column rt text with
      | none => []
      | some column => if a.isLockedOut settings s column then [] else [column] := by
  have hsame : addedIps s s = [] := by
    unfold addedIps
    rw [List.drop_length]
    rfl
  rw [failLogin_run]
  cases a.column rt text with
  | none => exact hsame
  | some column =>
    dsimp only
    split_ifs
    · exact hsame
    · unfold addedIps
      rw [List.drop_left]
      rfl

/-- What is seen of one request is the same exactly when the texts make no difference. -/
theorem Attempt.alike_iff (a : Attempt) (s : State) (text text' : Option String) :
    a.Alike rt settings s text text' ↔
      (((failLogin rt settings a text).run s).2 = ((failLogin rt settings a text').run s).2 ∧
      addedIps s ((failLogin rt settings a text).run s).1 = addedIps s ((failLogin rt settings a text').run s).1) := by
  rw [addedIps_failLogin, addedIps_failLogin, failLogin_run, failLogin_run]
  unfold Attempt.Alike
  change a.column rt text = a.column rt text' ∨ (∃ column column', a.column rt text = some column ∧
    a.column rt text' = some column' ∧ _) ↔ _
  cases a.column rt text with
  | none =>
    cases a.column rt text' with
    | none => simp
    | some column' => cases hlocked' : a.isLockedOut settings s column' <;> simp [hlocked']
  | some column =>
    cases a.column rt text' with
    | none => cases hlocked : a.isLockedOut settings s column <;> simp [hlocked]
    | some column' =>
      by_cases hsame : column = column'
      · rw [hsame]
        simp
      · cases hlocked : a.isLockedOut settings s column <;>
          cases hlocked' : a.isLockedOut settings s column' <;> simp [hlocked, hlocked', hsame]

/-- Texts that make no difference lead to one state. -/
theorem Attempt.Alike.run_eq {a : Attempt} {s : State} {text text' : Option String}
    (h : a.Alike rt settings s text text') :
    ((failLogin rt settings a text).run s).1 = ((failLogin rt settings a text').run s).1 := by
  rw [failLogin_run, failLogin_run]
  obtain hsame | ⟨column, column', hcolumn, hcolumn', hlocked, hlocked'⟩ := h
  · rw [show a.column rt text = a.column rt text' from hsame]
  · rw [show a.column rt text = some column from hcolumn, show a.column rt text' = some column' from hcolumn']
    simp [hlocked, hlocked']

/-- **`LoginView` with a wrong password** leaves behind what `failLogin` leaves. -/
theorem login_failed (a : Attempt) (text : Option String) {env : ViewEnv} (hlimited : env.limited = false)
    (hnow : env.now = a.now) (hrequest : env.request = a.request text) {data : LoginData} (hemail : data.email = a.email)
    {s : State} (hwrong : authenticate rt data s = none) :
    ((login rt settings env (.ok data)).run s).1 = ((failLogin rt settings a text).run s).1 := by
  have hread : ∀ s, ((isLocked rt settings a.now a.email (clientIp (a.request text))).run s).1 = s := fun s => by
    unfold isLocked
    cases storeIp rt (clientIp (a.request text)) <;> rfl
  unfold login failLogin
  rw [hlimited, hnow, hrequest]
  dsimp only
  rw [hemail]
  simp only [Bool.false_eq_true, if_false, Prog.run_bind, hread]
  cases ((isLocked rt settings a.now a.email (clientIp (a.request text))).run s).2 with
  | none => rfl
  | some locked =>
    cases locked with
    | true => rfl
    | false =>
      simp only [Prog.run_bind]
      rw [show (Prog.read (authenticate rt data)).run s = (s, authenticate rt data s) from rfl, hwrong]
      simp only [Prog.run_bind]
      -- the second look at the lockout changes nothing, whatever it says
      cases ((recordFailedLogin rt a.now a.email (a.request text)).run s).2 with
      | false => rfl
      | true =>
        simp only [Bool.not_true, Bool.false_eq_true, if_false, Prog.run_bind]
        cases ((isLocked rt settings a.now a.email (clientIp (a.request text))).run
            ((recordFailedLogin rt a.now a.email (a.request text)).run s).1).2 <;> exact hread _

/-! ### Two runs -/

/-- **Two runs of a history are alike exactly when the texts of every request make no difference.** -/
theorem observe_eq_iff (rt : Runtime) (settings : Settings) (s : State)
    (history : List (Attempt × Option String × Option String)) :
    observe rt settings s (history.map fun h => (h.1, h.2.1)) =
        observe rt settings s (history.map fun h => (h.1, h.2.2)) ↔
      AllAlike rt settings s history := by
  induction history generalizing s with
  | nil => exact iff_of_true rfl trivial
  | cons h history ih =>
    obtain ⟨a, text, text'⟩ := h
    simp only [List.map_cons, observe, AllAlike, List.cons.injEq, Prod.mk.injEq]
    rw [← a.alike_iff]
    refine and_congr_right fun halike => ?_
    rw [← halike.run_eq]
    exact ih _

end

/-! ### Samples -/

/-- A failed login through one proxy. -/
def sampleAttempt : Attempt where
  email := "u@example.com"
  now := 1
  hop := "203.0.113.7"
  hops := []
  remoteAddr := some "10.0.0.1"
  hop_ne := by decide

/-- Ten failed logins from the address. -/
def lockedState : State :=
  { sampleState with failedLogins := List.replicate 10 ⟨"u@example.com", some "203.0.113.7", 1⟩ }

/-- Ten failed logins from each of two addresses. -/
def bothLockedState : State :=
  { sampleState with failedLogins := lockedState.failedLogins ++ List.replicate 10 ⟨"u@example.com", some "198.51.100.1", 1⟩ }

/-- What follows the first entry has no influence; nor has the entry where both are locked out. -/
theorem observe_eq_iff_sample :
    observe sampleRuntime sampleSettings bothLockedState
        [(sampleAttempt, some "192.0.2.1, 192.0.2.2"), (sampleAttempt, none)] =
      observe sampleRuntime sampleSettings bothLockedState
        [(sampleAttempt, some " 192.0.2.1"), (sampleAttempt, some "198.51.100.1")] :=
  (observe_eq_iff _ _ _ [(sampleAttempt, some "192.0.2.1, 192.0.2.2", some " 192.0.2.1"),
    (sampleAttempt, none, some "198.51.100.1")]).mpr
    ⟨.inl (by decide), .inr ⟨_, _, rfl, rfl, by decide +kernel, by decide +kernel⟩, trivial⟩

/-- A client that is locked out signs in with another first entry. -/
theorem not_observe_eq :
    ¬ ∀ (rt : Runtime) (settings : Settings) (s : State) (history : List (Attempt × Option String × Option String)),
      observe rt settings s (history.map fun h => (h.1, h.2.1)) =
        observe rt settings s (history.map fun h => (h.1, h.2.2)) := by
  intro h
  have heq := h sampleRuntime sampleSettings lockedState [(sampleAttempt, none, some "198.51.100.1")]
  revert heq
  decide +kernel

end StratTrader.Users
