import StratTrader.Foundation.Purge
import StratTrader.Users.Views

/-!
# Whether the second factor is asked for

Requests to the views of `Users.Views` in any order, beside which anything may happen. The
pair is issued by one function, and whether the second factor has been given is for its
callers to see: `LoginView` asks for it and `MFAVerifyView` compares it, and `VerifyEmailView`
and `PasswordResetConfirmView` issue a pair for a single-use token alone.

## What is proved

* `guarded_iff`: with `MFA_ENABLED` on, no pair is issued past the second factor in a sequence of
  requests exactly when no request of it presents a usable token of a user who has a verified
  device to one of the two views.

## Honest scope

A request is handled with nothing in between. What happens between two requests is
arbitrary: enrolling, and requests to other views, may leave any state. Whether a user has a
verified device is asked of the state before the request: no view here writes a device.
-/

namespace StratTrader.Users

open StratTrader.Brokers StratTrader.Foundation

/-- The requests. -/
inductive Request where
  /-- `RegisterView.post`. -/
  | register (env : ViewEnv) (body : Except Invalid RegisterData)
  /-- `VerifyEmailView.post`. -/
  | verifyEmail (env : ViewEnv) (body : Except Invalid String)
  /-- `LoginView.post`. -/
  | login (env : ViewEnv) (body : Except Invalid LoginData)
  /-- `MFAVerifyView.post`. -/
  | mfaVerify (env : ViewEnv) (body : Except Invalid MFAVerifyData)
  /-- `PasswordResetView.post`. -/
  | passwordReset (env : ViewEnv) (body : Except Invalid String)
  /-- `PasswordResetConfirmView.post`. -/
  | passwordResetConfirm (env : ViewEnv) (body : Except Invalid ResetConfirmData)

/-- What happens. -/
inductive Event where
  /-- A request. -/
  | request (request : Request)
  /-- Anything else: the state becomes another. -/
  | outside (state : State)

section
variable (rt : Runtime) (settings : Settings)

/-- The view that a request goes to. -/
def Request.view : Request → Prog State (Option Response)
  | .register env body => Users.register rt env body
  | .verifyEmail env body => Users.verifyEmail rt env body
  | .login env body => Users.login rt settings env body
  | .mfaVerify env body => Users.mfaVerify rt settings env body
  | .passwordReset env body => Users.passwordReset rt env body
  | .passwordResetConfirm env body => Users.passwordResetConfirm rt env body

/-- What comes of an event: the state, and the answer. -/
def handle (s : State) : Event → State × Option Response
  | .request request => (request.view rt settings).run s
  | .outside t => (t, none)

/-- The user that a pair is issued to. -/
def issuedTo : Option Response → Option UserId
  | some (.pair pair) => some pair.user
  | some (.fail _ _ _) | some (.ok _) | some (.mfaRequired _) | none => none

/-- A code is one of the user: of the verified device, or a backup code that is not used. -/
def IsCodeOf (s : State) (now : ℤ) (user : UserId) (code : String) : Prop :=
  (∃ device, s.verifiedDevice user = some device ∧ verifyTotp rt now device.secret code = true) ∨
    (matchingCode rt (normalizeBackupCode rt code) (s.unusedCodes user)).isSome

/-- An event gives a code of the user. -/
def GivesCodeOf (s : State) (user : UserId) : Event → Prop
  | .request (.mfaVerify env (.ok data)) => IsCodeOf rt s env.now user data.code
  | .request _ | .outside _ => False

/-- A pair is issued to a user who has a verified device only for a code of the user. -/
def Guarded (s : State) (e : Event) : Prop :=
  ∀ user, issuedTo (handle rt settings s e).2 = some user → s.mfaEnabled user = true → GivesCodeOf rt s user e

/-- The token of a table that may be used. -/
def State.usableToken (s : State) (cls : TokenClass) (now : ℤ) (raw : String) : Option SingleUseToken :=
  ((s.tokens cls).find? (rt.sha256 raw)).filter (SingleUseToken.isUsable now)

/-- The address of the client is one that the database takes. -/
def hasStorableIp (env : ViewEnv) : Bool := (storeIp rt (clientIp env.request)).isSome

/-- An event presents a usable token of a user who has a verified device. -/
def PresentsToken (s : State) : Event → Prop
  | .request (.verifyEmail env (.ok raw)) =>
    ∃ token, s.usableToken rt .emailVerification env.now raw = some token ∧ s.mfaEnabled token.user = true ∧
      hasStorableIp rt env = true
  | .request (.passwordResetConfirm env (.ok data)) =>
    ∃ token, s.usableToken rt .passwordReset env.now data.token = some token ∧ s.mfaEnabled token.user = true ∧
      (s.users.find? token.user).isSome ∧ hasStorableIp rt env = true
  | .request _ | .outside _ => False

end

/-! ### To whom the views issue pairs -/

section
variable {rt : Runtime} {settings : Settings} {env : ViewEnv}

theorem issuedTo_pairResponse (user : UserId) (s : State) :
    issuedTo ((pairResponse rt env user).run s).2 = if hasStorableIp rt env then some user else none := by
  unfold pairResponse issueTokenPair hasStorableIp
  cases storeIp rt (clientIp env.request) <;> rfl

/-- `consume` gives the token that may be used, and leaves the users and the devices alone. -/
theorem consumeToken_run (rt : Runtime) (cls : TokenClass) (now : ℤ) (raw : String) (s : State) :
    (((consumeToken rt cls now raw).run s).2).map SingleUseToken.user =
        (s.usableToken rt cls now raw).map SingleUseToken.user ∧
      ((consumeToken rt cls now raw).run s).1.users = s.users := by
  unfold consumeToken State.usableToken
  rw [Prog.read_bind, Prog.run_act]
  cases (s.tokens cls).find? (rt.sha256 raw) with
  | none => exact ⟨rfl, rfl⟩
  | some token =>
    cases husable : token.isUsable now with
    | false => simp [husable]
    | true => simp [husable, Prog.write, State.setToken]

theorem issuedTo_register (body : Except Invalid RegisterData) (s : State) :
    issuedTo ((register rt env body).run s).2 = none := by
  unfold register
  split_ifs
  · rfl
  · cases body with
    | error invalid => cases invalid <;> rfl
    | ok data =>
      unfold createUser
      dsimp only
      rw [Prog.atomic_bind, Prog.run_act]
      split_ifs <;> rfl

theorem issuedTo_passwordReset (body : Except Invalid String) (s : State) :
    issuedTo ((passwordReset rt env body).run s).2 = none := by
  unfold passwordReset
  split_ifs
  · rfl
  · cases body with
    | error invalid => cases invalid <;> rfl
    | ok email =>
      dsimp only
      rw [Prog.read_bind, Prog.run_act]
      cases s.userByEmail email <;> rfl

/-- `VerifyEmailView` issues a pair to the user of the token. -/
theorem issuedTo_verifyEmail (raw : String) (s : State) :
    issuedTo ((verifyEmail rt env (.ok raw)).run s).2 =
      if hasStorableIp rt env then (s.usableToken rt .emailVerification env.now raw).map SingleUseToken.user
      else none := by
  unfold verifyEmail consumeEmailVerificationToken
  rw [Prog.run_bind]
  obtain ⟨hconsume, -⟩ := consumeToken_run rt .emailVerification env.now raw s
  rw [← hconsume]
  cases ((consumeToken rt .emailVerification env.now raw).run s).2 with
  | none => simp [issuedTo]
  | some token =>
    dsimp only
    rw [Prog.run_bind, issuedTo_pairResponse]
    rfl

/-- `PasswordResetConfirmView` does so too. -/
theorem issuedTo_passwordResetConfirm (data : ResetConfirmData) (s : State) :
    issuedTo ((passwordResetConfirm rt env (.ok data)).run s).2 =
      if hasStorableIp rt env then
        ((s.usableToken rt .passwordReset env.now data.token).map SingleUseToken.user).filter fun user =>
          (s.users.find? user).isSome
      else none := by
  unfold passwordResetConfirm consumePasswordResetToken
  rw [Prog.run_bind]
  obtain ⟨hconsume, husers⟩ := consumeToken_run rt .passwordReset env.now data.token s
  rw [← hconsume]
  cases ((consumeToken rt .passwordReset env.now data.token).run s).2 with
  | none => simp [issuedTo]
  | some token =>
    dsimp only
    rw [Prog.read_bind, Prog.run_act, id, husers]
    cases hfound : s.users.find? token.user with
    | none => simp [issuedTo, Option.filter, hfound]
    | some user =>
      simp only [Prog.run_bind, issuedTo_pairResponse]
      simp [Option.filter, hfound, Table.key_of_find? hfound]

theorem isLocked_state (now : ℤ) (email : String) (ip : Option String) (s : State) :
    ((isLocked rt settings now email ip).run s).1 = s := by
  unfold isLocked
  cases storeIp rt ip <;> rfl

/-- `LoginView` issues no pair to a user with a verified device. -/
theorem not_mfaEnabled_of_login (hon : settings.mfaEnabled = true) {body : Except Invalid LoginData} {s : State}
    {user : UserId} (h : issuedTo ((login rt settings env body).run s).2 = some user) :
    s.mfaEnabled user = false := by
  unfold login at h
  split_ifs at h
  · cases h
  · cases body with
    | error invalid => cases invalid <;> cases h
    | ok data =>
      dsimp only at h
      rw [Prog.run_bind, isLocked_state] at h
      generalize ((isLocked rt settings env.now data.email (clientIp env.request)).run s).2 = locked at h
      rcases locked with _ | _ | _
      · cases h
      · dsimp only at h
        rw [Prog.read_bind, Prog.run_act, id] at h
        cases hauth : authenticate rt data s with
        | none =>
          rw [hauth] at h
          dsimp only at h
          rw [Prog.run_bind] at h
          split_ifs at h
          · cases h
          · rw [Prog.run_bind] at h
            split at h <;> cases h
        | some found =>
          rw [hauth] at h
          dsimp only at h
          unfold loginUser at h
          split_ifs at h
          · cases h
          · rw [Prog.run_bind, Prog.read_bind, Prog.run_act] at h
            split_ifs at h with henabled
            · cases h
            · rw [issuedTo_pairResponse] at h
              split_ifs at h
              obtain rfl := Option.some.inj h
              change ¬ (settings.mfaEnabled && s.mfaEnabled found.id) = true at henabled
              simpa [hon] using henabled
      · cases h

theorem issuedTo_wrongCode (user : UserId) (jti : String) (s : State) :
    issuedTo ((wrongCode settings user jti).run s).2 = none := by
  unfold wrongCode
  rw [Prog.run_bind]
  split_ifs
  · rfl
  · rw [Prog.run_bind]
    split_ifs <;> rfl

theorem issuedTo_rightCode (user : UserId) (jti : String) (s : State) :
    issuedTo ((rightCode rt env user jti).run s).2 = if hasStorableIp rt env then some user else none := by
  unfold rightCode
  rw [Prog.run_bind]
  split_ifs <;> simp [Prog.run_bind, issuedTo_pairResponse, *]

/-- A backup code that is consumed is one of the user that was not used. -/
theorem matchingCode_of_consumed {now : ℤ} {user : UserId} {code id : String} {s : State}
    (h : ((consumeBackupCode rt now user code).run s).2 = .code id) :
    (matchingCode rt (normalizeBackupCode rt code) (s.unusedCodes user)).isSome := by
  unfold consumeBackupCode at h
  dsimp only at h
  split_ifs at h
  · cases h
  · rw [Prog.read_bind, Prog.run_act] at h
    split_ifs at h
    · cases h
    · cases hmatch : matchingCode rt (normalizeBackupCode rt code) (s.unusedCodes user) with
      | none =>
        rw [hmatch] at h
        cases h
      | some found => rfl

/-- The code is compared before a pair is issued. -/
theorem isCodeOf_of_compareCode {data : MFAVerifyData} {user issued : UserId} {device : MFADevice} {jti : String}
    {s : State} (hdevice : s.verifiedDevice user = some device)
    (h : issuedTo ((compareCode rt settings env data user device jti).run s).2 = some issued) :
    issued = user ∧ IsCodeOf rt s env.now user data.code := by
  unfold compareCode at h
  split_ifs at h with hbackup htotp
  · rw [Prog.run_bind] at h
    cases hconsumed : ((consumeBackupCode rt env.now user data.code).run s).2 with
    | raises =>
      rw [hconsumed] at h
      cases h
    | refused =>
      rw [hconsumed] at h
      dsimp only at h
      rw [issuedTo_wrongCode] at h
      cases h
    | code id =>
      rw [hconsumed] at h
      dsimp only at h
      rw [issuedTo_rightCode] at h
      split_ifs at h
      exact ⟨(Option.some.inj h).symm, .inr (matchingCode_of_consumed hconsumed)⟩
  · rw [issuedTo_rightCode] at h
    split_ifs at h
    exact ⟨(Option.some.inj h).symm, .inl ⟨device, hdevice, htotp⟩⟩
  · rw [issuedTo_wrongCode] at h
    cases h

theorem isBurned_state (jti : String) (s : State) : ((isBurned jti).run s).1 = s := by
  unfold isBurned
  split_ifs <;> rfl

/-- `MFAVerifyView` issues a pair only for a code of the user. -/
theorem isCodeOf_of_mfaVerify {body : Except Invalid MFAVerifyData} {s : State} {user : UserId}
    (h : issuedTo ((mfaVerify rt settings env body).run s).2 = some user) :
    ∃ data, body = .ok data ∧ IsCodeOf rt s env.now user data.code := by
  unfold mfaVerify at h
  split_ifs at h
  · cases h
  · cases h
  · cases body with
    | error invalid => cases h
    | ok data =>
      refine ⟨data, rfl, ?_⟩
      dsimp only at h
      cases hdecode : rt.decodeMfaToken data.mfaToken env.now with
      | error message =>
        rw [hdecode] at h
        cases h
      | ok claims =>
        obtain ⟨userId, jti⟩ := claims
        rw [hdecode] at h
        dsimp only at h
        rw [Prog.run_bind, isBurned_state] at h
        split_ifs at h
        · cases h
        · rw [cacheGet, Prog.read_bind, Prog.run_act, id] at h
          split_ifs at h
          · cases h
          · rw [Prog.read_bind, Prog.run_act, id] at h
            cases hfound : s.mfaUser userId with
            | none =>
              rw [hfound] at h
              cases h
            | some found =>
              obtain ⟨found, device⟩ := found
              rw [hfound] at h
              dsimp only at h
              cases hdevice : device.filter fun _ => found.isActive with
              | none =>
                rw [hdevice] at h
                cases h
              | some verified =>
                rw [hdevice] at h
                dsimp only at h
                obtain ⟨row, -, heq⟩ := Option.map_eq_some_iff.mp hfound
                obtain ⟨rfl, rfl⟩ := Prod.mk.inj heq
                have hverified := (Option.filter_eq_some_iff.mp hdevice).1
                obtain ⟨rfl, hcode⟩ := isCodeOf_of_compareCode hverified h
                exact hcode

/-- One event is guarded exactly when it presents no token of a user with a verified device. -/
theorem guarded_step (hon : settings.mfaEnabled = true) (s : State) (e : Event) :
    Guarded rt settings s e ↔ ¬ PresentsToken rt s e := by
  have hnone : issuedTo (handle rt settings s e).2 = none → Guarded rt settings s e := fun h user hissued => by
    rw [h] at hissued
    cases hissued
  cases e with
  | outside t => exact iff_of_true (hnone rfl) id
  | request request =>
    cases request with
    | register env body => exact iff_of_true (hnone (issuedTo_register body s)) id
    | passwordReset env body => exact iff_of_true (hnone (issuedTo_passwordReset body s)) id
    | login env body =>
      refine iff_of_true (fun user hissued henabled => ?_) id
      rw [not_mfaEnabled_of_login hon hissued] at henabled
      cases henabled
    | mfaVerify env body =>
      refine iff_of_true (fun user hissued _ => ?_) id
      obtain ⟨data, rfl, hcode⟩ := isCodeOf_of_mfaVerify hissued
      exact hcode
    | verifyEmail env body =>
      cases body with
      | error invalid => exact iff_of_true (hnone rfl) id
      | ok raw =>
        unfold Guarded
        rw [handle, Request.view, issuedTo_verifyEmail]
        constructor
        · rintro hguarded ⟨token, htoken, henabled, hip⟩
          exact hguarded token.user (by simp [htoken, hip]) henabled
        · intro hpresents user hissued henabled
          split_ifs at hissued with hip
          obtain ⟨token, htoken, rfl⟩ := Option.map_eq_some_iff.mp hissued
          exact (hpresents ⟨token, htoken, henabled, hip⟩).elim
    | passwordResetConfirm env body =>
      cases body with
      | error invalid => exact iff_of_true (hnone (by cases invalid <;> rfl)) id
      | ok data =>
        unfold Guarded
        rw [handle, Request.view, issuedTo_passwordResetConfirm]
        constructor
        · rintro hguarded ⟨token, htoken, henabled, hfound, hip⟩
          exact hguarded token.user (by simp [htoken, hip, Option.filter, hfound]) henabled
        · intro hpresents user hissued henabled
          split_ifs at hissued with hip
          obtain ⟨hissued, hfound⟩ := Option.filter_eq_some_iff.mp hissued
          obtain ⟨token, htoken, rfl⟩ := Option.map_eq_some_iff.mp hissued
          exact (hpresents ⟨token, htoken, henabled, hfound, hip⟩).elim

/-- **No pair is issued past the second factor** in a sequence of requests exactly when none of them presents
a usable token of a user with a verified device. -/
theorem guarded_iff (hon : settings.mfaEnabled = true) (s : State) (events : List Event) :
    AtEach (handle rt settings) (Guarded rt settings) s events ↔
      AtEach (handle rt settings) (fun s e => ¬ PresentsToken rt s e) s events :=
  AtEach.congr (guarded_step hon) s events

end

/-! ### Samples -/

/-- An environment of a request. -/
def sampleViewEnv : ViewEnv := ⟨false, 1, ⟨none, some "203.0.113.7"⟩, ⟨"f", "j1"⟩, "w", "v", "c"⟩

/-- A request that resets the password with the token `t`. -/
def sampleReset : Event := .request (.passwordResetConfirm sampleViewEnv (.ok ⟨"t", "a new password"⟩))

/-- A request that completes the challenge `u/j` with the right code. -/
def sampleChallenge : Event := .request (.mfaVerify sampleViewEnv (.ok ⟨"u/j", "123456", false⟩))

/-- Completing the challenge issues a pair, completing it again issues another, and both are guarded. -/
theorem guarded_iff_sample :
    issuedTo (handle sampleRuntime sampleSettings sampleState sampleChallenge).2 = some "u" ∧
      issuedTo (handle sampleRuntime sampleSettings
        (handle sampleRuntime sampleSettings sampleState sampleChallenge).1 sampleChallenge).2 = some "u" ∧
      AtEach (handle sampleRuntime sampleSettings) (Guarded sampleRuntime sampleSettings) sampleState
        [sampleChallenge, sampleChallenge] :=
  ⟨by decide +kernel, by decide +kernel, (guarded_iff rfl sampleState _).mpr ⟨id, id, trivial⟩⟩

/-- The token of a password reset signs a user in who has a verified device. -/
theorem not_guarded :
    ¬ ∀ (rt : Runtime) (settings : Settings) (s : State) (events : List Event), settings.mfaEnabled = true →
      AtEach (handle rt settings) (Guarded rt settings) s events := by
  intro h
  have hguarded := (h sampleRuntime sampleSettings sampleState [sampleReset] rfl).1
  exact hguarded "u" (by decide +kernel) (by decide +kernel)

end StratTrader.Users
