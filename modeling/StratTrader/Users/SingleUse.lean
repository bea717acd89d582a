import StratTrader.Foundation.OneTime
import StratTrader.Users.Mfa

/-!
# Secrets that are used once

Calls of `consume_backup_code` and of the `consume` of the single-use tokens, whose reads and
writes interleave. Each looks up a row that is not used, and then marks it: two calls that
look before either marks accept one secret twice.

## What is proved

* `accepted_at_most_once`: where a call finds a row unused only while no other call that has
  found it unused is still under way, every secret is accepted at most once.

## Honest scope

Beside the calls anything may happen that makes no used row unused, such as requests that
write other rows.
-/

namespace StratTrader.Users

open StratTrader.Brokers StratTrader.Foundation StratTrader.Foundation.OneTime

/-- A secret that may be used once, by its row. -/
inductive Secret where
  /-- A backup code. -/
  | backupCode (id : String)
  /-- A token. -/
  | token (cls : TokenClass) (hash : String)
  deriving DecidableEq

/-- No row says that the secret may be used. -/
def IsUsed (s : State) : Secret → Prop
  | .backupCode id => ∀ code, s.backupCodes.find? id = some code → code.usedAt ≠ none
  | .token cls hash => ∀ token, (s.tokens cls).find? hash = some token → token.consumedAt ≠ none

/-! ### The writes -/

theorem isUsed_markCode (s : State) (id : String) (now : ℤ) :
    let t := { s with backupCodes := s.backupCodes.modify id fun code => { code with usedAt := some now } }
    IsUsed t (.backupCode id) ∧ ∀ secret, IsUsed s secret → IsUsed t secret := by
  have hfind := Table.find?_modify (f := fun code : BackupCode => { code with usedAt := some now }) s.backupCodes id
    fun _ => rfl
  constructor
  · intro code hcode
    dsimp only at hcode
    rw [hfind id, if_pos rfl] at hcode
    obtain ⟨old, -, rfl⟩ := Option.map_eq_some_iff.mp hcode
    simp
  · intro secret hused
    cases secret with
    | token cls hash => exact hused
    | backupCode other =>
      intro code hcode
      dsimp only at hcode
      rw [hfind other] at hcode
      split_ifs at hcode
      · obtain ⟨old, -, rfl⟩ := Option.map_eq_some_iff.mp hcode
        simp
      · exact hused code hcode

theorem isUsed_markToken (s : State) (cls : TokenClass) (hash : String) (now : ℤ) :
    let t := s.setToken cls hash fun token => { token with consumedAt := some now }
    IsUsed t (.token cls hash) ∧ ∀ secret, IsUsed s secret → IsUsed t secret := by
  have hfind := Table.find?_modify (f := fun token : SingleUseToken => { token with consumedAt := some now })
    (s.tokens cls) hash fun _ => rfl
  constructor
  · intro token htoken
    simp only [State.setToken, Function.update_self] at htoken
    rw [hfind hash, if_pos rfl] at htoken
    obtain ⟨old, -, rfl⟩ := Option.map_eq_some_iff.mp htoken
    simp
  · intro secret hused
    cases secret with
    | backupCode id => exact hused
    | token cls' hash' =>
      intro token htoken
      by_cases hcls : cls' = cls
      · subst hcls
        simp only [State.setToken, Function.update_self] at htoken
        rw [hfind hash'] at htoken
        split_ifs at htoken
        · obtain ⟨old, -, rfl⟩ := Option.map_eq_some_iff.mp htoken
          simp
        · exact hused token htoken
      · simp only [State.setToken, Function.update_of_ne hcls] at htoken
        exact hused token htoken

/-! ### The calls -/

/-- What a call of `consume_backup_code` accepts. -/
def Consumed.secret : Consumed → Option Secret
  | .raises | .refused => none
  | .code id => some (.backupCode id)

/-- The calls, with what they accept for their result. -/
inductive ConsumerCall (rt : Runtime) : Prog State (Option Secret) → Prop where
  /-- A call of `consume_backup_code`. -/
  | backupCode (now : ℤ) (user : UserId) (code : String) : ConsumerCall rt (do
      let consumed ← consumeBackupCode rt now user code
      return consumed.secret)
  /-- A call of `EmailVerificationToken.consume`. -/
  | emailVerification (now : ℤ) (raw : String) : ConsumerCall rt (do
      let token ← consumeEmailVerificationToken rt now raw
      return token.map fun _ => .token .emailVerification (rt.sha256 raw))
  /-- A call of `PasswordResetToken.consume`. -/
  | passwordReset (now : ℤ) (raw : String) : ConsumerCall rt (do
      let token ← consumePasswordResetToken rt now raw
      return token.map fun _ => .token .passwordReset (rt.sha256 raw))
  /-- A call of `OAuthExchangeCode.consume`. -/
  | oauthExchange (now : ℤ) (raw : String) : ConsumerCall rt (do
      let user ← consumeOAuthExchangeCode rt now raw
      return user.map fun _ => .token .oauthExchange (rt.sha256 raw))

section
variable {rt : Runtime}

/-- `consume_backup_code` looks for an unused row, and then marks it. -/
theorem consumeBackupCode_follows (now : ℤ) (user : UserId) (code : String) :
    (consumeBackupCode rt now user code).Follows (Move IsUsed) (fun q consumed => Done q consumed.secret) .asked := by
  unfold consumeBackupCode
  dsimp only
  split_ifs
  · exact .ret rfl
  · refine Prog.Follows.atomic fun s => ?_
    split_ifs
    · exact ⟨.refused, .refuse s, rfl⟩
    · cases hmatch : matchingCode rt (normalizeBackupCode rt code) (s.unusedCodes user) with
      | none => exact ⟨.refused, .refuse s, rfl⟩
      | some found =>
        refine ⟨.found (.backupCode found.id), .find s _ ?_, ?_⟩
        · -- the row that is found is not used
          have hmem := List.mem_of_find?_eq_some hmatch
          simp only [State.unusedCodes, List.mem_filter, decide_eq_true_eq] at hmem
          intro hused
          exact hused found (Table.find?_of_mem hmem.1) hmem.2.2
        · refine .write (.accepted (.backupCode found.id)) (fun t => ?_) rfl
          have hmark := isUsed_markCode t found.id now
          exact .take t _ _ hmark.1 hmark.2

/-- `consume` looks for an unused row, and then marks it. -/
theorem consumeToken_follows (cls : TokenClass) (now : ℤ) (raw : String) :
    (consumeToken rt cls now raw).Follows (Move IsUsed)
      (fun q token => Done q (token.map fun _ => Secret.token cls (rt.sha256 raw))) .asked := by
  refine Prog.Follows.atomic fun s => ?_
  cases hfind : (s.tokens cls).find? (rt.sha256 raw) with
  | none => exact ⟨.refused, .refuse s, rfl⟩
  | some token =>
    dsimp only
    split_ifs with husable
    · exact ⟨.refused, .refuse s, rfl⟩
    · refine ⟨.found (.token cls (rt.sha256 raw)), .find s _ fun hused => ?_, ?_⟩
      · simp only [SingleUseToken.isUsable, Bool.not_eq_true', Bool.not_eq_false, Bool.and_eq_true,
          Option.isNone_iff_eq_none] at husable
        exact hused token hfind husable.1
      · refine .write (.accepted (.token cls (rt.sha256 raw))) (fun t => ?_) rfl
        have hmark := isUsed_markToken t cls token.tokenHash now
        rw [Table.key_of_find? hfind] at hmark ⊢
        exact .take t _ _ hmark.1 hmark.2

/-- The calls follow the stages of a single use. -/
theorem ConsumerCall.follows {p : Prog State (Option Secret)} (h : ConsumerCall rt p) :
    p.Follows (Move IsUsed) Done .asked := by
  cases h with
  | backupCode now user code =>
    exact (consumeBackupCode_follows now user code).bind fun q consumed hdone => .ret hdone
  | emailVerification now raw =>
    exact (consumeToken_follows .emailVerification now raw).bind fun q token hdone => .ret hdone
  | passwordReset now raw =>
    exact (consumeToken_follows .passwordReset now raw).bind fun q token hdone => .ret hdone
  | oauthExchange now raw =>
    have hconsume : (consumeOAuthExchangeCode rt now raw).Follows (Move IsUsed)
        (fun q user => Done q (user.map fun _ => Secret.token .oauthExchange (rt.sha256 raw))) .asked := by
      refine (consumeToken_follows .oauthExchange now raw).bind fun q token hdone => .ret ?_
      cases token <;> exact hdone
    exact hconsume.bind fun q user hdone => .ret hdone

/-- A call, at its beginning. -/
def ConsumerCall.call {p : Prog State (Option Secret)} (h : ConsumerCall rt p) : Call (Move IsUsed) Done :=
  ⟨p, .asked, h.follows⟩

/-- The calls that may be made. -/
def Consumes (rt : Runtime) (c : Call (Move IsUsed) Done) : Prop := ConsumerCall rt c.prog ∧ c.stage = .asked

/-- What may happen beside the calls: no used row becomes unused. -/
def KeepsUsed (s t : State) : Prop := ∀ secret, IsUsed s secret → IsUsed t secret

/-- **Every secret is accepted at most once** in a run all of whose calls find a row unused only while no
other call that has found it unused is still under way. -/
theorem accepted_at_most_once {s : State} {crowd : Crowd (Move IsUsed) Done}
    (h : Run (CrowdStep (Consumes rt) KeepsUsed) (OnStages AloneWith) ⟨s, []⟩ crowd) (secret : Secret) :
    crowd.calls.countP (fun c => decide (c.returned = some (some secret))) ≤ 1 :=
  at_most_once (fun _ hc => hc.2) (fun _ _ he => he) h secret

end

/-! ### Samples -/

/-- A call that resets the password with the token `t`. -/
def sampleCall : Call (Move IsUsed) Done := ConsumerCall.call (ConsumerCall.passwordReset 1 "t" : ConsumerCall sampleRuntime _)

/-- The row of the token `t`. -/
def sampleSecret : Secret :=
  .token .passwordReset "e3b98a4da31a127d4bde6e43033f66ba274cab0eb7eb1c70ec41402bf6273dd8"

theorem consumes_sampleCall : Consumes sampleRuntime sampleCall := ⟨.passwordReset 1 "t", rfl⟩

example : (sampleCall.prog.run sampleState).2 = some sampleSecret := by decide +kernel

/-- A call finds the row unused and accepts the token, and a second one that is made behind it finds the row used. -/
theorem accepted_at_most_once_sample :
    ∃ crowd, Run (CrowdStep (Consumes sampleRuntime) KeepsUsed) (OnStages AloneWith) ⟨sampleState, []⟩ crowd ∧
      crowd.calls.map Call.returned = [some (some sampleSecret), some none] ∧
      crowd.calls.countP (fun c => decide (c.returned = some (some sampleSecret))) ≤ 1 := by
  have hstart : Run (CrowdStep (Consumes sampleRuntime) KeepsUsed) (OnStages AloneWith) ⟨sampleState, []⟩
      ⟨sampleState, [sampleCall]⟩ := Run.single (.start sampleState [] consumes_sampleCall) trivial
  obtain ⟨c, hc, hmoves⟩ := CrowdStep.exists_moves (Consumes sampleRuntime) KeepsUsed
    (OnStages AloneWith) [] [] 2 sampleState sampleCall fun _ _ c c' _ _ => aloneWith_single c.stage c'.stage
  have hreturned : c.returned = some (some sampleSecret) := by
    unfold Call.returned
    rw [hc]
    decide +kernel
  have hfirst := (hstart.trans hmoves).step
    (.start (sampleCall.prog.runFor 2 sampleState) [c] consumes_sampleCall) trivial
  -- the first call is done, so that the second is alone
  have hdone : ∀ secret, c.stage ≠ .found secret := fun secret hfound => by
    have hnot := Call.done_of_returned hreturned
    rw [hfound] at hnot
    exact hnot
  obtain ⟨d, hd, hlook⟩ := CrowdStep.exists_moves (Consumes sampleRuntime) KeepsUsed (OnStages AloneWith) [c] [] 1
    (sampleCall.prog.runFor 2 sampleState) sampleCall fun _ _ d d' _ _ => aloneWith_pair hdone d.stage d'.stage
  have hrefused : d.returned = some none := by
    unfold Call.returned
    rw [hd]
    decide +kernel
  have hrun := hfirst.trans hlook
  exact ⟨_, hrun, by simp [hreturned, hrefused], accepted_at_most_once hrun sampleSecret⟩

/-- Two calls that both look before either marks accept the token twice. -/
theorem not_accepted_at_most_once :
    ¬ ∀ (rt : Runtime) (s : State) (crowd : Crowd (Move IsUsed) Done) (secret : Secret),
      Run (CrowdStep (Consumes rt) KeepsUsed) AnyStep ⟨s, []⟩ crowd →
      crowd.calls.countP (fun c => decide (c.returned = some (some secret))) ≤ 1 := by
  intro h
  have hstart : Run (CrowdStep (Consumes sampleRuntime) KeepsUsed) AnyStep ⟨sampleState, []⟩
      ⟨sampleState, [sampleCall, sampleCall]⟩ :=
    (Run.single (.start sampleState [] consumes_sampleCall) trivial).step
      (.start sampleState [sampleCall] consumes_sampleCall) trivial
  -- both look
  obtain ⟨a1, ha1, hlook1⟩ := CrowdStep.exists_moves (Consumes sampleRuntime) KeepsUsed AnyStep
    [] [sampleCall] 1 sampleState sampleCall fun _ _ _ _ _ _ => trivial
  obtain ⟨b1, hb1, hlook2⟩ := CrowdStep.exists_moves (Consumes sampleRuntime) KeepsUsed AnyStep
    [a1] [] 1 (sampleCall.prog.runFor 1 sampleState) sampleCall fun _ _ _ _ _ _ => trivial
  -- both mark
  obtain ⟨a2, ha2, hmark1⟩ := CrowdStep.exists_moves (Consumes sampleRuntime) KeepsUsed AnyStep
    [] [b1] 1 (sampleCall.prog.runFor 1 (sampleCall.prog.runFor 1 sampleState)) a1 fun _ _ _ _ _ _ => trivial
  obtain ⟨b2, hb2, hmark2⟩ := CrowdStep.exists_moves (Consumes sampleRuntime) KeepsUsed AnyStep
    [a2] [] 1 (a1.prog.runFor 1 (sampleCall.prog.runFor 1 (sampleCall.prog.runFor 1 sampleState))) b1
    fun _ _ _ _ _ _ => trivial
  have hrun := (((hstart.trans hlook1).trans hlook2).trans hmark1).trans hmark2
  have hcount := h _ _ _ sampleSecret hrun
  have ha : a2.returned = some (some sampleSecret) := by
    unfold Call.returned
    rw [ha2, ha1]
    decide +kernel
  have hb : b2.returned = some (some sampleSecret) := by
    unfold Call.returned
    rw [hb2, hb1, ha1]
    decide +kernel
  simp [ha, hb] at hcount

end StratTrader.Users
