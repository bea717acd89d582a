import StratTrader.Foundation.Capped
import StratTrader.Users.Views

/-!
# Guessing codes

Calls of `MFAVerifyView.post`, or of `verify_mfa_code`, for one user, whose uses of the
database and of the cache interleave. Each looks at the user's counter of failures, compares
the code, and counts the failure afterwards, with a key that is set to one where there is
none. Calls made at the same time all pass the look, and two of them may lose a failure.

## What is proved

* `guesses_capped`: where a call passes the look only while the calls that have passed it and
  are not counted leave room below the maximum, and finds no key only while no other call that
  has found none is about to set it, at most so many codes are compared as the maximum allows,
  and every completed wrong attempt has been counted.

## Honest scope

No code is right, no call is killed, and the key does not expire: one window. Beside the calls
anything may happen that leaves the key alone, such as calls for other users.
-/

namespace StratTrader.Users

open StratTrader.Brokers StratTrader.Foundation StratTrader.Foundation.Capped

/-- Where codes are given. -/
inductive Door where
  /-- `MFAVerifyView.post`. -/
  | login
  /-- `verify_mfa_code`. -/
  | stepup
  deriving DecidableEq

/-- The key of the user's failures. -/
def Door.key (user : UserId) : Door → String
  | .login => loginFailKey user
  | .stepup => stepupFailKey user

/-- `max_failures`. -/
def Door.max (settings : Settings) : Door → ℕ
  | .login => settings.mfaLoginMaxFailures
  | .stepup => settings.mfaStepupMaxFailures

/-- The user's counter of failures. -/
def failures (user : UserId) (door : Door) (s : State) : Option ℕ := s.cache (door.key user)

/-- A call that has ended and has compared a code has been counted, unless the code was right. -/
def CountedAtEnd (q : Stage) (_ : PUnit) : Prop := q.hasTried = true → q = .counted

/-- The calls for a user: the challenge is one of the user, or the user is the one who is asked again. -/
inductive GuessCall (rt : Runtime) (settings : Settings) (user : UserId) : Door → Prog State PUnit → Prop where
  /-- A call of `MFAVerifyView.post`. -/
  | login (env : ViewEnv) (data : MFAVerifyData) (jti : String)
    (h : rt.decodeMfaToken data.mfaToken env.now = .ok (user, jti)) : GuessCall rt settings user .login (do
      let _ ← mfaVerify rt settings env (.ok data)
      return)
  /-- A call of `verify_mfa_code`. -/
  | stepup (now : ℤ) (code : String) : GuessCall rt settings user .stepup (do
      let _ ← verifyMfaCode rt settings now user code
      return)

/-! ### Following the stages -/

section
variable {rt : Runtime} {settings : Settings} {α : Type} {user : UserId} {door : Door} {max : ℕ}
  {done : Stage → α → Prop}

/-- Counting a failure. -/
theorem countFailure_follows (door : Door) {f : ℕ → Prog State α}
    (hf : ∀ n, (f n).Follows (Move (failures user door) max) done .counted) :
    (countFailure (door.key user) >>= f).Follows (Move (failures user door) max) done .tried := by
  intro s
  cases hcount : s.cache (door.key user) with
  | some n =>
    refine ⟨.counted, .increment s _ n hcount (by simp [failures, hcount]), ?_⟩
    simp only [hcount, Option.map_some]
    exact hf (n + 1)
  | none =>
    refine ⟨.missed, .miss s _ hcount (by simp [failures, hcount]), ?_⟩
    simp only [hcount, Option.map_none]
    intro t
    exact ⟨.counted, .set t _ (by simp [failures]), hf 1⟩

theorem keeps_countFailure {key : String} (hkey : door.key user ≠ key) :
    (countFailure key).Always fun s t => failures user door t = failures user door s := by
  unfold countFailure
  refine Prog.Always.bind (.atomic fun s => by simp [failures, hkey]) fun current => ?_
  cases current with
  | some n => exact .ret _
  | none => exact Prog.Always.bind (.atomic fun s => by simp [failures, hkey]) fun _ => .ret _

/-- The stage after a backup code has been compared. -/
def AfterConsume (q : Stage) : Consumed → Prop
  | .code _ => q = .right
  | .raises => q = .refused
  | .refused => q = .tried

/-- A backup code is compared after the stage of a try has been entered, and it may be right. -/
theorem consumeBackupCode_tried (now : ℤ) (code : String) :
    (consumeBackupCode rt now user code).Follows (Move (failures user door) max) AfterConsume .tried := by
  unfold consumeBackupCode
  dsimp only
  split_ifs
  · exact .ret rfl
  · refine Prog.Follows.atomic fun s => ?_
    split_ifs
    · exact ⟨.refused, .refuse .tried s _ (by simp) rfl, .ret rfl⟩
    · cases matchingCode rt (normalizeBackupCode rt code) (s.unusedCodes user) with
      | none => exact ⟨.tried, .idle .tried s _ (by decide) rfl, .ret rfl⟩
      | some found =>
        exact ⟨.right, .succeed .tried s _ (.inr rfl) rfl, .write .right (fun t => .clear t _ (.inr rfl)) (.ret rfl)⟩

/-- A key of another kind of counter is another key. -/
theorem loginFailKey_ne_challengeFailKey (user : UserId) (jti : String) : loginFailKey user ≠ challengeFailKey jti := by
  unfold loginFailKey challengeFailKey
  rw [Ne, ← String.toList_inj, String.toList_append, String.toList_append]
  intro hchars
  simp at hchars

theorem loginFailKey_ne_burnKey (user : UserId) (jti : String) : loginFailKey user ≠ burnKey jti := by
  unfold loginFailKey burnKey
  rw [Ne, ← String.toList_inj, String.toList_append, String.toList_append]
  intro hchars
  simp at hchars

/-- A wrong code is counted, and what else is written is another key. -/
theorem wrongCode_follows {done : Stage → Option Response → Prop} (hdone : ∀ r, done .counted r) (jti : String) :
    (wrongCode settings user jti).Follows (Move (failures user .login) max) done .tried := by
  unfold wrongCode
  refine countFailure_follows .login fun _ => ?_
  split_ifs
  · exact .ret (hdone _)
  · refine follows_idle (by decide) (Prog.Always.bind (keeps_countFailure ?_) fun failures => ?_) hdone
    · exact loginFailKey_ne_challengeFailKey user jti
    · split_ifs
      · refine Prog.Always.bind (.atomic fun s => ?_) fun _ => .ret _
        have hne := loginFailKey_ne_burnKey user jti
        simp [Users.failures, Door.key, hne]
      · exact .ret _

/-- A right code clears the counter. -/
theorem clears_rightCode {env : ViewEnv} (jti : String) : (rightCode rt env user jti).Always fun s t =>
    failures user .login t = none ∨ failures user .login t = failures user .login s := by
  have hpair : (pairResponse rt env user).Always fun s t =>
      failures user .login t = none ∨ failures user .login t = failures user .login s := by
    unfold pairResponse issueTokenPair
    cases storeIp rt (clientIp env.request) with
    | none => exact .ret _
    | some ip => exact Prog.Always.bind (.atomic fun s => .inr rfl) fun _ => .ret _
  unfold rightCode
  refine Prog.Always.bind (.atomic fun s => by simp [failures, Door.key]) fun _ => ?_
  split_ifs
  · exact hpair
  · refine Prog.Always.bind (.atomic fun s => .inr ?_) fun _ => hpair
    have hne := loginFailKey_ne_challengeFailKey user jti
    simp [failures, Door.key, hne]

/-- A code is compared, and counted when it is wrong. -/
theorem compareCode_follows {env : ViewEnv} {data : MFAVerifyData} {device : MFADevice} (jti : String)
    {done : Stage → Option Response → Prop} (hcounted : ∀ r, done .counted r) (hright : ∀ r, done .right r)
    (hraised : done .refused none) :
    (compareCode rt settings env data user device jti).Follows (Move (failures user .login) max) done
      (if !data.isBackupCode && verifyTotp rt env.now device.secret data.code then .right else .tried) := by
  unfold compareCode
  cases data.isBackupCode with
  | true =>
    refine (consumeBackupCode_tried env.now data.code).bind fun q consumed hq => ?_
    cases consumed with
    | raises =>
      obtain rfl : q = .refused := hq
      exact .ret hraised
    | refused =>
      obtain rfl : q = .tried := hq
      exact wrongCode_follows hcounted jti
    | code id =>
      obtain rfl : q = .right := hq
      exact follows_right (clears_rightCode jti) hright
  | false =>
    simp only [Bool.false_eq_true, if_false, Bool.not_false, Bool.true_and]
    split_ifs
    · exact follows_right (clears_rightCode jti) hright
    · exact wrongCode_follows hcounted jti

/-- `MFAVerifyView.post` looks at the counter, compares the code, and counts it when it is wrong. -/
theorem mfaVerify_follows {env : ViewEnv} {data : MFAVerifyData} {jti : String}
    (hdecode : rt.decodeMfaToken data.mfaToken env.now = .ok (user, jti))
    {done : Stage → Option Response → Prop} (hcounted : ∀ r, done .counted r) (hright : ∀ r, done .right r)
    (hasked : ∀ r, done .asked r) (hrefused : ∀ r, done .refused r) :
    (mfaVerify rt settings env (.ok data)).Follows (Move (failures user .login) settings.mfaLoginMaxFailures) done
      .asked := by
  unfold mfaVerify
  simp only [hdecode]
  split_ifs
  · exact .ret (hasked _)
  · exact .ret (hasked _)
  · have hburned : (isBurned jti).Follows (Move (failures user .login) settings.mfaLoginMaxFailures)
        (fun q (_ : Bool) => q = .asked) .asked := by
      unfold isBurned
      split_ifs
      · exact .ret rfl
      · exact fun s => ⟨.asked, .idle .asked s _ (by decide) rfl, rfl⟩
    refine hburned.bind fun q burned hq => ?_
    subst hq
    split_ifs
    · exact .ret (hasked _)
    · refine Prog.Follows.atomic fun s => ?_
      split_ifs with hmax
      · exact ⟨.refused, .refuse .asked s _ (by simp) rfl, .ret (hrefused _)⟩
      · refine ⟨.passed, .pass s _ (not_le.mp hmax) rfl, Prog.Follows.atomic fun t => ?_⟩
        cases hfound : t.mfaUser user with
        | none => exact ⟨.refused, .refuse .passed t _ (by simp) rfl, .ret (hrefused _)⟩
        | some found =>
          obtain ⟨found, device⟩ := found
          obtain ⟨row, hrow, heq⟩ := Option.map_eq_some_iff.mp hfound
          have hid : found.id = user := by
            rw [← (Prod.mk.inj heq).1]
            exact Table.key_of_find? hrow
          dsimp only
          cases device.filter fun _ => found.isActive with
          | none => exact ⟨.refused, .refuse .passed t _ (by simp) rfl, .ret (hrefused _)⟩
          | some device =>
            rw [hid]
            refine ⟨_, ?_, compareCode_follows jti hcounted hright (hrefused _)⟩
            split_ifs
            · exact .succeed .passed t _ (.inl rfl) rfl
            · exact .fail t _ rfl

/-- `verify_mfa_code` does so too. -/
theorem verifyMfaCode_follows {now : ℤ} {code : String} {done : Stage → Option Bool → Prop}
    (hcounted : ∀ r, done .counted r) (hright : ∀ r, done .right r)
    (hasked : ∀ r, done .asked r) (hrefused : ∀ r, done .refused r) :
    (verifyMfaCode rt settings now user code).Follows (Move (failures user .stepup) settings.mfaStepupMaxFailures)
      done .asked := by
  have hclear : ((cacheDelete (stepupFailKey user)) >>= fun _ => Prog.ret (some true)).Always fun s t =>
      failures user .stepup t = none ∨ failures user .stepup t = failures user .stepup s :=
    Prog.Always.bind (.atomic fun s => by simp [failures, Door.key]) fun _ => .ret _
  unfold verifyMfaCode
  split_ifs
  · exact .ret (hasked _)
  · refine Prog.Follows.atomic fun s => ?_
    split_ifs
    · exact ⟨.asked, .idle .asked s _ (by decide) rfl, .ret (hasked _)⟩
    · refine ⟨.asked, .idle .asked s _ (by decide) rfl, Prog.Follows.atomic fun s => ?_⟩
      split_ifs with hmax
      · exact ⟨.refused, .refuse .asked s _ (by simp) rfl, .ret (hrefused _)⟩
      · refine ⟨.passed, .pass s _ (not_le.mp hmax) rfl, Prog.Follows.atomic fun t => ?_⟩
        split_ifs
        · exact ⟨.right, .succeed .passed t _ (.inl rfl) rfl, follows_right hclear hright⟩
        · refine ⟨.tried, .fail t _ rfl, ?_⟩
          refine (consumeBackupCode_tried now code).bind fun q consumed hq => ?_
          cases consumed with
          | raises =>
            obtain rfl : q = .refused := hq
            exact .ret (hrefused _)
          | code id =>
            obtain rfl : q = .right := hq
            exact follows_right hclear hright
          | refused =>
            obtain rfl : q = .tried := hq
            exact countFailure_follows .stepup fun _ => .ret (hcounted _)

/-- The calls follow the stages of a counted try. -/
theorem GuessCall.follows {p : Prog State PUnit} (h : GuessCall rt settings user door p) :
    p.Follows (Move (failures user door) (door.max settings)) CountedAtEnd .asked := by
  cases h with
  | login env data jti hdecode =>
    have hverify : (mfaVerify rt settings env (.ok data)).Follows
        (Move (failures user .login) settings.mfaLoginMaxFailures) (fun q _ => CountedAtEnd q ⟨⟩) .asked := by
      apply mfaVerify_follows hdecode
      · exact fun _ _ => rfl
      · exact fun _ h => absurd h (by decide)
      · exact fun _ h => absurd h (by decide)
      · exact fun _ h => absurd h (by decide)
    exact hverify.bind fun q r hq => .ret hq
  | stepup now code =>
    have hverify : (verifyMfaCode rt settings now user code).Follows
        (Move (failures user .stepup) settings.mfaStepupMaxFailures) (fun q _ => CountedAtEnd q ⟨⟩) .asked := by
      apply verifyMfaCode_follows
      · exact fun _ _ => rfl
      · exact fun _ h => absurd h (by decide)
      · exact fun _ h => absurd h (by decide)
      · exact fun _ h => absurd h (by decide)
    exact hverify.bind fun q r hq => .ret hq

/-- A call, at its beginning. -/
def GuessCall.call {p : Prog State PUnit} (h : GuessCall rt settings user door p) :
    Call (Move (failures user door) (door.max settings)) CountedAtEnd := ⟨p, .asked, h.follows⟩

variable (rt settings user door) in
/-- The calls that may be made. -/
def Guesses (c : Call (Move (failures user door) (door.max settings)) CountedAtEnd) : Prop :=
  GuessCall rt settings user door c.prog ∧ c.stage = .asked

variable (user door) in
/-- What may happen beside the calls: the counter is left alone. -/
def KeepsFailures (s t : State) : Prop := failures user door t = failures user door s

/-- A call that has ended, and has compared a code. -/
def isWrongAttempt (c : Call (Move (failures user door) max) CountedAtEnd) : Bool :=
  c.returned.isSome && c.stage.hasTried

/-- The wrong attempts that are completed have been counted. -/
theorem wrongAttempts_le (crowd : Crowd (Move (failures user door) max) CountedAtEnd) :
    crowd.calls.countP isWrongAttempt ≤ crowd.stages.count .counted := by
  apply crowd.countP_le isWrongAttempt
  intro c h
  rw [isWrongAttempt, Bool.and_eq_true, Option.isSome_iff_exists] at h
  obtain ⟨⟨a, hreturned⟩, htried⟩ := h
  have hcounted : c.stage = .counted := Call.done_of_returned hreturned htried
  simp [hcounted]

variable (settings user door) in
/-- At most so many codes have been compared as the maximum allows, and the counter is as high as the number
of wrong attempts that are completed, up to the maximum. -/
def GuessesCapped (crowd : Crowd (Move (failures user door) (door.max settings)) CountedAtEnd) : Prop :=
  crowd.stages.countP Stage.hasTried ≤ door.max settings ∧
    Nat.min (crowd.calls.countP isWrongAttempt) (door.max settings) ≤ (failures user door crowd.state).getD 0

/-- **The guesses are capped** in a run all of whose calls pass the look, and find no key, only while the
others leave it to. -/
theorem guesses_capped {s : State} (hs : failures user door s = none)
    {crowd : Crowd (Move (failures user door) (door.max settings)) CountedAtEnd}
    (h : Run (CrowdStep (Guesses rt settings user door) (KeepsFailures user door))
      (OnStages (Orderly (failures user door) (door.max settings))) ⟨s, []⟩ crowd) :
    GuessesCapped settings user door crowd := by
  have hcounts := counts_of_run (fun _ hc => hc.2) (fun _ _ he => he) hs h
  constructor
  · exact hcounts.tries_le
  · rw [← hcounts.counted]
    exact (Nat.min_le_left _ _).trans (wrongAttempts_le crowd)

end

/-! ### Samples -/

/-- A call of `verify_mfa_code` with a wrong code. -/
def sampleGuess : Call (Move (failures "u" .stepup) (Door.stepup.max sampleSettings)) CountedAtEnd :=
  GuessCall.call (GuessCall.stepup 1 "000000" : GuessCall sampleRuntime sampleSettings "u" .stepup _)

theorem guesses_sampleGuess : Guesses sampleRuntime sampleSettings "u" .stepup sampleGuess := ⟨.stepup 1 "000000", rfl⟩

/-- The state behind a first call. -/
def sampleCounted : State := sampleGuess.prog.runFor 5 sampleState

/-- Whatever the first call has done, its failure is still to be counted. -/
theorem sampleGuess_first : ∀ n < 4, (failures "u" .stepup (sampleGuess.prog.runFor n sampleState)).getD 0 < 5 ∧
    failures "u" .stepup ((sampleGuess.prog.restFor (n + 1) sampleState).runFor 5 sampleState) = some 1 := by
  decide +kernel

/-- So it is for a second one. -/
theorem sampleGuess_second : ∀ n < 3, (failures "u" .stepup (sampleGuess.prog.runFor n sampleCounted)).getD 0 < 5 ∧
    failures "u" .stepup ((sampleGuess.prog.restFor (n + 1) sampleCounted).runFor 5 sampleCounted) = some 2 := by
  decide +kernel

/-- Two wrong codes are compared, one behind the other, where five may be. -/
theorem guesses_capped_sample :
    ∃ crowd, Run (CrowdStep (Guesses sampleRuntime sampleSettings "u" .stepup) (KeepsFailures "u" .stepup))
        (OnStages (Orderly (failures "u" .stepup) (Door.stepup.max sampleSettings))) ⟨sampleState, []⟩ crowd ∧
      crowd.stages = [.counted, .counted] ∧ failures "u" .stepup crowd.state = some 2 ∧
      GuessesCapped sampleSettings "u" .stepup crowd := by
  have hstart : Run (CrowdStep (Guesses sampleRuntime sampleSettings "u" .stepup) (KeepsFailures "u" .stepup))
      (OnStages (Orderly (failures "u" .stepup) (Door.stepup.max sampleSettings))) ⟨sampleState, []⟩
      ⟨sampleState, [sampleGuess]⟩ := Run.single (.start sampleState [] guesses_sampleGuess) trivial
  obtain ⟨c, hc, hfirst⟩ := exists_counted (Guesses sampleRuntime sampleSettings "u" .stepup) (KeepsFailures "u" .stepup)
    [] sampleGuess sampleState 4 5 1 (by simp) (fun k hk => (sampleGuess_first k hk).1)
    (fun k hk => by rw [(sampleGuess_first k hk).2]; decide) (by decide +kernel) (by decide +kernel)
  have hcount : failures "u" .stepup (sampleGuess.prog.runFor 4 sampleCounted) = some 2 := by decide +kernel
  have hagain := (hstart.trans hfirst).step (.start sampleCounted [c] guesses_sampleGuess) trivial
  obtain ⟨d, hd, hsecond⟩ := exists_counted (Guesses sampleRuntime sampleSettings "u" .stepup)
    (KeepsFailures "u" .stepup) [c] sampleGuess sampleCounted 3 5 2 (by simp [hc])
    (fun k hk => (sampleGuess_second k hk).1)
    (fun k hk => by rw [(sampleGuess_second k hk).2]; decide +kernel) hcount (by decide +kernel)
  have hrun := hagain.trans hsecond
  exact ⟨_, hrun, by simp [Crowd.stages, hc, hd], hcount, guesses_capped rfl hrun⟩

/-- Any number of calls may look before one of them is counted. -/
theorem sampleGuesses_tried (n : ℕ) :
    ∃ calls : List (Call (Move (failures "u" .stepup) (Door.stepup.max sampleSettings)) CountedAtEnd),
      calls.length = n ∧ (∀ c ∈ calls, c.stage = .tried) ∧
      Run (CrowdStep (Guesses sampleRuntime sampleSettings "u" .stepup) (KeepsFailures "u" .stepup))
        (OnStages Unkilled) ⟨sampleState, []⟩ ⟨sampleState, calls⟩ := by
  induction n with
  | zero => exact ⟨[], rfl, by simp, .refl _⟩
  | succ n ih =>
    obtain ⟨calls, hlength, htried, hrun⟩ := ih
    have hstart := hrun.step (.start sampleState calls guesses_sampleGuess) trivial
    obtain ⟨c, hc, hmoves⟩ := CrowdStep.exists_moves (Guesses sampleRuntime sampleSettings "u" .stepup)
      (KeepsFailures "u" .stepup) (OnStages Unkilled) calls [] 3 sampleState sampleGuess fun _ _ _ _ _ _ => trivial
    refine ⟨calls ++ [c], by simp [hlength], ?_, hstart.trans hmoves⟩
    intro d hd
    rcases List.mem_append.mp hd with hd | hd
    · exact htried d hd
    · obtain rfl := List.mem_singleton.mp hd
      apply stage_of_increment (s := { sampleState with cache := fun _ => some 1 }) (n := 0) rfl
      rw [hc]
      decide +kernel

/-- Six calls that look before one of them is counted compare six wrong codes. -/
theorem not_guesses_capped :
    ¬ ∀ (rt : Runtime) (settings : Settings) (user : UserId) (door : Door) (s : State)
        (crowd : Crowd (Move (failures user door) (door.max settings)) CountedAtEnd), failures user door s = none →
      Run (CrowdStep (Guesses rt settings user door) (KeepsFailures user door)) (OnStages Unkilled)
        ⟨s, []⟩ crowd →
      Stage.right ∉ crowd.stages → GuessesCapped settings user door crowd := by
  intro h
  obtain ⟨calls, hlength, htried, hrun⟩ := sampleGuesses_tried 6
  have hstages : ∀ q ∈ calls.map Call.stage, q = .tried := by
    intro q hq
    obtain ⟨c, hc, rfl⟩ := List.mem_map.mp hq
    exact htried c hc
  have hcapped := (h _ _ _ _ _ _ rfl hrun fun hright => by cases hstages _ hright).1
  have hall : (calls.map Call.stage).countP Stage.hasTried = 6 := by
    rw [List.countP_eq_length.mpr fun q hq => by rw [hstages q hq]; rfl, List.length_map, hlength]
  rw [Crowd.stages, hall] at hcapped
  exact absurd hcapped (by decide)

end StratTrader.Users
