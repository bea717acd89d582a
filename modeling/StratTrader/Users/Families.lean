import StratTrader.Foundation.Stages
import StratTrader.Users.Refresh
import Mathlib.Data.Set.Card

/-!
# Families of refresh tokens

Rotations and revocations of one family, in any number and interleaved. A rotation is one
action; a revocation looks at the row and writes it later, when it may have been rotated or
revoked by others.

Each token may be used twice: while it is the current one, and while it is the one before. The
uses that it still has are told by the row (`left`), and with those that are made they are two
at most, over all calls. A revocation writes neither of the identifiers, and none takes it back.

## What is proved

* `family_sound`: at most two tokens are acceptable, each yields a pair at most twice, any other
  revokes the family, and no pair is yielded once it is revoked.

## Honest scope

The family is new: it has no token before the current one. Beside the calls anything may happen
that leaves the identifiers alone and does not take a revocation back.
-/

namespace StratTrader.Users

open StratTrader.Brokers StratTrader.Foundation

namespace Families

/-! ### The row -/

section
variable (familyId : FamilyId)

/-- The identifiers stay, and so does a revocation. -/
def Steady (s t : State) : Prop :=
  ∀ family, s.families.find? familyId = some family → ∃ family', t.families.find? familyId = some family' ∧
    family'.currentJti = family.currentJti ∧ family'.previousJti = family.previousJti ∧
    (family.isRevoked = true → family'.isRevoked = true)

/-- The family is not revoked, and takes a token for the current one or for the one before. -/
def Acceptable (s : State) (jti : Jti) : Prop :=
  ∃ family, s.families.find? familyId = some family ∧ family.isRevoked = false ∧ family.isReuse jti = false

end

/-- The uses that a token still has. -/
def left (family : RefreshTokenFamily) (jti : Jti) : ℕ :=
  if jti = family.currentJti then 2 else if jti = family.previousJti ∧ family.previousJti ≠ "" then 1 else 0

/-! ### The calls -/

/-- How far a call has come. -/
inductive Stage where
  /-- It is not a rotation. -/
  | aside
  /-- It is a rotation, with an identifier for a new token. -/
  | asked (fresh : Jti)
  /-- It has given a pair for a token. -/
  | rotated (presented fresh : Jti)
  /-- It has not. -/
  | refused
  deriving DecidableEq

/-- What a call may do. -/
inductive Move (familyId : FamilyId) : Stage → State → State → Stage → Prop where
  /-- A call that is not a rotation leaves the identifiers alone. -/
  | aside (s t : State) (h : Steady familyId s t) : Move familyId .aside s t .aside
  /-- The rotation is refused. -/
  | refuse (s t : State) (fresh : Jti) (h : Steady familyId s t) : Move familyId (.asked fresh) s t .refused
  /-- The family is rotated. -/
  | rotate (s t : State) (presented fresh : Jti) (family : RefreshTokenFamily) (ip : Option String)
    (hrow : s.families.find? familyId = some family) (hrevoked : family.isRevoked = false)
    (hreuse : family.isReuse presented = false) (ht : t.families.find? familyId = some (family.rotated fresh ip)) :
    Move familyId (.asked fresh) s t (.rotated presented fresh)

/-- What a call has to say at a stage: the token that it was given, and the new one. -/
def Done : Stage → Option (Jti × Jti) → Prop
  | .rotated presented fresh, r => r = some (presented, fresh)
  | .aside, r | .asked _, r | .refused, r => r = none

section
variable (rt : Runtime) (familyId : FamilyId)

/-- The calls, and the stages they begin at. -/
inductive RefreshCall : Prog State (Option (Jti × Jti)) → Stage → Prop where
  /-- A call of `rotate_refresh`. -/
  | rotate (now : ℤ) (fresh : Jti) (request : RequestMeta) (jti : Jti) (userId : Option UserId) :
    RefreshCall (do
      let rotation ← rotateRefresh rt now fresh request (.ok ⟨some familyId, jti, userId⟩)
      return rotation.jti.map fun new => (jti, new)) (.asked fresh)
  /-- A call of `revoke_refresh`. -/
  | revoke (now : ℤ) (token : Except String RefreshClaims) : RefreshCall (do
      let _ ← revokeRefresh now token
      return none) .aside
  /-- A call of `revoke_other_sessions`. -/
  | revokeOthers (now : ℤ) (user : UserId) (exceptFamilyId : Option FamilyId) (reason : String) : RefreshCall (do
      let _ ← revokeOtherSessions now user exceptFamilyId reason
      return none) .aside
  /-- A call of `PasswordResetConfirmView.post`, which creates a family with another identifier. -/
  | passwordReset (env : ViewEnv) (body : Except Invalid ResetConfirmData) (h : env.fresh.familyId ≠ familyId) :
    RefreshCall (do
      let _ ← passwordResetConfirm rt env body
      return none) .aside

end

section
variable {rt : Runtime} {familyId : FamilyId} {s t : State} {α : Type}

theorem Steady.refl (familyId : FamilyId) (s : State) : Steady familyId s s :=
  fun family h => ⟨family, h, rfl, rfl, id⟩

theorem Steady.of_families (h : t.families = s.families) : Steady familyId s t := by
  intro family hrow
  rw [← h] at hrow
  exact ⟨family, hrow, rfl, rfl, id⟩

/-- A revocation, of whichever family. -/
theorem Steady.revoke (now : ℤ) (other : FamilyId) (reason : String) : Steady familyId s
    { s with families := s.families.modify other (RefreshTokenFamily.revoked now reason) } := by
  intro family hrow
  have hfind := Table.find?_modify (f := RefreshTokenFamily.revoked now reason) s.families other (fun _ => rfl) familyId
  split_ifs at hfind with heq
  · subst heq
    rw [hrow] at hfind
    exact ⟨_, hfind, rfl, rfl, fun _ => rfl⟩
  · exact ⟨family, hfind.trans hrow, rfl, rfl, id⟩

/-- A new family with another identifier. -/
theorem Steady.create {family : RefreshTokenFamily} (h : family.familyId ≠ familyId) :
    Steady familyId s { s with families := s.families.put family } := by
  intro row hrow
  refine ⟨row, ?_, rfl, rfl, id⟩
  rw [Table.find?_put, if_neg h.symm]
  exact hrow

theorem steady_revokeFamily (now : ℤ) (other : FamilyId) (reason : String) :
    (revokeFamily now other reason).Always (Steady familyId) :=
  .atomic fun _ => .revoke now other reason

theorem steady_revokeAll (now : ℤ) (reason : String) (others : List FamilyId) :
    (revokeAll now reason others).Always (Steady familyId) := by
  induction others with
  | nil => exact .ret _
  | cons other others ih => exact Prog.Always.bind (steady_revokeFamily now other reason) fun _ => ih

theorem steady_revokeRefresh (now : ℤ) (token : Except String RefreshClaims) :
    (revokeRefresh now token).Always (Steady familyId) := by
  unfold revokeRefresh
  cases token with
  | error message => exact .ret _
  | ok claims =>
    obtain ⟨found, jti, userId⟩ := claims
    cases found with
    | none => exact .ret _
    | some other =>
      refine Prog.Always.bind (.atomic fun s => .refl familyId s) fun found => ?_
      cases found with
      | none => exact .ret _
      | some family =>
        dsimp only
        split_ifs
        · exact .ret _
        · exact Prog.Always.bind (steady_revokeFamily now family.familyId "logout") fun _ => .ret _

theorem steady_revokeOtherSessions (now : ℤ) (user : UserId) (exceptFamilyId : Option FamilyId) (reason : String) :
    (revokeOtherSessions now user exceptFamilyId reason).Always (Steady familyId) :=
  Prog.Always.bind (.atomic fun s => .refl familyId s) fun others =>
    Prog.Always.bind (steady_revokeAll now reason others) fun _ => .ret _

theorem steady_consumeToken (cls : TokenClass) (now : ℤ) (raw : String) :
    (consumeToken rt cls now raw).Always (Steady familyId) := by
  refine Prog.Always.bind (.atomic fun s => .refl familyId s) fun found => ?_
  cases found with
  | none => exact .ret _
  | some token =>
    dsimp only
    split_ifs
    · exact .ret _
    · exact Prog.Always.bind (.atomic fun s => .of_families rfl) fun _ => .ret _

theorem steady_pairResponse {env : ViewEnv} (h : env.fresh.familyId ≠ familyId) (user : UserId) :
    (pairResponse rt env user).Always (Steady familyId) := by
  refine Prog.Always.bind ?_ fun _ => .ret _
  unfold issueTokenPair
  cases storeIp rt (clientIp env.request) with
  | none => exact .ret _
  | some ip => exact Prog.Always.bind (.atomic fun s => .create h) fun _ => .ret _

theorem steady_passwordResetConfirm {env : ViewEnv} (h : env.fresh.familyId ≠ familyId)
    (body : Except Invalid ResetConfirmData) : (passwordResetConfirm rt env body).Always (Steady familyId) := by
  unfold passwordResetConfirm
  cases body with
  | error invalid => exact .ret _
  | ok data =>
    refine Prog.Always.bind (steady_consumeToken .passwordReset env.now data.token) fun token => ?_
    cases token with
    | none => exact .ret _
    | some token =>
      refine Prog.Always.bind (.atomic fun s => .refl familyId s) fun found => ?_
      cases found with
      | none => exact .ret _
      | some user =>
        refine Prog.Always.bind (.atomic fun s => .of_families rfl) fun _ => ?_
        refine Prog.Always.bind (.atomic fun s => .of_families rfl) fun _ => ?_
        refine Prog.Always.bind (.atomic fun s => .refl familyId s) fun others => ?_
        exact Prog.Always.bind (steady_revokeAll env.now "password_reset" others) fun _ => steady_pairResponse h user.id

/-- A call that is not a rotation follows the stages. -/
theorem follows_aside {p : Prog State α} (hp : p.Always (Steady familyId)) :
    (p >>= fun _ => Prog.ret none).Follows (Move familyId) Done .aside := by
  induction p with
  | ret a => exact rfl
  | act upd next ih =>
    intro s
    obtain ⟨hsteady, hnext⟩ := hp s
    exact ⟨.aside, .aside s _ hsteady, ih s hnext⟩

/-- What a rotation does with the row. -/
theorem rotateRefresh_follows (now : ℤ) (fresh : Jti) (request : RequestMeta) (jti : Jti) (userId : Option UserId) :
    (do
      let rotation ← rotateRefresh rt now fresh request (.ok ⟨some familyId, jti, userId⟩)
      return rotation.jti.map fun new => (jti, new) : Prog State (Option (Jti × Jti))).Follows (Move familyId) Done
      (.asked fresh) := by
  cases userId with
  | none => exact rfl
  | some user =>
    refine Prog.Follows.atomic fun s => ?_
    have hfind := Table.find?_modify (f := fun family : RefreshTokenFamily =>
      (rotateRow rt now fresh request jti (s.isActive family.user) family).1) s.families familyId
      (fun _ => familyId_rotateRow) familyId
    rw [if_pos rfl] at hfind
    cases hrow : s.families.find? familyId with
    | none =>
      refine ⟨.refused, .refuse s _ fresh fun family h => ?_, .ret rfl⟩
      rw [hrow] at h
      cases h
    | some family =>
      rw [hrow, Option.map_some] at hfind
      dsimp only
      rcases rotateRow_cases rt now fresh jti request (s.isActive family.user) family with
        ⟨ip, hrevoked, hreuse, h⟩ | ⟨hrevoked, hreuse, h⟩ | ⟨hsame, hjti⟩
      · rw [h] at hfind ⊢
        exact ⟨.rotated jti fresh, .rotate s _ jti fresh family ip hrow hrevoked hreuse hfind, .ret rfl⟩
      · rw [h] at hfind ⊢
        refine ⟨.refused, .refuse s _ fresh fun row hs => ?_, .ret rfl⟩
        obtain rfl := Option.some.inj (hrow.symm.trans hs)
        exact ⟨_, hfind, rfl, rfl, fun _ => rfl⟩
      · rw [hsame] at hfind
        refine ⟨.refused, .refuse s _ fresh fun row hs => ?_, .ret ?_⟩
        · obtain rfl := Option.some.inj (hrow.symm.trans hs)
          exact ⟨_, hfind, rfl, rfl, id⟩
        · rw [hjti]
          rfl

theorem RefreshCall.follows {p : Prog State (Option (Jti × Jti))} {q : Stage} (h : RefreshCall rt familyId p q) :
    p.Follows (Move familyId) Done q := by
  cases h with
  | rotate now fresh request jti userId => exact rotateRefresh_follows now fresh request jti userId
  | revoke now token => exact follows_aside (steady_revokeRefresh now token)
  | revokeOthers now user exceptFamilyId reason =>
    exact follows_aside (steady_revokeOtherSessions now user exceptFamilyId reason)
  | passwordReset env body h => exact follows_aside (steady_passwordResetConfirm h body)

end

/-! ### The uses of a token -/

/-- The identifier that a call has given a token. -/
def Stage.issued : Stage → Option Jti
  | .rotated _ fresh => some fresh
  | .aside | .asked _ | .refused => none

/-- A call has given a pair for a token. -/
def Stage.presents (jti : Jti) : Stage → Bool
  | .rotated presented _ => decide (presented = jti)
  | .aside | .asked _ | .refused => false

/-- A call has given a pair. -/
def Stage.isRotated : Stage → Bool
  | .rotated _ _ => true
  | .aside | .asked _ | .refused => false

/-- The identifiers of all tokens that have been given, of which the family's first is `first`. -/
def issued (first : Jti) (stages : List Stage) : List Jti := first :: stages.filterMap Stage.issued

/-- The identifiers that are made are distinct: a new one has not been given yet. -/
def Fresh (first : Jti) (_ : State) (stages : List Stage) : CrowdAct Stage → Prop
  | .move _ (.rotated _ fresh) => fresh ∉ issued first stages
  | .move _ (.asked _) | .move _ .aside | .move _ .refused | .start | .kill | .outside => True

/-- What holds of the row and the calls. -/
structure Accounted (familyId : FamilyId) (first : Jti) (s : State) (stages : List Stage) : Prop where
  /-- The tokens of the row have been given, and each has the uses left that the row says. -/
  row : ∃ family, s.families.find? familyId = some family ∧ family.currentJti ∈ issued first stages ∧
    (family.previousJti ≠ "" → family.previousJti ∈ issued first stages) ∧
    ∀ jti, stages.countP (Stage.presents jti) + left family jti ≤ 2
  /-- A pair is given only for a token that has been given. -/
  given : ∀ jti, 0 < stages.countP (Stage.presents jti) → jti ∈ issued first stages

section
variable {familyId : FamilyId} {first : Jti} {s t : State} {qs rs : List Stage} {q q' : Stage}

theorem mem_issued_middle {jti : Jti} :
    jti ∈ issued first (qs ++ q :: rs) ↔ q.issued = some jti ∨ jti ∈ issued first (qs ++ rs) := by
  simp only [issued, List.filterMap_append, List.filterMap_cons, List.mem_cons, List.mem_append]
  cases q.issued with
  | none => simp
  | some fresh =>
    simp only [List.mem_cons, Option.some.injEq, eq_comm]
    tauto

/-- A change that leaves the identifiers alone keeps the account. -/
theorem Accounted.steady (hsteady : Steady familyId s t) (h : Accounted familyId first s qs)
    (hissued : ∀ jti, jti ∈ issued first qs → jti ∈ issued first rs)
    (hcount : ∀ jti, rs.countP (Stage.presents jti) = qs.countP (Stage.presents jti)) :
    Accounted familyId first t rs := by
  obtain ⟨⟨family, hrow, hcurrent, hprevious, hleft⟩, hgiven⟩ := h
  obtain ⟨family', hrow', hsame, hsame', -⟩ := hsteady family hrow
  refine ⟨⟨family', hrow', hissued _ (hsame ▸ hcurrent), ?_, fun jti => ?_⟩, fun jti hpos => ?_⟩
  · rw [hsame']
    exact fun hne => hissued _ (hprevious hne)
  · rw [left, hsame, hsame', hcount]
    exact hleft jti
  · rw [hcount] at hpos
    exact hissued _ (hgiven jti hpos)

/-- A rotation uses the token that is presented, and the others have no more uses left than before. -/
theorem left_rotated {family : RefreshTokenFamily} {presented fresh : Jti} (ip : Option String) (jti : Jti)
    (h : family.isReuse presented = false) (hjti : jti ≠ fresh) :
    left (family.rotated fresh ip) jti + (if presented = jti then 1 else 0) ≤ left family jti := by
  unfold left
  rw [rotated_currentJti, rotated_previousJti, if_neg hjti]
  by_cases hcurrent : jti = family.currentJti
  · -- the token that was the current one has one use left
    rw [if_pos hcurrent]
    split_ifs <;> decide
  · rw [if_neg hcurrent, if_neg fun hboth => hcurrent hboth.1, Nat.zero_add]
    split_ifs with hpresented hboth
    · exact le_rfl
    · -- the token that is presented is the one before
      rcases isReuse_eq_false.mp h with heq | ⟨hne, heq⟩
      · exact absurd (hpresented.symm.trans heq) hcurrent
      · exact absurd ⟨hpresented.symm.trans heq, hne⟩ hboth
    · exact Nat.zero_le _
    · exact le_rfl

theorem Accounted.move (hmove : Move familyId q s t q') (hfresh : Fresh first s (qs ++ q :: rs) (.move q q'))
    (h : Accounted familyId first s (qs ++ q :: rs)) : Accounted familyId first t (qs ++ q' :: rs) := by
  cases hmove with
  | aside _ _ hsteady => exact h.steady hsteady (fun _ => id) fun _ => rfl
  | refuse _ _ fresh hsteady =>
    refine h.steady hsteady (fun jti hjti => ?_) fun jti => ?_
    · rw [mem_issued_middle] at hjti ⊢
      exact hjti
    · rw [countP_middle, countP_middle]
      rfl
  | rotate _ _ presented fresh family ip hrow hrevoked hreuse ht =>
    obtain ⟨⟨row, hrow', hcurrent, hprevious, hleft⟩, hgiven⟩ := h
    obtain rfl := Option.some.inj (hrow.symm.trans hrow')
    have hissued : ∀ jti, jti ∈ issued first (qs ++ .rotated presented fresh :: rs) ↔
        jti = fresh ∨ jti ∈ issued first (qs ++ .asked fresh :: rs) := by
      intro jti
      rw [mem_issued_middle, mem_issued_middle]
      simp [Stage.issued, eq_comm]
    have hcount : ∀ jti, (qs ++ Stage.rotated presented fresh :: rs).countP (Stage.presents jti) =
        (qs ++ Stage.asked fresh :: rs).countP (Stage.presents jti) + if presented = jti then 1 else 0 := by
      intro jti
      rw [countP_middle, countP_middle]
      simp [Stage.presents]
    -- the token that is presented is one of the row, so it is not the new one
    have hpresented : presented ∈ issued first (qs ++ .asked fresh :: rs) := by
      rcases isReuse_eq_false.mp hreuse with rfl | ⟨hne, rfl⟩
      · exact hcurrent
      · exact hprevious hne
    refine ⟨⟨_, ht, (hissued _).mpr (.inl rfl), fun _ => (hissued _).mpr (.inr hcurrent), fun jti => ?_⟩,
      fun jti hpos => ?_⟩
    · rw [hcount]
      by_cases hjti : jti = fresh
      · -- a new token has not been used
        subst hjti
        have hunused : (qs ++ Stage.asked jti :: rs).countP (Stage.presents jti) = 0 := by
          by_contra hpos
          exact hfresh (hgiven jti (Nat.pos_of_ne_zero hpos))
        have hdiffer : presented ≠ jti := fun h => hfresh (h ▸ hpresented)
        simp [hunused, hdiffer, left]
      · have hrotated := left_rotated ip jti hreuse hjti
        have hbefore := hleft jti
        omega
    · rw [hcount] at hpos
      refine (hissued _).mpr (.inr ?_)
      by_cases heq : presented = jti
      · exact heq ▸ hpresented
      · rw [if_neg heq] at hpos
        exact hgiven jti hpos

end

/-! ### Runs -/

section
variable (rt : Runtime) (familyId : FamilyId)

/-- The calls that may be made. -/
def Refreshes (c : Call (Move familyId) Done) : Prop := RefreshCall rt familyId c.prog c.stage

/-- A call has given a pair. -/
def yieldsPair (c : Call (Move familyId) Done) : Bool := (c.returned.bind id).isSome

/-- A call has given a pair for a token. -/
def yieldsPairFor (jti : Jti) (c : Call (Move familyId) Done) : Bool :=
  (c.returned.bind id).any fun given => decide (given.1 = jti)

/-- What is true of a family and of the calls that have been made. -/
structure Sound (first : Jti) (crowd : Crowd (Move familyId) Done) : Prop where
  /-- At most two tokens are acceptable. -/
  acceptable : {jti | Acceptable familyId crowd.state jti}.encard ≤ 2
  /-- Each token yields a pair at most twice. -/
  twice : ∀ jti, crowd.calls.countP (yieldsPairFor familyId jti) ≤ 2
  /-- Any other token that is presented revokes the family, if it is not revoked. -/
  replay : crowd.state.familyRevoked familyId = false → ∀ jti, ¬ Acceptable familyId crowd.state jti →
    ∀ now fresh request userId,
      (((rotateRefresh rt now fresh request (.ok ⟨some familyId, jti, some userId⟩)).run
        crowd.state).1).familyRevoked familyId = true
  /-- Once the family is revoked, no call yields a pair any more. -/
  final : crowd.state.familyRevoked familyId = true → ∀ crowd',
    Run (CrowdStep (Refreshes rt familyId) (Steady familyId)) (OnStages (Fresh first)) crowd crowd' →
    crowd'.calls.countP (yieldsPair familyId) = crowd.calls.countP (yieldsPair familyId)

end

section
variable {rt : Runtime} {familyId : FamilyId} {first : Jti} {crowd crowd' : Crowd (Move familyId) Done}

theorem not_rotated_of_refreshes {c : Call (Move familyId) Done} (h : Refreshes rt familyId c) :
    c.stage.issued = none ∧ c.stage.isRotated = false ∧ ∀ jti, c.stage.presents jti = false := by
  unfold Refreshes at h
  generalize c.prog = p, c.stage = q at h
  cases h <;> exact ⟨rfl, rfl, fun _ => rfl⟩

/-- A call that has given a pair has ended. -/
theorem returned_of_isRotated {c : Call (Move familyId) Done} (h : c.stage.isRotated = true) : c.returned ≠ none := by
  intro hnone
  obtain ⟨t, q, hmove⟩ := Call.exists_move_of_returned hnone sampleState
  revert h hmove
  cases c.stage with
  | rotated presented fresh => exact fun _ hmove => by cases hmove
  | aside => exact fun h => by cases h
  | asked fresh => exact fun h => by cases h
  | refused => exact fun h => by cases h

/-- Whether a call has given a pair is told by its stage. -/
theorem yieldsPair_eq (c : Call (Move familyId) Done) : yieldsPair familyId c = c.stage.isRotated := by
  cases hreturned : c.returned with
  | none =>
    cases hrotated : c.stage.isRotated with
    | true => exact absurd hreturned (returned_of_isRotated hrotated)
    | false => simp [yieldsPair, hreturned]
  | some r =>
    have hdone := Call.done_of_returned hreturned
    rw [yieldsPair, hreturned]
    revert hdone
    cases c.stage with
    | rotated presented fresh => exact fun h => by rw [h]; rfl
    | aside => exact fun h => by rw [h]; rfl
    | asked fresh => exact fun h => by rw [h]; rfl
    | refused => exact fun h => by rw [h]; rfl

theorem presents_of_yieldsPairFor {jti : Jti} (c : Call (Move familyId) Done) (h : yieldsPairFor familyId jti c = true) :
    c.stage.presents jti = true := by
  rw [yieldsPairFor, Option.any_eq_true] at h
  obtain ⟨given, hgiven, hjti⟩ := h
  obtain ⟨r, hreturned, hr⟩ := Option.bind_eq_some_iff.mp hgiven
  have hdone := Call.done_of_returned hreturned
  rw [id] at hr
  subst hr
  revert hdone
  cases c.stage with
  | rotated presented fresh =>
    intro hdone
    obtain rfl := Option.some.inj hdone
    exact hjti
  | aside => exact fun hdone => by cases hdone
  | asked fresh => exact fun hdone => by cases hdone
  | refused => exact fun hdone => by cases hdone

/-- The account is right throughout. -/
theorem accounted_of_run {s : State} {family : RefreshTokenFamily} (hrow : s.families.find? familyId = some family)
    (hprevious : family.previousJti = "")
    (h : Run (CrowdStep (Refreshes rt familyId) (Steady familyId)) (OnStages (Fresh family.currentJti)) ⟨s, []⟩ crowd) :
    Accounted familyId family.currentJti crowd.state crowd.stages := by
  refine h.stages_invariant (Accounted familyId family.currentJti) ?_ ?_ ?_ ?_ ?_
  · refine ⟨⟨family, hrow, by simp [issued], fun hne => absurd hprevious hne, fun jti => ?_⟩, fun jti hpos => ?_⟩
    · simp only [Crowd.stages, List.map_nil, List.countP_nil, left]
      split_ifs <;> decide
    · simp [Crowd.stages] at hpos
  · intro s qs c hc hI
    obtain ⟨hissued, -, hpresents⟩ := not_rotated_of_refreshes hc
    refine hI.steady (.refl familyId s) (fun jti hjti => ?_) fun jti => ?_
    · simpa [issued, hissued] using hjti
    · simp [hpresents]
  · intro s t qs rs q q' hmove hfresh hI
    exact hI.move hmove hfresh
  · rintro s qs rs q ⟨t, q', hmove⟩ _ hI
    have hissued : q.issued = none ∧ ∀ jti, q.presents jti = false := by
      cases hmove <;> exact ⟨rfl, fun _ => rfl⟩
    refine hI.steady (.refl familyId s) (fun jti hjti => ?_) fun jti => ?_
    · rw [mem_issued_middle, hissued.1] at hjti
      exact hjti.resolve_left (by simp)
    · rw [countP_middle, hissued.2]
      simp
  · intro s t qs he hI
    exact hI.steady he (fun _ => id) fun _ => rfl

/-- A revoked family stays revoked, and no call rotates it. -/
theorem rotated_of_run (hrevoked : crowd.state.familyRevoked familyId = true)
    (h : Run (CrowdStep (Refreshes rt familyId) (Steady familyId)) (OnStages (Fresh first)) crowd crowd') :
    crowd'.state.familyRevoked familyId = true ∧
      crowd'.stages.countP Stage.isRotated = crowd.stages.countP Stage.isRotated := by
  have hsteady : ∀ {s t : State}, Steady familyId s t → s.familyRevoked familyId = true →
      t.familyRevoked familyId = true := by
    intro s t hst hs
    obtain ⟨family, hrow, hfamily⟩ := (Option.any_eq_true _ _).mp hs
    obtain ⟨family', hrow', -, -, hkeep⟩ := hst family hrow
    exact (Option.any_eq_true _ _).mpr ⟨family', hrow', hkeep hfamily⟩
  refine h.stages_invariant (fun s qs => s.familyRevoked familyId = true ∧
    qs.countP Stage.isRotated = crowd.stages.countP Stage.isRotated) ⟨hrevoked, rfl⟩ ?_ ?_ ?_ ?_
  · intro s qs c hc hI
    obtain ⟨-, hrotated, -⟩ := not_rotated_of_refreshes hc
    simpa [hrotated] using hI
  · intro s t qs rs q q' hmove _ hI
    cases hmove with
    | aside _ _ hst => exact ⟨hsteady hst hI.1, hI.2⟩
    | refuse _ _ fresh hst =>
      refine ⟨hsteady hst hI.1, ?_⟩
      rw [← hI.2, countP_middle, countP_middle]
      rfl
    | rotate _ _ presented fresh family ip hrow hfamily =>
      have hboth := hI.1
      rw [State.familyRevoked, hrow, Option.any_some, hfamily] at hboth
      cases hboth
  · rintro s qs rs q ⟨t, q', hmove⟩ _ hI
    have hrotated : q.isRotated = false := by cases hmove <;> rfl
    rw [countP_middle, hrotated] at hI
    simpa using hI
  · intro s t qs he hI
    exact ⟨hsteady he hI.1, hI.2⟩

/-- A token that is not acceptable revokes a family that is not revoked. -/
theorem familyRevoked_of_replay {s : State} {family : RefreshTokenFamily} {jti : Jti}
    (hrow : s.families.find? familyId = some family) (hrevoked : family.isRevoked = false)
    (hjti : ¬ Acceptable familyId s jti) (now : ℤ) (fresh : Jti) (request : RequestMeta) (userId : UserId) :
    (((rotateRefresh rt now fresh request (.ok ⟨some familyId, jti, some userId⟩)).run s).1).familyRevoked
      familyId = true := by
  have hreuse : family.isReuse jti = true := by
    by_contra h
    exact hjti ⟨family, hrow, hrevoked, by simpa using h⟩
  have hfind := Table.find?_modify (f := fun family : RefreshTokenFamily =>
    (rotateRow rt now fresh request jti (s.isActive family.user) family).1) s.families familyId
    (fun _ => familyId_rotateRow) familyId
  rw [if_pos rfl, hrow, Option.map_some] at hfind
  simp only [rotateRefresh, Prog.run_atomic]
  rw [State.familyRevoked, hfind, Option.any_some, rotateRow, if_neg (by simp [hrevoked]), if_pos hreuse]
  rfl

/-- **A family of refresh tokens is sound** in every run of rotations and revocations of it, where the
identifiers that are made for its tokens are distinct. -/
theorem family_sound {s : State} {family : RefreshTokenFamily} (hrow : s.families.find? familyId = some family)
    (hprevious : family.previousJti = "")
    (h : Run (CrowdStep (Refreshes rt familyId) (Steady familyId)) (OnStages (Fresh family.currentJti)) ⟨s, []⟩ crowd) :
    Sound rt familyId family.currentJti crowd := by
  obtain ⟨⟨row, hrow', -, -, hleft⟩, -⟩ := accounted_of_run hrow hprevious h
  constructor
  · -- the two of the row
    have hsub : {jti | Acceptable familyId crowd.state jti} ⊆ {row.currentJti, row.previousJti} := by
      rintro jti ⟨found, hfound, -, hreuse⟩
      obtain rfl := Option.some.inj (hrow'.symm.trans hfound)
      rcases isReuse_eq_false.mp hreuse with hcurrent | ⟨-, hbefore⟩
      · exact .inl hcurrent
      · exact .inr hbefore
    calc {jti | Acceptable familyId crowd.state jti}.encard
        ≤ ({row.currentJti, row.previousJti} : Set Jti).encard := Set.encard_le_encard hsub
      _ ≤ ({row.previousJti} : Set Jti).encard + 1 := Set.encard_insert_le _ _
      _ = 2 := by rw [Set.encard_singleton, one_add_one_eq_two]
  · intro jti
    have hpresents := crowd.countP_le (yieldsPairFor familyId jti) (Stage.presents jti) presents_of_yieldsPairFor
    have hjti := hleft jti
    omega
  · intro hunrevoked jti hjti now fresh request userId
    rw [State.familyRevoked, hrow', Option.any_some] at hunrevoked
    exact familyRevoked_of_replay hrow' hunrevoked hjti now fresh request userId
  · intro hrevoked crowd' hrun
    obtain ⟨-, hrotated⟩ := rotated_of_run hrevoked hrun
    simpa [Crowd.stages, List.countP_map, Function.comp_def, ← yieldsPair_eq] using hrotated

end

/-! ### Samples -/

/-- A rotation of one token into another. -/
theorem sampleRefresh (presented fresh : Jti) : RefreshCall sampleRuntime "f" (do
    let rotation ← rotateRefresh sampleRuntime 1 fresh ⟨none, some "203.0.113.7"⟩ (.ok ⟨some "f", presented, some "u"⟩)
    return rotation.jti.map fun new => (presented, new)) (.asked fresh) :=
  .rotate 1 fresh ⟨none, some "203.0.113.7"⟩ presented (some "u")

/-- The rotation at its beginning. -/
def sampleAsked (presented fresh : Jti) : Call (Move "f") Done := ⟨_, _, (sampleRefresh presented fresh).follows⟩

/-- And at its end. -/
def sampleRotated (presented fresh : Jti) : Call (Move "f") Done :=
  ⟨.ret (some (presented, fresh)), .rotated presented fresh, rfl⟩

/-- Two rotations, the second with the token that the first has given, each give a pair, and the family is sound. -/
theorem family_sound_sample :
    ∃ crowd, Run (CrowdStep (Refreshes sampleRuntime "f") (Steady "f")) (OnStages (Fresh "j0"))
        ⟨sampleFamilyState, []⟩ crowd ∧
      crowd.calls.countP (yieldsPair "f") = 2 ∧ Sound sampleRuntime "f" "j0" crowd := by
  have hstart : Run (CrowdStep (Refreshes sampleRuntime "f") (Steady "f")) (OnStages (Fresh "j0"))
      ⟨sampleFamilyState, []⟩ ⟨sampleFamilyState, [sampleAsked "j0" "j1"]⟩ :=
    Run.single (.start sampleFamilyState [] (sampleRefresh "j0" "j1")) trivial
  have hfresh : "j1" ∉ issued "j0" [.asked "j1"] := by decide
  have hfirst := hstart.step (.move sampleFamilyState [] [] (sampleAsked "j0" "j1") (sampleRotated "j0" "j1") _ _ rfl rfl
    (.rotate sampleFamilyState _ "j0" "j1" sampleFamily (some "203.0.113.7") rfl rfl (by decide) rfl)) hfresh
  have hbegins : Refreshes sampleRuntime "f" (sampleAsked "j1" "j2") := sampleRefresh "j1" "j2"
  have hagain := hfirst.step (.start _ _ hbegins) trivial
  have hfresh' : "j2" ∉ issued "j0" [.rotated "j0" "j1", .asked "j2"] := by decide
  have hrun := hagain.step (.move _ [sampleRotated "j0" "j1"] [] (sampleAsked "j1" "j2") (sampleRotated "j1" "j2") _ _ rfl rfl
    (.rotate _ _ "j1" "j2" (sampleFamily.rotated "j1" (some "203.0.113.7")) (some "203.0.113.7") rfl rfl (by decide) rfl))
    hfresh'
  exact ⟨_, hrun, rfl, family_sound (show sampleFamilyState.families.find? "f" = some sampleFamily from rfl) rfl hrun⟩

end Families

end StratTrader.Users
