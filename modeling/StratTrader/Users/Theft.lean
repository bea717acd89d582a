import StratTrader.Users.Refresh

/-!
# Two copies of a refresh token

Two clients hold copies of the current refresh token of a family, the one who was given it and
the one who has stolen it. Each calls `rotate_refresh` with the latest token it was given. The
token before the current one is accepted too, so a client that is one rotation behind catches
up, and the other falls behind in its turn.

The family goes through phases (`Phase`): the clients hold the same token, or one is ahead by
a rotation, or by more, so that the next token of the other is taken for a replay.

## What is proved

* `matches_call`: a call takes the family from phase to phase as `Phase.next` says.
* `detected_iff`: the theft is detected exactly when a client rotates twice while the other does not
  rotate, and the other calls again.

## Honest scope

A client calls with a token that it holds, and its calls are one after another. Nothing else
happens to the family, and the user stays as active as it is.
-/

namespace StratTrader.Users

open StratTrader.Brokers StratTrader.Foundation

/-- The clients. -/
inductive Client where
  /-- One. -/
  | first
  /-- The other. -/
  | second
  deriving DecidableEq

/-- A call of `rotate_refresh`. -/
structure RotateCall where
  /-- Who calls. -/
  client : Client
  /-- `timezone.now()`. -/
  now : ℤ
  /-- Whether the token has not expired. -/
  decodes : Bool := true
  /-- The identifier that is made for a new token. -/
  fresh : Jti
  /-- The headers. -/
  request : RequestMeta

/-- The shared state, and what each client holds. -/
structure Theft where
  /-- The shared state. -/
  state : State
  /-- The latest token that each was given. -/
  held : Client → Jti

section
variable (rt : Runtime) (familyId : FamilyId) (user : UserId)

/-- The token that a client presents. -/
def Theft.token (t : Theft) (c : RotateCall) : Except String RefreshClaims :=
  if c.decodes then .ok ⟨some familyId, t.held c.client, some user⟩ else .error "Token is expired"

/-- A client calls, and keeps the token that it is given. -/
def Theft.call (t : Theft) (c : RotateCall) : Theft :=
  let rotated := (rotateRefresh rt c.now c.fresh c.request (t.token familyId user c)).run t.state
  match rotated.2.jti with
  | some jti => ⟨rotated.1, Function.update t.held c.client jti⟩
  | none => ⟨rotated.1, t.held⟩

/-- Whether a call rotates if its token is not taken for a replay. -/
def RotateCall.isEffective (active : Bool) (c : RotateCall) : Bool :=
  c.decodes && active && (storeIp rt (clientIp c.request)).isSome

end

/-- Somebody other than `x` calls. -/
def CallsAgain (x : Client) (calls : List RotateCall) : Prop := ∃ c ∈ calls, c.client ≠ x ∧ c.decodes = true

section
variable (rt : Runtime) (active : Bool)

/-- `x` rotates before the other does, and then the other calls. -/
def Overtakes (x : Client) (calls : List RotateCall) : Prop :=
  ∃ between again after, calls = between ++ again :: after ∧ again.client = x ∧ again.isEffective rt active = true ∧
    (∀ c ∈ between, c.isEffective rt active = true → c.client = x) ∧ CallsAgain x after

/-- A client rotates twice while the other does not rotate, and then the other calls. -/
def Repeats (calls : List RotateCall) : Prop :=
  ∃ before once rest, calls = before ++ once :: rest ∧ once.isEffective rt active = true ∧
    Overtakes rt active once.client rest

/-! ### Phases -/

/-- How far apart the clients are. -/
inductive Phase where
  /-- They hold the same token. -/
  | together
  /-- `x` holds the current token, and the other the one before. -/
  | ahead (x : Client)
  /-- `x` holds the current token, and the other one that is taken for a replay. -/
  | stale (x : Client)
  /-- The family is revoked. -/
  | revoked
  deriving DecidableEq

/-- The phase after a call. -/
def Phase.next (c : RotateCall) : Phase → Phase
  | .together => if c.isEffective rt active then .ahead c.client else .together
  | .ahead x =>
    if c.isEffective rt active then if c.client = x then .stale x else .ahead c.client else .ahead x
  | .stale x => if c.client ≠ x ∧ c.decodes = true then .revoked else .stale x
  | .revoked => .revoked

/-- The calls after which a phase ends with the family revoked. -/
def Phase.Detects : Phase → List RotateCall → Prop
  | .together, calls => Repeats rt active calls
  | .ahead x, calls => Overtakes rt active x calls ∨ Repeats rt active calls
  | .stale x, calls => CallsAgain x calls
  | .revoked, _ => True

end

section
variable {rt : Runtime} {active : Bool} {x : Client} {c : RotateCall} {calls : List RotateCall}

theorem callsAgain_cons : CallsAgain x (c :: calls) ↔ (c.client ≠ x ∧ c.decodes = true) ∨ CallsAgain x calls := by
  simp [CallsAgain]

theorem not_overtakes_nil : ¬ Overtakes rt active x [] := by
  rintro ⟨between, again, after, h, -⟩
  simp at h

theorem overtakes_cons : Overtakes rt active x (c :: calls) ↔
    (c.isEffective rt active = true ∧ c.client = x ∧ CallsAgain x calls) ∨
      ((c.isEffective rt active = true → c.client = x) ∧ Overtakes rt active x calls) := by
  constructor
  · rintro ⟨between, again, after, h, hclient, heff, hbetween, hafter⟩
    cases between with
    | nil =>
      obtain ⟨rfl, rfl⟩ := List.cons.inj h
      exact .inl ⟨heff, hclient, hafter⟩
    | cons d between =>
      obtain ⟨rfl, rfl⟩ := List.cons.inj h
      refine .inr ⟨hbetween c List.mem_cons_self, between, again, after, rfl, hclient, heff, fun d hd => ?_, hafter⟩
      exact hbetween d (List.mem_cons_of_mem _ hd)
  · rintro (⟨heff, hclient, hafter⟩ | ⟨hc, between, again, after, rfl, hclient, heff, hbetween, hafter⟩)
    · exact ⟨[], c, calls, rfl, hclient, heff, by simp, hafter⟩
    · refine ⟨c :: between, again, after, rfl, hclient, heff, fun d hd => ?_, hafter⟩
      rcases List.mem_cons.mp hd with rfl | hd
      · exact hc
      · exact hbetween d hd

theorem not_repeats_nil : ¬ Repeats rt active [] := by
  rintro ⟨before, once, rest, h, -⟩
  simp at h

theorem repeats_cons : Repeats rt active (c :: calls) ↔
    (c.isEffective rt active = true ∧ Overtakes rt active c.client calls) ∨ Repeats rt active calls := by
  constructor
  · rintro ⟨before, once, rest, h, heff, hrest⟩
    cases before with
    | nil =>
      obtain ⟨rfl, rfl⟩ := List.cons.inj h
      exact .inl ⟨heff, hrest⟩
    | cons d before =>
      obtain ⟨rfl, rfl⟩ := List.cons.inj h
      exact .inr ⟨before, once, rest, rfl, heff, hrest⟩
  · rintro (⟨heff, hrest⟩ | ⟨before, once, rest, rfl, heff, hrest⟩)
    · exact ⟨[], c, calls, rfl, heff, hrest⟩
    · exact ⟨c :: before, once, rest, rfl, heff, hrest⟩

theorem Overtakes.callsAgain (h : Overtakes rt active x calls) : CallsAgain x calls := by
  obtain ⟨between, again, after, rfl, -, -, -, c, hc, hother⟩ := h
  exact ⟨c, by simp [hc], hother⟩

/-- Whoever repeats, somebody other than `x` calls. -/
theorem Repeats.callsAgain (x : Client) (h : Repeats rt active calls) : CallsAgain x calls := by
  obtain ⟨before, once, rest, rfl, heff, hrest⟩ := h
  by_cases hx : once.client = x
  · obtain ⟨c, hc, hother⟩ := hrest.callsAgain
    exact ⟨c, by simp [hc], hx ▸ hother⟩
  · refine ⟨once, by simp, hx, ?_⟩
    simp only [RotateCall.isEffective, Bool.and_eq_true] at heff
    exact heff.1.1

/-- What a phase detects is what the next one does. -/
theorem detects_cons (p : Phase) :
    p.Detects rt active (c :: calls) ↔ (p.next rt active c).Detects rt active calls := by
  cases p with
  | together =>
    rw [Phase.Detects, Phase.next, repeats_cons]
    split_ifs with heff
    · simp [Phase.Detects, heff]
    · simp [Phase.Detects, heff]
  | ahead x =>
    rw [Phase.Detects, Phase.next, overtakes_cons, repeats_cons]
    split_ifs with heff hx
    · subst hx
      simp only [Phase.Detects, heff, true_and, forall_const]
      constructor
      · rintro ((h | h) | h | h)
        · exact h
        · exact h.callsAgain
        · exact h.callsAgain
        · exact h.callsAgain _
      · exact fun h => .inl (.inl h)
    · simp [Phase.Detects, heff, hx]
    · simp [Phase.Detects, heff]
  | stale x =>
    rw [Phase.Detects, Phase.next, callsAgain_cons]
    split_ifs with hc
    · simp [Phase.Detects, hc]
    · simp [Phase.Detects, hc]
  | revoked => exact Iff.rfl

/-- A run of phases ends with the family revoked exactly when its calls are detected. -/
theorem foldl_next_eq_revoked (rt : Runtime) (active : Bool) (p : Phase) (calls : List RotateCall) :
    calls.foldl (fun p c => p.next rt active c) p = .revoked ↔ p.Detects rt active calls := by
  induction calls generalizing p with
  | nil =>
    cases p with
    | together => simp [Phase.Detects, not_repeats_nil]
    | ahead x => simp [Phase.Detects, not_repeats_nil, not_overtakes_nil]
    | stale x => simp [Phase.Detects, CallsAgain]
    | revoked => simp [Phase.Detects]
  | cons c calls ih => rw [List.foldl_cons, ih, detects_cons]

end

/-! ### From phase to phase -/

/-- What a call makes of the row and of what the clients hold. -/
def callRow (rt : Runtime) (active : Bool) (family : RefreshTokenFamily) (held : Client → Jti) (c : RotateCall) :
    RefreshTokenFamily × (Client → Jti) :=
  if c.decodes then
    let rotated := rotateRow rt c.now c.fresh c.request (held c.client) active family
    (rotated.1, rotated.2.jti.elim held (Function.update held c.client))
  else (family, held)

/-- The phase a family is in. -/
def Matches (family : RefreshTokenFamily) (held : Client → Jti) : Phase → Prop
  | .together => family.isRevoked = false ∧ ∀ x, held x = family.currentJti
  | .ahead x =>
    family.isRevoked = false ∧ held x = family.currentJti ∧ family.previousJti ≠ "" ∧
      family.previousJti ≠ family.currentJti ∧ ∀ y, y ≠ x → held y = family.previousJti
  | .stale x =>
    family.isRevoked = false ∧ held x = family.currentJti ∧ ∀ y, y ≠ x → family.isReuse (held y) = true
  | .revoked => family.isRevoked = true

section
variable {rt : Runtime} {active : Bool} {family : RefreshTokenFamily} {held : Client → Jti} {c : RotateCall}

theorem callRow_rotates (hrevoked : family.isRevoked = false) (hreuse : family.isReuse (held c.client) = false)
    (heff : c.isEffective rt active = true) :
    ∃ ip, callRow rt active family held c = (family.rotated c.fresh ip, Function.update held c.client c.fresh) := by
  simp only [RotateCall.isEffective, Bool.and_eq_true, Option.isSome_iff_exists] at heff
  obtain ⟨⟨hdecodes, rfl⟩, ip, hip⟩ := heff
  exact ⟨ip, by simp [callRow, rotateRow, hdecodes, hrevoked, hreuse, hip, Rotation.jti]⟩

theorem callRow_idle (hreuse : family.isReuse (held c.client) = false) (heff : ¬ c.isEffective rt active = true) :
    callRow rt active family held c = (family, held) := by
  unfold callRow
  split_ifs with hdecodes
  · unfold rotateRow
    split_ifs with hrevoked hreused hactive
    · rfl
    · rw [hreuse] at hreused
      cases hreused
    · rfl
    · rw [Bool.not_eq_true', Bool.not_eq_false] at hactive
      have hip : storeIp rt (clientIp c.request) = none := by
        simpa [RotateCall.isEffective, hdecodes, hactive] using heff
      rw [hip]
      rfl
  · rfl

theorem callRow_replay (hrevoked : family.isRevoked = false) (hreuse : family.isReuse (held c.client) = true)
    (hdecodes : c.decodes = true) :
    callRow rt active family held c = (family.revoked c.now "reuse_detected", held) := by
  simp [callRow, rotateRow, hdecodes, hrevoked, hreuse, Rotation.jti]

theorem callRow_revoked (hrevoked : family.isRevoked = true) : callRow rt active family held c = (family, held) := by
  simp [callRow, rotateRow, hrevoked, Rotation.jti]

theorem callRow_expired (hdecodes : c.decodes = false) : callRow rt active family held c = (family, held) := by
  simp [callRow, hdecodes]

/-- The identifier of a new token is not empty, and nobody has seen it. -/
def IsNew (family : RefreshTokenFamily) (held : Client → Jti) (jti : Jti) : Prop :=
  jti ≠ "" ∧ jti ≠ family.currentJti ∧ ∀ x, jti ≠ held x

/-- A call that rotates takes the family to the next phase. -/
theorem matches_rotated {p : Phase} {ip : Option String} (hne : family.currentJti ≠ "")
    (hnew : IsNew family held c.fresh) (heff : c.isEffective rt active = true)
    (hp : Matches family held p) (hreuse : family.isReuse (held c.client) = false) :
    Matches (family.rotated c.fresh ip) (Function.update held c.client c.fresh) (p.next rt active c) := by
  obtain ⟨-, hcurrent, hheld⟩ := hnew
  cases p with
  | together =>
    obtain ⟨hrevoked, hp⟩ := hp
    rw [Phase.next, if_pos heff]
    refine ⟨hrevoked, by simp, hne, hcurrent.symm, fun y hy => ?_⟩
    rw [Function.update_of_ne hy, hp y, rotated_previousJti]
  | ahead x =>
    obtain ⟨hrevoked, hx, hprevious, hdiffer, hothers⟩ := hp
    rw [Phase.next, if_pos heff]
    split_ifs with hclient
    · -- the other falls behind by two rotations
      subst hclient
      refine ⟨hrevoked, by simp, fun y hy => ?_⟩
      rw [Function.update_of_ne hy, RefreshTokenFamily.isReuse, Bool.and_eq_true, decide_eq_true_eq,
        decide_eq_true_eq, rotated_currentJti, rotated_previousJti]
      exact ⟨(hheld y).symm, .inr (by rw [hothers y hy]; exact hdiffer)⟩
    · -- the other catches up, and `x` is behind by one
      refine ⟨hrevoked, by simp, hne, hcurrent.symm, fun y hy => ?_⟩
      have hyx : y = x := by
        cases x <;> cases y <;> cases h : c.client <;> simp_all
      rw [Function.update_of_ne hy, hyx, hx, rotated_previousJti]
  | stale x =>
    obtain ⟨hrevoked, hx, hothers⟩ := hp
    have hclient : c.client = x := by
      by_contra h
      rw [hothers _ h] at hreuse
      cases hreuse
    subst hclient
    rw [Phase.next, if_neg (by simp)]
    refine ⟨hrevoked, by simp, fun y hy => ?_⟩
    have hold := hothers y hy
    rw [RefreshTokenFamily.isReuse, Bool.and_eq_true, decide_eq_true_eq, decide_eq_true_eq] at hold
    rw [Function.update_of_ne hy, RefreshTokenFamily.isReuse, Bool.and_eq_true, decide_eq_true_eq,
      decide_eq_true_eq, rotated_currentJti, rotated_previousJti]
    exact ⟨(hheld y).symm, .inr hold.1⟩
  | revoked => exact hp

/-- Only a client that is behind by two rotations presents a token that is taken for a replay. -/
theorem Matches.isReuse {p : Phase} (hp : Matches family held p) (hunrevoked : p ≠ .revoked) {y : Client}
    (h : family.isReuse (held y) = true) : ∃ x, p = .stale x ∧ y ≠ x := by
  cases p with
  | together =>
    rw [isReuse_eq_false.mpr (.inl (hp.2 y))] at h
    cases h
  | ahead x =>
    obtain ⟨-, hx, hprevious, -, hothers⟩ := hp
    have hlatest : family.isReuse (held y) = false := by
      rw [isReuse_eq_false]
      by_cases hy : y = x
      · exact .inl (hy ▸ hx)
      · exact .inr ⟨hprevious, hothers y hy⟩
    rw [hlatest] at h
    cases h
  | stale x =>
    refine ⟨x, rfl, ?_⟩
    rintro rfl
    rw [isReuse_eq_false.mpr (.inl hp.2.1)] at h
    cases h
  | revoked => exact absurd rfl hunrevoked

theorem Matches.isRevoked {p : Phase} (hp : Matches family held p) (hunrevoked : p ≠ .revoked) :
    family.isRevoked = false := by
  cases p with
  | together => exact hp.1
  | ahead x => exact hp.1
  | stale x => exact hp.1
  | revoked => exact absurd rfl hunrevoked

/-- **A call takes the family from phase to phase.** -/
theorem matches_call {p : Phase} (hne : family.currentJti ≠ "") (hnew : IsNew family held c.fresh)
    (hp : Matches family held p) :
    Matches (callRow rt active family held c).1 (callRow rt active family held c).2 (p.next rt active c) := by
  by_cases hunrevoked : p = .revoked
  · subst hunrevoked
    rw [callRow_revoked hp]
    exact hp
  · have hrevoked := hp.isRevoked hunrevoked
    cases hreuse : family.isReuse (held c.client) with
    | true =>
      obtain ⟨x, rfl, hx⟩ := hp.isReuse hunrevoked hreuse
      cases hdecodes : c.decodes with
      | true =>
        rw [callRow_replay hrevoked hreuse hdecodes, Phase.next, if_pos ⟨hx, hdecodes⟩]
        rfl
      | false =>
        rw [callRow_expired hdecodes, Phase.next, if_neg (by simp [hdecodes])]
        exact hp
    | false =>
      by_cases heff : c.isEffective rt active = true
      · obtain ⟨ip, hcall⟩ := callRow_rotates hrevoked hreuse heff
        rw [hcall]
        exact matches_rotated hne hnew heff hp hreuse
      · rw [callRow_idle hreuse heff]
        have hnext : p.next rt active c = p := by
          cases p with
          | together => rw [Phase.next, if_neg heff]
          | ahead x => rw [Phase.next, if_neg heff]
          | stale x =>
            refine if_neg fun hc => ?_
            rw [hp.2.2 c.client hc.1] at hreuse
            cases hreuse
          | revoked => rfl
        rw [hnext]
        exact hp

end

/-! ### Runs -/

section
variable {rt : Runtime} {familyId : FamilyId} {user : UserId} {active : Bool}

variable (rt user) in
/-- A call does to the state what it does to the row. -/
theorem call_row {t : Theft} (c : RotateCall) {family : RefreshTokenFamily}
    (hrow : t.state.families.find? familyId = some family) (hactive : t.state.isActive family.user = active) :
    (t.call rt familyId user c).state.families.find? familyId = some (callRow rt active family t.held c).1 ∧
      (t.call rt familyId user c).held = (callRow rt active family t.held c).2 ∧
      (t.call rt familyId user c).state.users = t.state.users := by
  subst hactive
  have hfind := Table.find?_modify (f := fun family : RefreshTokenFamily =>
    (rotateRow rt c.now c.fresh c.request (t.held c.client) (t.state.isActive family.user) family).1)
    t.state.families familyId (fun _ => familyId_rotateRow) familyId
  rw [if_pos rfl, hrow, Option.map_some] at hfind
  unfold Theft.call Theft.token callRow
  split_ifs with hdecodes
  · simp only [rotateRefresh, Prog.run_atomic, hrow]
    generalize rotateRow rt c.now c.fresh c.request (t.held c.client) (t.state.isActive family.user) family = r at hfind
    cases hjti : r.2.jti with
    | none => exact ⟨hfind, rfl, rfl⟩
    | some jti => exact ⟨hfind, rfl, rfl⟩
  · exact ⟨hrow, rfl, rfl⟩

/-- What a call keeps of the family: who owns it, and that its current token has an identifier. -/
theorem callRow_kept (rt : Runtime) (active : Bool) (family : RefreshTokenFamily) (held : Client → Jti)
    (c : RotateCall) :
    (callRow rt active family held c).1.user = family.user ∧
      ((callRow rt active family held c).1.currentJti = family.currentJti ∨
        (callRow rt active family held c).1.currentJti = c.fresh) ∧
      ∀ x, (callRow rt active family held c).2 x = held x ∨ (callRow rt active family held c).2 x = c.fresh := by
  unfold callRow
  split_ifs with hdecodes
  · rcases rotateRow_cases rt c.now c.fresh (held c.client) c.request active family with
      ⟨ip, -, -, h⟩ | ⟨-, -, h⟩ | ⟨hrow, hjti⟩
    · rw [h]
      refine ⟨rfl, .inr rfl, fun x => ?_⟩
      by_cases hx : x = c.client
      · exact .inr (by simp [Rotation.jti, hx])
      · exact .inl (by simp [Rotation.jti, hx])
    · rw [h]
      exact ⟨rfl, .inl rfl, fun x => .inl rfl⟩
    · simp only [hrow, hjti, Option.elim_none]
      exact ⟨trivial, .inl trivial, fun x => .inl trivial⟩
  · exact ⟨rfl, .inl rfl, fun x => .inl rfl⟩

variable (rt user) in
/-- The calls take the family from phase to phase. -/
theorem matches_foldl {calls : List RotateCall} {t : Theft} {family : RefreshTokenFamily} {p : Phase}
    (hrow : t.state.families.find? familyId = some family) (hactive : t.state.isActive family.user = active)
    (hne : family.currentJti ≠ "") (hnew : ∀ c ∈ calls, IsNew family t.held c.fresh)
    (hdistinct : (calls.map RotateCall.fresh).Nodup) (hp : Matches family t.held p) :
    ∃ family' held, (calls.foldl (Theft.call rt familyId user) t).state.families.find? familyId = some family' ∧
      Matches family' held (calls.foldl (fun p c => p.next rt active c) p) := by
  induction calls generalizing t family p with
  | nil => exact ⟨family, t.held, hrow, hp⟩
  | cons c calls ih =>
    obtain ⟨hrow', hheld', husers⟩ := call_row rt user c hrow hactive
    obtain ⟨hother, hcurrent, hheld⟩ := callRow_kept rt active family t.held c
    have hfirst := hnew c List.mem_cons_self
    rw [List.map_cons, List.nodup_cons] at hdistinct
    obtain ⟨hfresh, hdistinct⟩ := hdistinct
    refine ih hrow' ?_ ?_ ?_ hdistinct ?_
    · rw [hother, State.isActive, husers]
      exact hactive
    · rcases hcurrent with h | h
      · rw [h]
        exact hne
      · rw [h]
        exact hfirst.1
    · intro d hd
      have hlater := hnew d (List.mem_cons_of_mem _ hd)
      have hdiffer : d.fresh ≠ c.fresh := fun h => hfresh (h ▸ List.mem_map_of_mem hd)
      refine ⟨hlater.1, ?_, fun x => ?_⟩
      · rcases hcurrent with h | h
        · rw [h]
          exact hlater.2.1
        · rw [h]
          exact hdiffer
      · rw [hheld']
        rcases hheld x with h | h
        · rw [h]
          exact hlater.2.2 x
        · rw [h]
          exact hdiffer
    · rw [hheld']
      exact matches_call hne hfirst hp

/-- **The theft is detected exactly when a client rotates twice while the other does not rotate, and the other
calls again.** Both begin with the current token; the identifiers of the tokens are distinct, and none is
empty. -/
theorem detected_iff {s : State} {family : RefreshTokenFamily} (hrow : s.families.find? familyId = some family)
    (hrevoked : family.isRevoked = false) (calls : List RotateCall)
    (hdistinct : (family.currentJti :: calls.map RotateCall.fresh).Nodup)
    (hne : "" ∉ family.currentJti :: calls.map RotateCall.fresh) :
    (calls.foldl (Theft.call rt familyId user) ⟨s, fun _ => family.currentJti⟩).state.familyRevoked familyId = true ↔
      Repeats rt (s.isActive family.user) calls := by
  rw [List.nodup_cons] at hdistinct
  rw [List.mem_cons, not_or] at hne
  have hnew : ∀ c ∈ calls, IsNew family (fun _ => family.currentJti) c.fresh := by
    intro c hc
    have hmem : c.fresh ∈ calls.map RotateCall.fresh := List.mem_map_of_mem hc
    have hdiffer : c.fresh ≠ family.currentJti := fun h => hdistinct.1 (h ▸ hmem)
    exact ⟨fun h => hne.2 (h ▸ hmem), hdiffer, fun _ => hdiffer⟩
  have hstart : Matches family (fun _ => family.currentJti) .together := ⟨hrevoked, fun _ => rfl⟩
  obtain ⟨family', held, hrow', hp⟩ := matches_foldl rt user (t := ⟨s, fun _ => family.currentJti⟩) hrow rfl
    (Ne.symm hne.1) hnew hdistinct.2 hstart
  have hdetects := foldl_next_eq_revoked rt (s.isActive family.user) .together calls
  rw [State.familyRevoked, hrow', Option.any_some]
  constructor
  · intro h
    refine hdetects.mp ?_
    by_contra hphase
    rw [hp.isRevoked hphase] at h
    cases h
  · intro h
    rw [hdetects.mpr h] at hp
    exact hp

end

/-! ### Samples -/

/-- A call from a usual address. -/
def sampleRotate (client : Client) (fresh : Jti) : RotateCall :=
  { client := client, now := 1, fresh := fresh, request := ⟨none, some "203.0.113.7"⟩ }

/-- The clients take turns. -/
def takeTurns : List RotateCall :=
  [sampleRotate .first "j1", sampleRotate .second "j2", sampleRotate .first "j3", sampleRotate .second "j4",
    sampleRotate .first "j5", sampleRotate .second "j6"]

/-- One client rotates twice, and then the other calls. -/
def getAhead : List RotateCall := [sampleRotate .first "j1", sampleRotate .first "j2", sampleRotate .second "j3"]

/-- A client that is two rotations behind is detected. -/
theorem detected_iff_sample :
    (getAhead.foldl (Theft.call sampleRuntime "f" "u") ⟨sampleFamilyState, fun _ => "j0"⟩).state.familyRevoked "f" =
      true := by
  have hrow : sampleFamilyState.families.find? "f" = some sampleFamily := rfl
  refine (detected_iff hrow rfl getAhead (by decide) (by decide)).mpr ?_
  refine ⟨[], sampleRotate .first "j1", _, rfl, by decide +kernel, [], sampleRotate .first "j2", _, rfl, rfl,
    by decide +kernel, by simp, sampleRotate .second "j3", List.mem_singleton.mpr rfl, by decide, rfl⟩

/-- Clients that take turns are never detected. -/
theorem not_detected :
    ¬ ∀ (rt : Runtime) (familyId : FamilyId) (user : UserId) (s : State) (family : RefreshTokenFamily)
        (calls : List RotateCall), s.families.find? familyId = some family → family.isRevoked = false →
      (family.currentJti :: calls.map RotateCall.fresh).Nodup →
      "" ∉ family.currentJti :: calls.map RotateCall.fresh →
      (∀ x, 3 ≤ calls.countP fun c => decide (c.client = x)) →
      (calls.foldl (Theft.call rt familyId user) ⟨s, fun _ => family.currentJti⟩).state.familyRevoked familyId =
        true := by
  intro h
  have hdetected := h sampleRuntime "f" "u" sampleFamilyState sampleFamily takeTurns rfl rfl (by decide) (by decide)
    fun x => by cases x <;> decide
  revert hdetected
  decide +kernel

end StratTrader.Users
