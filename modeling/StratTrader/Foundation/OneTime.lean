import StratTrader.Foundation.Stages

/-!
# Secrets that are used once

A call that is given a secret looks whether it has been used, and if it has not, marks it
used and accepts it. The look and the mark are two actions, so two calls may both find the
secret unused and both accept it.

## What is proved

* `OneTime.at_most_once`: where a call finds a secret unused only while no other call that has
  found it unused is still under way, every secret is accepted at most once.
-/

namespace StratTrader.Foundation.OneTime

open StratTrader.Foundation

universe u v

variable {σ : Type u} {κ : Type v}

/-- How far a call has come. -/
inductive Stage (κ : Type v) where
  /-- It has not looked yet. -/
  | asked
  /-- It has found the secret unused. -/
  | found (secret : κ)
  /-- It has marked the secret, and accepts it. -/
  | accepted (secret : κ)
  /-- It refuses. -/
  | refused
  deriving DecidableEq

/-- What a call may do, where `used` says which secrets have been used. -/
inductive Move (used : σ → κ → Prop) : Stage κ → σ → σ → Stage κ → Prop where
  /-- The secret has not been used. -/
  | find (s : σ) (secret : κ) (h : ¬ used s secret) : Move used .asked s s (.found secret)
  /-- There is no such secret, or it has been used. -/
  | refuse (s : σ) : Move used .asked s s .refused
  /-- Mark the secret. -/
  | take (s t : σ) (secret : κ) (h : used t secret) (hkeep : ∀ other, used s other → used t other) :
    Move used (.found secret) s t (.accepted secret)

/-- What a call has to say at a stage: the secret it accepts, if any. -/
def Done : Stage κ → Option κ → Prop
  | .asked, a => a = none
  | .found _, _ => False
  | .accepted secret, a => a = some secret
  | .refused, a => a = none

variable [DecidableEq κ]

/-- A call finds a secret unused only while no other call that has found it unused is under way. -/
def AloneWith (_ : σ) (stages : List (Stage κ)) : CrowdAct (Stage κ) → Prop
  | .move .asked (.found secret) => Stage.found secret ∉ stages
  | .move _ _ | .start | .kill | .outside => True

omit [DecidableEq κ] in
/-- A call is alone where it is the only one. -/
theorem aloneWith_single {s : σ} (q q' : Stage κ) : AloneWith s [q] (.move q q') := by
  cases q with
  | asked => cases q' <;> simp [AloneWith]
  | found secret => trivial
  | accepted secret => trivial
  | refused => trivial

omit [DecidableEq κ] in
/-- A call is alone behind one that is not under way. -/
theorem aloneWith_pair {s : σ} {p : Stage κ} (hp : ∀ secret, p ≠ .found secret) (q q' : Stage κ) :
    AloneWith s [p, q] (.move q q') := by
  cases q with
  | asked =>
    cases q' with
    | found secret => simp [AloneWith, (hp secret).symm]
    | asked | accepted _ | refused => trivial
  | found secret => trivial
  | accepted secret => trivial
  | refused => trivial

/-- A secret is accepted by at most one call, and while none has marked it, at most one may. -/
def Exclusive (used : σ → κ → Prop) (s : σ) (stages : List (Stage κ)) : Prop :=
  ∀ secret, stages.count (.found secret) + stages.count (.accepted secret) ≤ 1 ∧
    (Stage.accepted secret ∈ stages → used s secret)

variable {used : σ → κ → Prop}

theorem Exclusive.move {s t : σ} {qs rs : List (Stage κ)} {q q' : Stage κ} (hmove : Move used q s t q')
    (halone : AloneWith s (qs ++ q :: rs) (.move q q')) (h : Exclusive used s (qs ++ q :: rs)) :
    Exclusive used t (qs ++ q' :: rs) := by
  intro secret
  obtain ⟨hcount, hused⟩ := h secret
  cases hmove with
  | refuse =>
    refine ⟨by simpa [List.count_cons] using hcount, fun hmem => hused ?_⟩
    simpa using hmem
  | find _ secret' hunused =>
    refine ⟨?_, fun hmem => hused (by simpa using hmem)⟩
    by_cases heq : secret' = secret
    · -- the secret that is found: no call has found it, and none has accepted it
      subst heq
      have hfound : (qs ++ Stage.asked :: rs).count (.found secret') = 0 := List.count_eq_zero.mpr halone
      have haccepted : (qs ++ Stage.asked :: rs).count (.accepted secret') = 0 :=
        List.count_eq_zero.mpr fun hmem => hunused (hused hmem)
      simp at hfound haccepted ⊢
      omega
    · simpa [List.count_cons, heq] using hcount
  | take _ _ secret' hnow hkeep =>
    by_cases heq : secret' = secret
    · subst heq
      refine ⟨?_, fun _ => hnow⟩
      simp at hcount ⊢
      omega
    · refine ⟨by simpa [List.count_cons, heq] using hcount, fun hmem => hkeep _ (hused ?_)⟩
      have hne : Stage.accepted secret ≠ .accepted secret' := fun h => heq (Stage.accepted.inj h).symm
      simpa [hne] using hmem

/-- **A secret is accepted at most once** in a run from a state without calls in which every call finds
secrets unused only while alone with them. -/
theorem at_most_once {begins : Call (Move used) Done → Prop} {env : σ → σ → Prop}
    (hbegins : ∀ c, begins c → c.stage = .asked) (henv : ∀ s t, env s t → ∀ secret, used s secret → used t secret)
    {s : σ} {crowd : Crowd (Move used) Done} (h : Run (CrowdStep begins env) (OnStages AloneWith) ⟨s, []⟩ crowd)
    (secret : κ) : crowd.calls.countP (fun c => decide (c.returned = some (some secret))) ≤ 1 := by
  have hinv : Exclusive used crowd.state crowd.stages := by
    refine h.stages_invariant (Exclusive used) ?_ ?_ ?_ ?_ ?_
    · intro secret
      simp [Crowd.stages]
    · intro s qs c hc hI secret
      obtain ⟨hcount, hused⟩ := hI secret
      rw [hbegins c hc]
      exact ⟨by simpa [List.count_cons] using hcount, fun hmem => hused (by simpa using hmem)⟩
    · intro s t qs rs q q' hmove halone hI
      exact hI.move hmove halone
    · intro s qs rs q _ _ hI secret
      obtain ⟨hcount, hused⟩ := hI secret
      refine ⟨?_, fun hmem => hused ?_⟩
      · simp only [List.count_append, List.count_cons] at hcount ⊢
        omega
      · rcases List.mem_append.mp hmem with hmem | hmem
        · exact List.mem_append_left _ hmem
        · exact List.mem_append_right _ (List.mem_cons_of_mem _ hmem)
    · intro s t qs he hI secret
      exact ⟨(hI secret).1, fun hmem => henv s t he secret ((hI secret).2 hmem)⟩
  have haccepted : ∀ c : Call (Move used) Done,
      decide (c.returned = some (some secret)) = true → (c.stage == .accepted secret) = true := by
    intro c hc
    have hdone := Call.done_of_returned (of_decide_eq_true hc)
    revert hdone
    cases c.stage with
    | asked => exact fun h => by cases h
    | found => exact fun h => h.elim
    | accepted other => exact fun h => by simp [Option.some.inj h]
    | refused => exact fun h => by cases h
  have hreturned := crowd.countP_le _ (fun q => q == .accepted secret) haccepted
  have hcount := (hinv secret).1
  simp only [List.count] at hcount
  omega

end StratTrader.Foundation.OneTime
