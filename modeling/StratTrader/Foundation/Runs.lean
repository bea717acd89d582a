/-!
# Runs of a labelled step relation

A system is a relation that says which action leads from which state to which. Its runs
are the chains of steps; where a result holds only under a condition on the steps, the
condition is a predicate on the state before the step and its action, and the runs are
those all of whose steps satisfy it.

Two rules carry every result about runs from one step to all: `Run.invariant`, for what
holds of the states of a run, and `Run.kept`, for what holds between any state of a run
and a later one.
-/

namespace StratTrader.Foundation

universe u v

variable {σ : Type u} {α : Type v}

/-- The runs of `step` all of whose steps satisfy `P`. -/
inductive Run (step : σ → α → σ → Prop) (P : σ → α → Prop) : σ → σ → Prop where
  /-- No step. -/
  | refl (s : σ) : Run step P s s
  /-- One step more. -/
  | step {s t u : σ} {a : α} (h : Run step P s t) (hs : step t a u) (hP : P t a) : Run step P s u

/-- The condition that every step satisfies. -/
def AnyStep : σ → α → Prop := fun _ _ => True

namespace Run

variable {step : σ → α → σ → Prop} {P : σ → α → Prop} {s t u : σ}

/-- A run of one step. -/
theorem single {a : α} (hs : step s a t) (hP : P s a) : Run step P s t := (refl s).step hs hP

theorem trans (h : Run step P s t) (h' : Run step P t u) : Run step P s u := by
  induction h' with
  | refl => exact h
  | step _ hs hP ih => exact ih.step hs hP

/-- A run of one system is one of another that allows its steps. -/
theorem mono {step' : σ → α → σ → Prop} {P' : σ → α → Prop} (h : Run step P s t)
    (hstep : ∀ {a s' t'}, step s' a t' → P s' a → step' s' a t' ∧ P' s' a) : Run step' P' s t := by
  induction h with
  | refl => exact refl _
  | step _ hs hP ih => exact ih.step (hstep hs hP).1 (hstep hs hP).2

/-- What holds at the start and is kept by every step holds of every state of a run. -/
theorem invariant (I : σ → Prop) (h : Run step P s t) (h0 : I s)
    (hstep : ∀ {a s' t'}, step s' a t' → P s' a → I s' → I t') : I t := by
  induction h with
  | refl => exact h0
  | step _ hs hP ih => exact hstep hs hP ih

/-- What holds between the two states of every step, and is reflexive and transitive, holds
between the ends of every run. -/
theorem kept (K : σ → σ → Prop) (h : Run step P s t) (hrefl : ∀ s, K s s)
    (htrans : ∀ {a b c}, K a b → K b c → K a c) (hstep : ∀ {a s' t'}, step s' a t' → P s' a → K s' t') :
    K s t := by
  induction h with
  | refl => exact hrefl _
  | step _ hs hP ih => exact htrans ih (hstep hs hP)

end Run

/-! ### Steps that are computed -/

section Computed
variable {apply : σ → α → Option σ} {P : σ → α → Prop}

/-- The state behind some steps. -/
def follow (apply : σ → α → Option σ) : List α → σ → Option σ
  | [], s => some s
  | a :: as, s => (apply s a).bind (follow apply as)

/-- Each of some steps satisfies a condition. -/
def Along (apply : σ → α → Option σ) (P : σ → α → Prop) : List α → σ → Prop
  | [], _ => True
  | a :: as, s => P s a ∧ ∀ t, apply s a = some t → Along apply P as t

theorem along_anyStep (as : List α) (s : σ) : Along apply AnyStep as s := by
  induction as generalizing s with
  | nil => trivial
  | cons a as ih => exact ⟨trivial, fun t _ => ih t⟩

theorem along_cons {a : α} {as : List α} {s t : σ} (h : apply s a = some t) (hP : P s a) (hrest : Along apply P as t) :
    Along apply P (a :: as) s := by
  refine ⟨hP, fun u hu => ?_⟩
  rw [h] at hu
  cases hu
  exact hrest

/-- Whether each of some steps satisfies a condition is computed with the steps. -/
instance decidableAlong [∀ s a, Decidable (P s a)] : (as : List α) → (s : σ) → Decidable (Along apply P as s)
  | [], _ => .isTrue trivial
  | a :: as, s =>
    match h : apply s a with
    | none => decidable_of_iff (P s a) ⟨fun hP => ⟨hP, fun t ht => by rw [h] at ht; cases ht⟩, And.left⟩
    | some t =>
      have := decidableAlong as t
      decidable_of_iff (P s a ∧ Along apply P as t)
        ⟨fun hP => along_cons h hP.1 hP.2, fun hP => ⟨hP.1, hP.2 t h⟩⟩

/-- Steps that can be followed are a run. -/
theorem run_of_follow {as : List α} {s t : σ} (h : follow apply as s = some t) (hP : Along apply P as s) :
    Run (fun s a t => apply s a = some t) P s t := by
  induction as generalizing s with
  | nil =>
    cases h
    exact .refl _
  | cons a as ih =>
    obtain ⟨u, hu, hrest⟩ := Option.bind_eq_some_iff.mp h
    exact (Run.single hu hP.1).trans (ih hrest (hP.2 u hu))

/-- What every step keeps holds behind steps that are followed. -/
theorem follow_invariant {I : σ → Prop} (hstep : ∀ {s a t}, apply s a = some t → I s → I t) {as : List α} {s t : σ}
    (h : follow apply as s = some t) (hs : I s) : I t :=
  (run_of_follow h (along_anyStep as s)).invariant I hs fun hst _ hI => hstep hst hI

/-- Steps that change nothing may be left out. -/
theorem follow_filter {p : α → Bool} (hp : ∀ s a, p a = false → apply s a = some s) (as : List α) (s : σ) :
    follow apply (as.filter p) s = follow apply as s := by
  induction as generalizing s with
  | nil => rfl
  | cons a as ih =>
    cases ha : p a with
    | true =>
      rw [List.filter_cons_of_pos ha]
      exact congrArg _ (funext ih)
    | false =>
      rw [List.filter_cons_of_neg (by rw [ha]; exact Bool.false_ne_true), ih]
      exact (congrArg (fun o => Option.bind o (follow apply as)) (hp s a ha)).symm

/-- **Steps that commute** may be followed in every order. -/
theorem follow_perm (hcomm : ∀ {s a b t u}, apply s a = some t → apply t b = some u →
    ∃ t', apply s b = some t' ∧ apply t' a = some u) {as bs : List α} (hperm : as.Perm bs) {s t : σ}
    (h : follow apply as s = some t) : follow apply bs s = some t := by
  induction hperm generalizing s with
  | nil => exact h
  | cons a _ ih =>
    obtain ⟨u, hu, hrest⟩ := Option.bind_eq_some_iff.mp h
    exact Option.bind_eq_some_iff.mpr ⟨u, hu, ih hrest⟩
  | swap b a as =>
    obtain ⟨u, hu, h⟩ := Option.bind_eq_some_iff.mp h
    obtain ⟨v, hv, hrest⟩ := Option.bind_eq_some_iff.mp h
    obtain ⟨u', hu', hv'⟩ := hcomm hu hv
    exact Option.bind_eq_some_iff.mpr ⟨u', hu', Option.bind_eq_some_iff.mpr ⟨v, hv', hrest⟩⟩
  | trans _ _ ih ih' => exact ih' (ih h)

end Computed

end StratTrader.Foundation
