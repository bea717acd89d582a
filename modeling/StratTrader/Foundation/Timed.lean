import StratTrader.Foundation.Atomic
import Mathlib.Order.Defs.PartialOrder

/-!
# Programs that end in time

A pool of programs as in `Foundation.Atomic`, over a state with a clock, each program with a
deadline by which it ends or is killed. The programs do not move the clock; the environment
does, and never past the deadline of a program that is running. This is how a bound on what
a program knows in terms of the time it began outlasts its last action.

## What is proved

* `TimedPool.kept`: if every action of every program, and of the environment, is one of the
  changes that a relation `G` allows, and these keep `I`, then every state of a run has `I`.
  A program may rely on its deadline.
* `TimedStep.good`: a step of such a run is a change that `G` allows, or none.
* `Run.moves`: a program does its next actions with nothing in between.
-/

namespace StratTrader.Foundation

universe u v

variable {σ : Type u} {τ : Type v}

/-- A program that is running. -/
structure Timed (σ : Type u) (τ : Type v) where
  /-- The time by which it ends. -/
  deadline : τ
  /-- What is left of it. -/
  program : Prog.{u, 0} σ PUnit

/-- A state, and the programs that are running. -/
structure TimedPool (σ : Type u) (τ : Type v) where
  /-- The shared state. -/
  state : σ
  /-- The programs. -/
  programs : List (Timed σ τ)

variable [Preorder τ]

/-- The steps of a pool in which the programs of `prog`, of the time they begin and of their deadline,
may be started, in an environment `env`. -/
inductive TimedStep (clock : σ → τ) (prog : τ → τ → Prog σ PUnit → Prop) (env : σ → σ → Prop) :
    TimedPool σ τ → PoolAct → TimedPool σ τ → Prop where
  /-- Start a program. -/
  | start {p : Timed σ τ} (s : σ) (ps : List (Timed σ τ)) (h : prog (clock s) p.deadline p.program)
      (hle : clock s ≤ p.deadline) : TimedStep clock prog env ⟨s, ps⟩ .start ⟨s, ps ++ [p]⟩
  /-- Do the next action of a program. -/
  | move (s : σ) (ps qs : List (Timed σ τ)) (d : τ) (upd : σ → σ) (next : σ → Prog σ PUnit) :
    TimedStep clock prog env ⟨s, ps ++ ⟨d, .act upd next⟩ :: qs⟩ .move ⟨upd s, ps ++ ⟨d, next s⟩ :: qs⟩
  /-- End a program, or kill it. -/
  | kill (s : σ) (ps qs : List (Timed σ τ)) (p : Timed σ τ) :
    TimedStep clock prog env ⟨s, ps ++ p :: qs⟩ .kill ⟨s, ps ++ qs⟩
  /-- Let the environment act, within every deadline. -/
  | outside {s t : σ} (ps : List (Timed σ τ)) (h : env s t) (hle : ∀ p ∈ ps, clock t ≤ p.deadline) :
    TimedStep clock prog env ⟨s, ps⟩ .outside ⟨t, ps⟩

variable {clock : σ → τ} {prog : τ → τ → Prog σ PUnit → Prop} {env : σ → σ → Prop}

/-! ### The next actions of one program -/

/-- A program does `n` actions, with nothing in between; what holds of the states it makes on the way
holds of the run. -/
theorem Run.moves {K : σ → Prop} (n : Nat) (d : τ) (p : Prog σ PUnit) (s : σ) (ps qs : List (Timed σ τ))
    (hK : ∀ k < n, K (p.runFor (k + 1) s)) :
    Run (fun P a Q => TimedStep clock prog env P a Q ∧ K Q.state) AnyStep ⟨s, ps ++ ⟨d, p⟩ :: qs⟩
      ⟨p.runFor n s, ps ++ ⟨d, p.restFor n s⟩ :: qs⟩ := by
  induction n generalizing p s with
  | zero => exact Run.refl _
  | succ n ih =>
    cases p with
    | ret a => exact Run.refl _
    | act upd next =>
      have hfirst : K (upd s) := hK 0 n.succ_pos
      exact (Run.single ⟨TimedStep.move s ps qs d upd next, hfirst⟩ trivial).trans
        (ih (next s) (upd s) fun k hk => hK (k + 1) (Nat.succ_lt_succ hk))

/-! ### What a run keeps -/

/-- The changes that `G` allows, up to a deadline. -/
def Within (clock : σ → τ) (G : σ → σ → Prop) (d : τ) (s t : σ) : Prop := G s t ∧ clock t ≤ d

/-- A program that knows something true, and stable up to its deadline, and guarantees `G` knowing it. -/
def Timed.Good (clock : σ → τ) (G : σ → σ → Prop) (s : σ) (p : Timed σ τ) : Prop :=
  clock s ≤ p.deadline ∧ ∃ F, Prog.Stable (Within clock G p.deadline) F ∧ F s ∧
    p.program.Guarantees (Within clock G p.deadline) (fun s t => G s t ∧ clock t = clock s) (fun _ _ => True) F

/-- The state has `I`, and the programs guarantee `G`. -/
def TimedPool.Good (clock : σ → τ) (I : σ → Prop) (G : σ → σ → Prop) (P : TimedPool σ τ) : Prop :=
  I P.state ∧ ∀ p ∈ P.programs, p.Good clock G P.state

/-- What a program guarantees that begins at a time with a deadline. -/
def Starts (clock : σ → τ) (I : σ → Prop) (G : σ → σ → Prop) (prog : τ → τ → Prog σ PUnit → Prop) : Prop :=
  ∀ began d p, prog began d p → p.Guarantees (Within clock G d) (fun s t => G s t ∧ clock t = clock s)
    (fun _ _ => True) fun s => I s ∧ began ≤ clock s ∧ clock s ≤ d

variable {I : σ → Prop} {G : σ → σ → Prop}

theorem Timed.Good.stable {s t : σ} {p : Timed σ τ} (h : p.Good clock G s) (hG : G s t)
    (hle : clock t ≤ p.deadline) : p.Good clock G t := by
  obtain ⟨-, F, hst, hF, hp⟩ := h
  exact ⟨hle, F, hst, hst s t ⟨hG, hle⟩ hF, hp⟩

section
variable (hI : ∀ s t, I s → G s t → I t) (hclock : ∀ s t, G s t → clock s ≤ clock t)
  (hprog : Starts clock I G prog) (henv : ∀ s t, env s t → G s t)
include hI hclock hprog henv

theorem TimedStep.good {P Q : TimedPool σ τ} {a : PoolAct} (h : TimedStep clock prog env P a Q)
    (hP : P.Good clock I G) : Q.Good clock I G ∧ (G P.state Q.state ∨ Q.state = P.state) := by
  obtain ⟨hPI, hPs⟩ := hP
  cases h with
  | @start p s ps hp hle =>
    refine ⟨⟨hPI, fun q hq => ?_⟩, .inr rfl⟩
    rcases List.mem_append.mp hq with hq | hq
    · exact hPs q hq
    · rw [List.mem_singleton.mp hq]
      refine ⟨hle, _, fun s' t' hst hF => ?_, ⟨hPI, le_refl _, hle⟩, hprog _ _ _ hp⟩
      exact ⟨hI s' t' hF.1 hst.1, le_trans hF.2.1 (hclock s' t' hst.1), hst.2⟩
  | move s ps qs d upd next =>
    obtain ⟨hle, F, hst, hF, hsafe⟩ := hPs ⟨d, .act upd next⟩ (List.mem_append_right _ List.mem_cons_self)
    obtain ⟨⟨hG, heq⟩, F', hst', hF', hnext⟩ := hsafe s hF
    have hkeep : ∀ q ∈ ps ++ qs, q.Good clock G (upd s) := by
      intro q hq
      have hmem : q ∈ ps ++ ⟨d, .act upd next⟩ :: qs := by
        rcases List.mem_append.mp hq with hq | hq
        · exact List.mem_append_left _ hq
        · exact List.mem_append_right _ (List.mem_cons_of_mem _ hq)
      exact (hPs q hmem).stable hG (heq.symm ▸ (hPs q hmem).1)
    refine ⟨⟨hI _ _ hPI hG, fun q hq => ?_⟩, .inl hG⟩
    rcases List.mem_append.mp hq with hq | hq
    · exact hkeep q (List.mem_append_left _ hq)
    · rcases List.mem_cons.mp hq with rfl | hq
      · exact ⟨heq.symm ▸ hle, F', hst', hF', hnext⟩
      · exact hkeep q (List.mem_append_right _ hq)
  | kill s ps qs p =>
    refine ⟨⟨hPI, fun q hq => hPs q ?_⟩, .inr rfl⟩
    rcases List.mem_append.mp hq with hq | hq
    · exact List.mem_append_left _ hq
    · exact List.mem_append_right _ (List.mem_cons_of_mem _ hq)
  | outside ps he hle =>
    have hG := henv _ _ he
    exact ⟨⟨hI _ _ hPI hG, fun q hq => (hPs q hq).stable hG (hle q hq)⟩, .inl hG⟩

/-- **The rule for programs that end in time**: what the changes that `G` allows keep, every run
keeps. -/
theorem TimedPool.kept {s : σ} (hs : I s) {Q : TimedPool σ τ}
    (h : Run (TimedStep clock prog env) AnyStep ⟨s, []⟩ Q) : Q.Good clock I G :=
  h.invariant (TimedPool.Good clock I G) ⟨hs, fun _ hp => absurd hp List.not_mem_nil⟩
    fun hstep _ hP => (hstep.good hI hclock hprog henv hP).1

end

end StratTrader.Foundation
