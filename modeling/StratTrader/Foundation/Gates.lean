import StratTrader.Foundation.Atomic

/-!
# Gates

A state may be shut, and then something must not be used. A program that asks before it uses it
is told so, if it asks while the state is shut; one that has asked before goes on. So a pool makes
no use while the state is shut exactly as far as no program has asked before.

## What is proved

* `Prog.Behind.bind`, `Prog.Behind.read`, `Prog.Always.behind`: the rules for a program that makes no use
  while the state is shut.
* `PoolStep.behind`: no step of a pool of such programs is a use, and all stay so.
-/

namespace StratTrader.Foundation

universe u v

variable {σ : Type u} {α β : Type v}

/-- What may happen while the state is shut: no use is made, and it stays shut. -/
def Shutting (shut : σ → Prop) (use : σ → σ → Prop) (s t : σ) : Prop := ¬ use s t ∧ (shut s → shut t)

/-- The program makes no use, given that the state is shut and stays so; then its result is one of `Q`. -/
def Prog.Behind (shut : σ → Prop) (use : σ → σ → Prop) (Q : α → Prop) (p : Prog σ α) : Prop :=
  p.Guarantees (Shutting shut use) (Shutting shut use) (fun a s => shut s ∧ Q a) shut

variable {shut : σ → Prop} {use : σ → σ → Prop}

namespace Prog

theorem Behind.ret {a : α} {Q : α → Prop} (h : Q a) : (pure a : Prog σ α).Behind shut use Q :=
  fun _ hs => ⟨hs, h⟩

theorem Behind.bind {p : Prog σ α} {f : α → Prog σ β} {Q : α → Prop} {Q' : β → Prop}
    (hp : p.Behind shut use Q) (hf : ∀ a, Q a → (f a).Behind shut use Q') : (p >>= f).Behind shut use Q' := by
  refine Guarantees.bind hp fun a => ?_
  by_cases ha : Q a
  · exact Guarantees.mono (hf a ha) fun s hs => hs.1
  · -- the result is none of `Q`, so the program does not get here
    cases hfa : f a with
    | ret b => exact fun s hs => absurd hs.2 ha
    | act upd next => exact fun s hs => absurd hs.2 ha

/-- What is asked while the state is shut. -/
theorem Behind.read {out : σ → α} {Q : α → Prop} (huse : ∀ s, ¬ use s s) (h : ∀ s, shut s → Q (out s)) :
    (Prog.read out).Behind shut use Q :=
  Guarantees.atomic (fun s _ => ⟨huse s, fun hs => hs⟩) (fun _ _ _ hst hs => ⟨hst.2 hs.1, hs.2⟩)
    fun s hs => ⟨hs, h s hs⟩

/-- A program that makes only changes that are no use, and that leave a shut state shut. -/
theorem Always.behind {R : σ → σ → Prop} {p : Prog σ α} (hp : p.Always R)
    (hR : ∀ s t, shut s → R s t → ¬ use s t ∧ shut t) : p.Behind shut use fun _ => True := by
  induction p with
  | ret a => exact fun s hs => ⟨hs, trivial⟩
  | act upd next ih =>
    intro s hs
    obtain ⟨hstep, hnext⟩ := hp s
    obtain ⟨huse, hshut⟩ := hR s _ hs hstep
    exact ⟨⟨huse, fun _ => hshut⟩, shut, fun _ _ hst hs => hst.2 hs, hshut, ih s hnext⟩

theorem Behind.guaranteesAt {p : Prog σ PUnit} (hp : p.Behind shut use fun _ => True) {s : σ} (hs : shut s) :
    GuaranteesAt (Shutting shut use) s p :=
  ⟨shut, fun _ _ hst hs => hst.2 hs, hs, Guarantees.imp (fun _ _ _ => trivial) hp⟩

end Prog

/-- **No use is made of what is shut**: a step of a pool whose programs make none, and are all started as
programs that make none, is no use; the state stays shut, and the programs stay so. -/
theorem PoolStep.behind {prog : Prog σ PUnit → Prop} {env : σ → σ → Prop} (huse : ∀ s, ¬ use s s)
    (hprog : ∀ p, prog p → p.Behind shut use fun _ => True) (henv : ∀ s t, env s t → Shutting shut use s t)
    {P Q : Pool σ} {a : PoolAct} (h : PoolStep prog env P a Q) (hshut : shut P.state)
    (hP : ∀ p ∈ P.programs, GuaranteesAt (Shutting shut use) P.state p) :
    (shut Q.state ∧ ∀ p ∈ Q.programs, GuaranteesAt (Shutting shut use) Q.state p) ∧ ¬ use P.state Q.state := by
  obtain ⟨hQ, hchange⟩ := PoolStep.kept (I := shut) (fun _ _ hs hst => hst.2 hs)
    (fun p hp => Prog.Guarantees.imp (fun _ _ _ => trivial) (hprog p hp)) henv h hshut hP
  refine ⟨hQ, ?_⟩
  rcases hchange with hchange | heq
  · exact hchange.1
  · rw [heq]
    exact huse _

end StratTrader.Foundation
