import StratTrader.Foundation.Atomic

/-!
# What the visible events of a run depend on

A machine handles events one after another; each event is visible or not, as the state
tells. The run of a list of events is compared with the run of the same list from which
the events that are not visible have been taken out (`purge`).

A relation between the states of the two runs carries the comparison. It may depend on
the events still to come. Where a visible event gives the same output from related states
and keeps them related, and one that is not visible keeps them related although only the
first run handles it, the visible events give the same outputs in both runs.

## What is proved

* `seen_purge`: the rule above, for the outputs and for the last states.
* `Prog.Agrees.bind`, `Prog.Agrees.atomic`: how a program is shown to give the same result from
  related states.
-/

namespace StratTrader.Foundation

universe u v w

section
variable {σ : Type u} {ε : Type v} {β : Type w} (step : σ → ε → σ × β) (visible : σ → ε → Bool)

/-- The last state of the run of some events. -/
def lastState : σ → List ε → σ
  | s, [] => s
  | s, e :: es => lastState (step s e).1 es

/-- What the events are answered, in order. -/
def outputs : σ → List ε → List (ε × β)
  | _, [] => []
  | s, e :: es => (e, (step s e).2) :: outputs (step s e).1 es

/-- What the visible events are answered in the run of all events. -/
def seen : σ → List ε → List (ε × β)
  | _, [] => []
  | s, e :: es =>
    if visible s e then (e, (step s e).2) :: seen (step s e).1 es else seen (step s e).1 es

/-- The events but those that are not visible when their turn comes. -/
def purge : σ → List ε → List ε
  | _, [] => []
  | s, e :: es => if visible s e then e :: purge (step s e).1 es else purge s es

variable {step visible}

/-- What holds at each event of a run. -/
def AtEach (step : σ → ε → σ × β) (P : σ → ε → Prop) : σ → List ε → Prop
  | _, [] => True
  | s, e :: es => P s e ∧ AtEach step P (step s e).1 es

theorem AtEach.congr {P P' : σ → ε → Prop} (h : ∀ s e, P s e ↔ P' s e) (s : σ) (es : List ε) :
    AtEach step P s es ↔ AtEach step P' s es := by
  induction es generalizing s with
  | nil => exact Iff.rfl
  | cons e es ih => exact and_congr (h s e) (ih _)

/-- **The visible events are answered alike** in the run of all events and in the run of the visible
ones, and the last states are related. -/
theorem seen_purge (I : List ε → σ → σ → Prop) (hvisible : ∀ {e es s t}, I (e :: es) s t → visible s e = visible t e)
    (hstep : ∀ {e es s t}, I (e :: es) s t → visible t e = true →
      I es (step s e).1 (step t e).1 ∧ (step s e).2 = (step t e).2)
    (hskip : ∀ {e es s t}, I (e :: es) s t → visible t e = false → I es (step s e).1 t)
    {s t : σ} {es : List ε} (h : I es s t) :
    seen step visible s es = outputs step t (purge step visible t es) ∧
      I [] (lastState step s es) (lastState step t (purge step visible t es)) := by
  induction es generalizing s t with
  | nil => exact ⟨rfl, h⟩
  | cons e es ih =>
    have hsame := hvisible h
    cases hv : visible t e with
    | true =>
      obtain ⟨hnext, hout⟩ := hstep h hv
      obtain ⟨hseen, hlast⟩ := ih hnext
      simp only [seen, purge, hsame, hv, if_true, outputs, lastState]
      exact ⟨by rw [hseen, hout], hlast⟩
    | false =>
      obtain ⟨hseen, hlast⟩ := ih (hskip h hv)
      simp only [seen, purge, hsame, hv, Bool.false_eq_true, if_false, lastState]
      exact ⟨hseen, hlast⟩

end

/-! ### Programs -/

namespace Prog

variable {σ : Type u} {α β : Type v} {I : σ → σ → Prop}

/-- From related states the program gives one result, and it keeps the states related. -/
def Agrees (I : σ → σ → Prop) (p : Prog σ α) : Prop :=
  ∀ s t, I s t → I (p.run s).1 (p.run t).1 ∧ (p.run s).2 = (p.run t).2

theorem Agrees.ret (a : α) : (Prog.ret a : Prog σ α).Agrees I := fun _ _ h => ⟨h, rfl⟩

theorem Agrees.atomic {upd : σ → σ} {out : σ → α} (hupd : ∀ s t, I s t → I (upd s) (upd t))
    (hout : ∀ s t, I s t → out s = out t) : (Prog.atomic upd out).Agrees I :=
  fun s t h => ⟨hupd s t h, hout s t h⟩

theorem Agrees.read {out : σ → α} (hout : ∀ s t, I s t → out s = out t) : (Prog.read out).Agrees I :=
  Agrees.atomic (fun _ _ h => h) hout

theorem Agrees.write {upd : σ → σ} (hupd : ∀ s t, I s t → I (upd s) (upd t)) : (Prog.write upd).Agrees I :=
  Agrees.atomic hupd fun _ _ _ => rfl

theorem Agrees.bind {p : Prog σ α} {f : α → Prog σ β} (hp : p.Agrees I) (hf : ∀ a, (f a).Agrees I) :
    (p >>= f).Agrees I := by
  intro s t h
  obtain ⟨hI, hout⟩ := hp s t h
  rw [run_bind, run_bind, ← hout]
  exact hf _ _ _ hI

end Prog

end StratTrader.Foundation
