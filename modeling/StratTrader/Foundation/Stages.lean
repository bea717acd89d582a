import StratTrader.Foundation.Atomic

/-!
# Calls in stages

Concurrent calls of programs over a shared state, each at a stage that says how far it has
come. An automaton says which stage an action leads to (`move`), and a program follows it
if each of its actions, in whatever state, is a move, and it ends at a stage that tells its
result (`done`). A call carries the proof that it follows the automaton.

So what a run of many calls does can be said of the stages: which stages the calls are at
is part of the state, and a condition on a step may speak of it. A call that has ended
stays, with its result.

## What is proved

* `CrowdStep.exists_move`, `CrowdStep.exists_moves`: nothing is lost: a call that has actions left can
  always do them.
* `Run.stages_invariant`: the rule for what holds of the state and the stages throughout a run.
* `Prog.Follows.bind`, `Prog.Follows.atomic`: how a program is shown to follow the automaton.
-/

namespace StratTrader.Foundation

universe u v w

variable {σ : Type u} {α β : Type v} {Q : Type w}

/-! ### Following an automaton -/

/-- Each action of the program, in whatever state, is a move of the automaton from the stage before it,
and the program ends at a stage that tells its result. -/
def Prog.Follows (move : Q → σ → σ → Q → Prop) (done : Q → α → Prop) : Prog σ α → Q → Prop
  | .ret a, q => done q a
  | .act upd next, q => ∀ s, ∃ q', move q s (upd s) q' ∧ (next s).Follows move done q'

section
variable {move : Q → σ → σ → Q → Prop} {done : Q → α → Prop} {q : Q}

theorem Prog.Follows.ret {a : α} (h : done q a) : (Prog.ret a : Prog σ α).Follows move done q := h

theorem Prog.Follows.bind {mid : Q → β → Prop} {p : Prog σ β} {f : β → Prog σ α}
    (hp : p.Follows move mid q) (hf : ∀ q b, mid q b → (f b).Follows move done q) :
    (p >>= f).Follows move done q := by
  induction p generalizing q with
  | ret b => exact hf q b hp
  | act upd next ih =>
    intro s
    obtain ⟨q', hmove, hnext⟩ := hp s
    exact ⟨q', hmove, ih s hnext⟩

/-- One action, and the rest by what it finds. -/
theorem Prog.Follows.atomic {upd : σ → σ} {out : σ → β} {f : β → Prog σ α}
    (h : ∀ s, ∃ q', move q s (upd s) q' ∧ (f (out s)).Follows move done q') :
    (Prog.atomic upd out >>= f).Follows move done q := h

/-- One update, and the rest. -/
theorem Prog.Follows.write {upd : σ → σ} {f : PUnit → Prog σ α} (q' : Q)
    (hmove : ∀ s, move q s (upd s) q') (hf : (f ⟨⟩).Follows move done q') :
    (Prog.write upd >>= f).Follows move done q := fun s => ⟨q', hmove s, hf⟩

end

/-! ### One stage among others -/

theorem count_middle [DecidableEq Q] (qs rs : List Q) (q x : Q) :
    (qs ++ q :: rs).count x = (qs ++ rs).count x + if q = x then 1 else 0 := by
  simp [List.count_cons]
  omega

theorem countP_middle (p : Q → Bool) (qs rs : List Q) (q : Q) :
    (qs ++ q :: rs).countP p = (qs ++ rs).countP p + if p q then 1 else 0 := by
  simp [List.countP_cons]
  omega

/-! ### Crowds -/

/-- A call: what is left of its program, the stage it is at, and that the program follows the automaton. -/
structure Call (move : Q → σ → σ → Q → Prop) (done : Q → α → Prop) where
  /-- What is left of its program. -/
  prog : Prog σ α
  /-- The stage it is at. -/
  stage : Q
  /-- The program follows the automaton from there. -/
  follows : prog.Follows move done stage

/-- A state, and the calls made so far. -/
structure Crowd (move : Q → σ → σ → Q → Prop) (done : Q → α → Prop) where
  /-- The shared state. -/
  state : σ
  /-- The calls. -/
  calls : List (Call move done)

/-- What happens in a step of a crowd. -/
inductive CrowdAct (Q : Type w) where
  /-- A call is made. -/
  | start
  /-- A call does its next action. -/
  | move (before after : Q)
  /-- A call is killed. -/
  | kill
  /-- The environment acts. -/
  | outside

variable {move : Q → σ → σ → Q → Prop} {done : Q → α → Prop}

/-- The result of a call that has ended. -/
def Call.returned (c : Call move done) : Option α :=
  match c.prog with
  | .ret a => some a
  | .act _ _ => none

/-- The stages the calls are at. -/
def Crowd.stages (c : Crowd move done) : List Q := c.calls.map Call.stage

/-- The steps of a crowd in which the calls of `begins` may be made, in an environment `env`. A call that
has ended is not killed any more. -/
inductive CrowdStep (begins : Call move done → Prop) (env : σ → σ → Prop) :
    Crowd move done → CrowdAct Q → Crowd move done → Prop where
  /-- Make a call. -/
  | start {c : Call move done} (s : σ) (cs : List (Call move done)) (h : begins c) :
    CrowdStep begins env ⟨s, cs⟩ .start ⟨s, cs ++ [c]⟩
  /-- Do the next action of a call. -/
  | move (s : σ) (cs ds : List (Call move done)) (c c' : Call move done) (upd : σ → σ) (next : σ → Prog σ α)
    (hprog : c.prog = .act upd next) (hnext : c'.prog = next s) (hmove : move c.stage s (upd s) c'.stage) :
    CrowdStep begins env ⟨s, cs ++ c :: ds⟩ (.move c.stage c'.stage) ⟨upd s, cs ++ c' :: ds⟩
  /-- Kill a call. -/
  | kill (s : σ) (cs ds : List (Call move done)) (c : Call move done) (h : c.returned = none) :
    CrowdStep begins env ⟨s, cs ++ c :: ds⟩ .kill ⟨s, cs ++ ds⟩
  /-- Let the environment act. -/
  | outside {s t : σ} (cs : List (Call move done)) (h : env s t) :
    CrowdStep begins env ⟨s, cs⟩ .outside ⟨t, cs⟩

variable {begins : Call move done → Prop} {env : σ → σ → Prop}

variable (begins env) in
/-- A call that has an action left can do it. -/
theorem CrowdStep.exists_move (s : σ) (cs ds : List (Call move done)) (c : Call move done) {upd : σ → σ}
    {next : σ → Prog σ α} (hprog : c.prog = .act upd next) :
    ∃ c' : Call move done, c'.prog = next s ∧
      CrowdStep begins env ⟨s, cs ++ c :: ds⟩ (.move c.stage c'.stage) ⟨upd s, cs ++ c' :: ds⟩ := by
  have hfollows := c.follows
  rw [hprog] at hfollows
  obtain ⟨q', hmove, hnext⟩ := hfollows s
  exact ⟨⟨next s, q', hnext⟩, rfl, .move s cs ds c ⟨next s, q', hnext⟩ upd next hprog rfl hmove⟩

variable (begins env) in
/-- A call can do its next `n` actions with nothing in between, where `P` allows its moves. -/
theorem CrowdStep.exists_moves (P : Crowd move done → CrowdAct Q → Prop) (cs ds : List (Call move done)) (n : Nat)
    (s : σ) (c : Call move done)
    (hP : ∀ k < n, ∀ d d' : Call move done, d.prog = c.prog.restFor k s → d'.prog = c.prog.restFor (k + 1) s →
      P ⟨c.prog.runFor k s, cs ++ d :: ds⟩ (.move d.stage d'.stage)) :
    ∃ c' : Call move done, c'.prog = c.prog.restFor n s ∧
      Run (CrowdStep begins env) P ⟨s, cs ++ c :: ds⟩ ⟨c.prog.runFor n s, cs ++ c' :: ds⟩ := by
  induction n generalizing s c with
  | zero => exact ⟨c, rfl, .refl _⟩
  | succ n ih =>
    cases hprog : c.prog with
    | ret a => exact ⟨c, hprog, .refl _⟩
    | act upd next =>
      rw [hprog] at hP
      obtain ⟨c', hc', hstep⟩ := CrowdStep.exists_move begins env s cs ds c hprog
      obtain ⟨c'', hc'', hrun⟩ := ih (upd s) c' fun k hk d d' hd hd' => by
        rw [hc'] at hd hd' ⊢
        exact hP (k + 1) (Nat.succ_lt_succ hk) d d' hd hd'
      rw [hc'] at hc'' hrun
      have hfirst := hP 0 n.succ_pos c c' hprog hc'
      exact ⟨c'', hc'', (Run.single hstep hfirst).trans hrun⟩

/-- What a call has returned is told by its stage. -/
theorem Call.done_of_returned {c : Call move done} {a : α} (h : c.returned = some a) : done c.stage a := by
  have hfollows := c.follows
  unfold Call.returned at h
  cases hprog : c.prog with
  | ret b =>
    rw [hprog] at h hfollows
    cases h
    exact hfollows
  | act upd next =>
    rw [hprog] at h
    cases h

/-- A call that has not ended may move. -/
theorem Call.exists_move_of_returned {c : Call move done} (h : c.returned = none) (s : σ) :
    ∃ t q, move c.stage s t q := by
  have hfollows := c.follows
  unfold Call.returned at h
  cases hprog : c.prog with
  | ret a =>
    rw [hprog] at h
    cases h
  | act upd next =>
    rw [hprog] at hfollows
    obtain ⟨q, hmove, -⟩ := hfollows s
    exact ⟨_, q, hmove⟩

/-- So many calls are as `f` says as are at a stage that tells it, at most. -/
theorem Crowd.countP_le (crowd : Crowd move done) (f : Call move done → Bool) (p : Q → Bool)
    (h : ∀ c, f c = true → p c.stage = true) : crowd.calls.countP f ≤ crowd.stages.countP p := by
  rw [Crowd.stages, List.countP_map]
  exact List.countP_mono_left fun c _ hc => h c hc

/-- A condition on the steps of a crowd that speaks of the state, the stages and the action. -/
abbrev OnStages (C : σ → List Q → CrowdAct Q → Prop) : Crowd move done → CrowdAct Q → Prop :=
  fun crowd act => C crowd.state crowd.stages act

/-- No call is killed. -/
def Unkilled (_ : σ) (_ : List Q) : CrowdAct Q → Prop
  | .kill => False
  | .start | .move _ _ | .outside => True

/-- **The rule for crowds**: what holds of the state and the stages, and is kept by calls that begin, by
moves, by calls that disappear before they end and by the environment, holds throughout a run. -/
theorem Run.stages_invariant {C : σ → List Q → CrowdAct Q → Prop} (I : σ → List Q → Prop)
    {crowd crowd' : Crowd move done} (h : Run (CrowdStep begins env) (OnStages C) crowd crowd')
    (h0 : I crowd.state crowd.stages)
    (hstart : ∀ {s qs c}, begins c → I s qs → I s (qs ++ [c.stage]))
    (hmove : ∀ {s t qs rs q q'}, move q s t q' → C s (qs ++ q :: rs) (.move q q') → I s (qs ++ q :: rs) →
      I t (qs ++ q' :: rs))
    (hkill : ∀ {s qs rs q}, (∃ t q', move q s t q') → C s (qs ++ q :: rs) .kill → I s (qs ++ q :: rs) →
      I s (qs ++ rs))
    (henv : ∀ {s t qs}, env s t → I s qs → I t qs) : I crowd'.state crowd'.stages := by
  refine h.invariant (fun crowd => I crowd.state crowd.stages) h0 fun hs hC hI => ?_
  cases hs with
  | start s cs hc =>
    simp only [Crowd.stages, List.map_append, List.map_cons, List.map_nil] at hI ⊢
    exact hstart hc hI
  | move s cs ds c c' upd next hprog hnext hm =>
    simp only [OnStages, Crowd.stages, List.map_append, List.map_cons] at hI hC ⊢
    exact hmove hm hC hI
  | kill s cs ds c hc =>
    simp only [OnStages, Crowd.stages, List.map_append, List.map_cons] at hI hC ⊢
    exact hkill (Call.exists_move_of_returned hc s) hC hI
  | outside cs he => exact henv he hI

end StratTrader.Foundation
