import StratTrader.Foundation.Runs

/-!
# Programs of atomic actions

A program over a shared state as the tree of its atomic actions: an action updates the
state at once, and the rest of the program may depend on the state it found. Between two
actions of a program anything else may happen, and the program may stop for good.

The same program is run in two ways: alone to its end (`Prog.run`), and as one of a pool
of programs whose actions interleave, that are started and killed at any time, beside an
environment that acts on the state too (`PoolStep`).

## What is proved

* `run_bind`: alone, a program made of two runs the one and then the other; `Ends.bind` is the
  rule for what it ends with.
* `Guarantees.bind`: the rule for a program made of two under interference.
* `Pool.reaches`: if every action of every program, and of the environment, is one of the
  changes that a relation `G` allows, then a run of the pool only makes such changes. The
  programs may use what they know, as long as no change that `G` allows makes it false.
* `Guarantees.run`: the same for a program that runs alone.
-/

namespace StratTrader.Foundation

universe u v

/-- A program: a result, or an atomic action and the rest. -/
inductive Prog (σ : Type u) (α : Type v) where
  /-- The program ends. -/
  | ret (a : α)
  /-- The state `s` becomes `upd s`, and the program goes on as `next s`. -/
  | act (upd : σ → σ) (next : σ → Prog σ α)

namespace Prog

variable {σ : Type u} {α β : Type v}

/-- One program after the other. -/
protected def bind : Prog σ α → (α → Prog σ β) → Prog σ β
  | ret a, f => f a
  | act upd next, f => act upd fun s => (next s).bind f

instance : Monad (Prog σ) where
  pure := ret
  bind := Prog.bind

/-- One action, with a result that depends on the state it found. -/
def atomic (upd : σ → σ) (out : σ → α) : Prog σ α := act upd fun s => ret (out s)

/-- Look at the state. -/
def read (out : σ → α) : Prog σ α := atomic id out

/-- Update the state. -/
def write (upd : σ → σ) : Prog σ PUnit := atomic upd fun _ => ⟨⟩

@[simp] theorem atomic_bind (upd : σ → σ) (out : σ → α) (f : α → Prog σ β) :
    (atomic upd out >>= f) = act upd fun s => f (out s) := rfl

@[simp] theorem read_bind (out : σ → α) (f : α → Prog σ β) :
    (read out >>= f) = act id fun s => f (out s) := rfl

/-! ### Alone -/

/-- Run to the end, alone. -/
def run : Prog σ α → σ → σ × α
  | ret a, s => (s, a)
  | act upd next, s => (next s).run (upd s)

@[simp] theorem run_act (upd : σ → σ) (next : σ → Prog σ α) (s : σ) :
    (act upd next).run s = (next s).run (upd s) := rfl

@[simp] theorem run_atomic (upd : σ → σ) (out : σ → α) (s : σ) :
    (atomic upd out).run s = (upd s, out s) := rfl

@[simp] theorem run_pure (a : α) (s : σ) : (pure a : Prog σ α).run s = (s, a) := rfl

theorem run_bind (p : Prog σ α) (f : α → Prog σ β) (s : σ) :
    (p >>= f).run s = (f (p.run s).2).run (p.run s).1 := by
  induction p generalizing s with
  | ret a => rfl
  | act upd next ih => exact ih s (upd s)

/-- Alone, the program ends in a result and a state with `Q`. -/
def Ends (p : Prog σ α) (s : σ) (Q : α → σ → Prop) : Prop := Q (p.run s).2 (p.run s).1

theorem Ends.ret {a : α} {s : σ} {Q : α → σ → Prop} (h : Q a s) : (ret a : Prog σ α).Ends s Q := h

theorem Ends.bind {p : Prog σ α} {f : α → Prog σ β} {s : σ} {Q : α → σ → Prop} {Q' : β → σ → Prop}
    (hp : p.Ends s Q) (hf : ∀ a t, Q a t → (f a).Ends t Q') : (p >>= f).Ends s Q' := by
  unfold Ends
  rw [run_bind]
  exact hf _ _ hp

theorem Ends.mono {p : Prog σ α} {s : σ} {Q Q' : α → σ → Prop} (hp : p.Ends s Q)
    (h : ∀ a t, Q a t → Q' a t) : p.Ends s Q' :=
  h _ _ hp

/-- Run `n` actions and stop there. -/
def runFor : Nat → Prog σ α → σ → σ
  | 0, _, s => s
  | _ + 1, ret _, s => s
  | n + 1, act upd next, s => (next s).runFor n (upd s)

/-- What is left of a program after `n` actions. -/
def restFor : Nat → Prog σ α → σ → Prog σ α
  | 0, p, _ => p
  | _ + 1, ret a, _ => ret a
  | n + 1, act upd next, s => (next s).restFor n (upd s)

/-- After `n` actions there is another one, or the program has ended. -/
theorem runFor_succ (n : Nat) (p : Prog σ α) (s : σ) :
    (∃ upd next, p.restFor n s = act upd next ∧ p.runFor (n + 1) s = upd (p.runFor n s)) ∨
      p.runFor (n + 1) s = p.runFor n s := by
  induction n generalizing p s with
  | zero =>
    cases p with
    | ret a => exact .inr rfl
    | act upd next =>
      refine .inl ⟨upd, next, rfl, ?_⟩
      cases next s <;> rfl
  | succ n ih =>
    cases p with
    | ret a => exact .inr rfl
    | act upd next => exact ih (next s) (upd s)

/-! ### Every action -/

/-- Every action, in whatever state, is a change that `R` allows. -/
def Always (R : σ → σ → Prop) : Prog σ α → Prop
  | ret _ => True
  | act upd next => ∀ s, R s (upd s) ∧ (next s).Always R

section
variable {R : σ → σ → Prop}

theorem Always.ret (a : α) : (Prog.ret a : Prog σ α).Always R := trivial

theorem Always.atomic {upd : σ → σ} {out : σ → α} (h : ∀ s, R s (upd s)) :
    (Prog.atomic upd out).Always R :=
  fun s => ⟨h s, trivial⟩

theorem Always.mono {R' : σ → σ → Prop} {p : Prog σ α} (hp : p.Always R) (h : ∀ s t, R s t → R' s t) :
    p.Always R' := by
  induction p with
  | ret a => trivial
  | act upd next ih => exact fun s => ⟨h _ _ (hp s).1, ih s (hp s).2⟩

theorem Always.bind {p : Prog σ α} {f : α → Prog σ β} (hp : p.Always R) (hf : ∀ a, (f a).Always R) :
    (p >>= f).Always R := by
  induction p with
  | ret a => exact hf a
  | act upd next ih =>
    intro s
    obtain ⟨hR, hnext⟩ := hp s
    exact ⟨hR, ih s hnext⟩

/-- Alone, the whole program is such a change. -/
theorem Always.ends {p : Prog σ α} (hp : p.Always R) (hrefl : ∀ s, R s s)
    (htrans : ∀ {s t u}, R s t → R t u → R s u) (s : σ) : p.Ends s fun _ t => R s t := by
  induction p generalizing s with
  | ret a => exact hrefl s
  | act upd next ih =>
    obtain ⟨hR, hnext⟩ := hp s
    exact htrans hR (ih s hnext (upd s))

end

/-! ### Under interference -/

/-- What no change that `R` allows makes false. -/
def Stable (R : σ → σ → Prop) (F : σ → Prop) : Prop := ∀ s t, R s t → F s → F t

theorem stable_true (R : σ → σ → Prop) : Stable R fun _ => True := fun _ _ _ _ => trivial

/-- Every action of the program is a change that `G` allows, given that the program knows `F` at its
start; at its end it knows `Q`. What it knows in between is stable under `R`. -/
def Guarantees (R G : σ → σ → Prop) (Q : α → σ → Prop) : Prog σ α → (σ → Prop) → Prop
  | ret a, F => ∀ s, F s → Q a s
  | act upd next, F => ∀ s, F s → G s (upd s) ∧
      ∃ F', Stable R F' ∧ F' (upd s) ∧ (next s).Guarantees R G Q F'

variable {R G : σ → σ → Prop}

theorem Guarantees.mono {Q : α → σ → Prop} {p : Prog σ α} {F F' : σ → Prop}
    (h : p.Guarantees R G Q F) (hF : ∀ s, F' s → F s) : p.Guarantees R G Q F' := by
  cases p with
  | ret a => exact fun s hs => h s (hF s hs)
  | act upd next => exact fun s hs => h s (hF s hs)

theorem Guarantees.weaken {G' : σ → σ → Prop} (hG : ∀ s t, G s t → G' s t) {Q : α → σ → Prop}
    {p : Prog σ α} {F : σ → Prop} (h : p.Guarantees R G Q F) : p.Guarantees R G' Q F := by
  induction p generalizing F with
  | ret a => exact h
  | act upd next ih =>
    intro s hs
    obtain ⟨hs', F', hst, hF', hnext⟩ := h s hs
    exact ⟨hG _ _ hs', F', hst, hF', ih s hnext⟩

theorem Guarantees.imp {Q Q' : α → σ → Prop} (hQ : ∀ a s, Q a s → Q' a s) {p : Prog σ α} {F : σ → Prop}
    (h : p.Guarantees R G Q F) : p.Guarantees R G Q' F := by
  induction p generalizing F with
  | ret a => exact fun s hs => hQ a s (h s hs)
  | act upd next ih =>
    intro s hs
    obtain ⟨hG, F', hst, hF', hnext⟩ := h s hs
    exact ⟨hG, F', hst, hF', ih s hnext⟩

theorem Guarantees.bind {Q : α → σ → Prop} {Q' : β → σ → Prop} {p : Prog σ α} {f : α → Prog σ β}
    {F : σ → Prop} (hp : p.Guarantees R G Q F) (hf : ∀ a, (f a).Guarantees R G Q' (Q a)) :
    (p >>= f).Guarantees R G Q' F := by
  induction p generalizing F with
  | ret a => exact (hf a).mono hp
  | act upd next ih =>
    intro s hs
    obtain ⟨hG, F', hst, hF', hnext⟩ := hp s hs
    exact ⟨hG, F', hst, hF', ih s hnext⟩

/-- One action, after which the program knows `Q`. -/
theorem Guarantees.atomic {Q : α → σ → Prop} {upd : σ → σ} {out : σ → α} {F : σ → Prop}
    (hG : ∀ s, F s → G s (upd s)) (hst : ∀ a, Stable R (Q a)) (hQ : ∀ s, F s → Q (out s) (upd s)) :
    (Prog.atomic upd out).Guarantees R G Q F :=
  fun s hs => ⟨hG s hs, Q (out s), hst (out s), hQ s hs, fun _ h => h⟩

theorem Guarantees.ret {Q : α → σ → Prop} {a : α} {F : σ → Prop} (h : ∀ s, F s → Q a s) :
    (Prog.ret a : Prog σ α).Guarantees R G Q F := h

end Prog

/-! ### Pools -/

variable {σ : Type u}

/-- A state, and the programs that are running. -/
structure Pool (σ : Type u) where
  /-- The shared state. -/
  state : σ
  /-- The programs. -/
  programs : List (Prog σ PUnit)

/-- What happens in a step of a pool. -/
inductive PoolAct where
  /-- A program is started. -/
  | start
  /-- A program does its next action. -/
  | move
  /-- A program is killed. -/
  | kill
  /-- The environment acts. -/
  | outside

/-- The steps of a pool in which the programs of `prog` may be started, in an environment `env`. -/
inductive PoolStep (prog : Prog σ PUnit → Prop) (env : σ → σ → Prop) :
    Pool σ → PoolAct → Pool σ → Prop where
  /-- Start a program. -/
  | start {p : Prog σ PUnit} (s : σ) (ps : List (Prog σ PUnit)) (h : prog p) :
    PoolStep prog env ⟨s, ps⟩ .start ⟨s, ps ++ [p]⟩
  /-- Do the next action of a program. -/
  | move (s : σ) (ps qs : List (Prog σ PUnit)) (upd : σ → σ) (next : σ → Prog σ PUnit) :
    PoolStep prog env ⟨s, ps ++ .act upd next :: qs⟩ .move ⟨upd s, ps ++ next s :: qs⟩
  /-- Kill a program. -/
  | kill (s : σ) (ps qs : List (Prog σ PUnit)) (p : Prog σ PUnit) :
    PoolStep prog env ⟨s, ps ++ p :: qs⟩ .kill ⟨s, ps ++ qs⟩
  /-- Let the environment act. -/
  | outside {s t : σ} (ps : List (Prog σ PUnit)) (h : env s t) :
    PoolStep prog env ⟨s, ps⟩ .outside ⟨t, ps⟩

variable {G : σ → σ → Prop} {prog : Prog σ PUnit → Prop} {env : σ → σ → Prop}

/-- A program does `n` actions, with nothing in between. -/
theorem run_moves (n : Nat) (p : Prog σ PUnit) (s : σ) (ps qs : List (Prog σ PUnit)) :
    Run (PoolStep prog env) AnyStep ⟨s, ps ++ p :: qs⟩ ⟨p.runFor n s, ps ++ p.restFor n s :: qs⟩ := by
  induction n generalizing p s with
  | zero => exact Run.refl _
  | succ n ih =>
    cases p with
    | ret a => exact Run.refl _
    | act upd next => exact (Run.single (PoolStep.move s ps qs upd next) trivial).trans (ih (next s) (upd s))

/-- A program that nobody interrupts runs in the pool as it does alone. -/
theorem run_alone (p : Prog σ PUnit) (s : σ) (ps qs : List (Prog σ PUnit)) :
    Run (PoolStep prog env) AnyStep ⟨s, ps ++ p :: qs⟩ ⟨(p.run s).1, ps ++ .ret ⟨⟩ :: qs⟩ := by
  induction p generalizing s with
  | ret a => exact Run.refl _
  | act upd next ih => exact (Run.single (PoolStep.move s ps qs upd next) trivial).trans (ih s (upd s))

/-- A program that knows something true and stable, and guarantees `G` knowing it. -/
def GuaranteesAt (G : σ → σ → Prop) (s : σ) (p : Prog σ PUnit) : Prop :=
  ∃ F, Prog.Stable G F ∧ F s ∧ p.Guarantees G G (fun _ _ => True) F

theorem GuaranteesAt.stable {s t : σ} {p : Prog σ PUnit} (h : GuaranteesAt G s p) (hG : G s t) :
    GuaranteesAt G t p := by
  obtain ⟨F, hst, hF, hp⟩ := h
  exact ⟨F, hst, hst s t hG hF, hp⟩

/-- The states that the changes `G` allows lead to. -/
abbrev Reaches (G : σ → σ → Prop) : σ → σ → Prop := Run (fun s (_ : Unit) t => G s t) AnyStep

/-- A program that guarantees `G` makes, alone too, only changes that `G` allows, and at its end
what it knows is true. -/
theorem Prog.Guarantees.run {α : Type v} {R : σ → σ → Prop} {Q : α → σ → Prop} {p : Prog σ α}
    {F : σ → Prop} (h : p.Guarantees R G Q F) {s : σ} (hs : F s) :
    Reaches G s (p.run s).1 ∧ Q (p.run s).2 (p.run s).1 := by
  induction p generalizing F s with
  | ret a => exact ⟨Run.refl s, h s hs⟩
  | act upd next ih =>
    obtain ⟨hG, F', -, hF', hnext⟩ := h s hs
    obtain ⟨hreach, hQ⟩ := ih s hnext hF'
    exact ⟨(Run.single (a := ()) hG trivial).trans hreach, hQ⟩

/-- The pool has been reached from `s`, and every program guarantees `G`. -/
def Pool.Good (G : σ → σ → Prop) (s : σ) (pool : Pool σ) : Prop :=
  Reaches G s pool.state ∧ ∀ p ∈ pool.programs, GuaranteesAt G pool.state p

/-- A step of a pool whose programs make only changes that `R` allows, whatever the state, is such a change, or
none. -/
theorem PoolStep.always {R : σ → σ → Prop} (hprog : ∀ p, prog p → p.Always R) (henv : ∀ s t, env s t → R s t)
    {P Q : Pool σ} {a : PoolAct} (h : PoolStep prog env P a Q) (hP : ∀ p ∈ P.programs, p.Always R) :
    (∀ p ∈ Q.programs, p.Always R) ∧ (R P.state Q.state ∨ Q.state = P.state) := by
  cases h with
  | start s ps hp =>
    refine ⟨fun p hm => ?_, .inr rfl⟩
    rcases List.mem_append.mp hm with hm | hm
    · exact hP p hm
    · exact List.mem_singleton.mp hm ▸ hprog _ hp
  | move s ps qs upd next =>
    obtain ⟨hR, hnext⟩ := hP (.act upd next) (List.mem_append_right _ List.mem_cons_self) s
    refine ⟨fun p hm => ?_, .inl hR⟩
    rcases List.mem_append.mp hm with hm | hm
    · exact hP p (List.mem_append_left _ hm)
    · rcases List.mem_cons.mp hm with rfl | hm
      · exact hnext
      · exact hP p (List.mem_append_right _ (List.mem_cons_of_mem _ hm))
  | kill s ps qs p =>
    refine ⟨fun q hm => hP q ?_, .inr rfl⟩
    rcases List.mem_append.mp hm with hm | hm
    · exact List.mem_append_left _ hm
    · exact List.mem_append_right _ (List.mem_cons_of_mem _ hm)
  | outside ps he => exact ⟨hP, .inl (henv _ _ he)⟩

/-- A step of a pool whose programs guarantee `G`, started where `I` holds, is a change that `G` allows, or
none; and `I` holds still. -/
theorem PoolStep.kept {I : σ → Prop} (hI : ∀ s t, I s → G s t → I t)
    (hprog : ∀ p, prog p → p.Guarantees G G (fun _ _ => True) I) (henv : ∀ s t, env s t → G s t)
    {P Q : Pool σ} {a : PoolAct} (h : PoolStep prog env P a Q) (hP : I P.state)
    (hPs : ∀ p ∈ P.programs, GuaranteesAt G P.state p) :
    (I Q.state ∧ ∀ p ∈ Q.programs, GuaranteesAt G Q.state p) ∧ (G P.state Q.state ∨ Q.state = P.state) := by
  cases h with
  | start s ps hp =>
    refine ⟨⟨hP, fun p hm => ?_⟩, .inr rfl⟩
    rcases List.mem_append.mp hm with hm | hm
    · exact hPs p hm
    · rw [List.mem_singleton.mp hm]
      exact ⟨I, fun s t hst hs => hI s t hs hst, hP, hprog _ hp⟩
  | move s ps qs upd next =>
    obtain ⟨F, hst, hF, hsafe⟩ := hPs (.act upd next) (List.mem_append_right _ List.mem_cons_self)
    obtain ⟨hG, F', hst', hF', hnext⟩ := hsafe s hF
    refine ⟨⟨hI _ _ hP hG, fun p hm => ?_⟩, .inl hG⟩
    rcases List.mem_append.mp hm with hm | hm
    · exact (hPs p (List.mem_append_left _ hm)).stable hG
    · rcases List.mem_cons.mp hm with rfl | hm
      · exact ⟨F', hst', hF', hnext⟩
      · exact (hPs p (List.mem_append_right _ (List.mem_cons_of_mem _ hm))).stable hG
  | kill s ps qs p =>
    refine ⟨⟨hP, fun q hm => hPs q ?_⟩, .inr rfl⟩
    rcases List.mem_append.mp hm with hm | hm
    · exact List.mem_append_left _ hm
    · exact List.mem_append_right _ (List.mem_cons_of_mem _ hm)
  | outside ps he =>
    have hG := henv _ _ he
    exact ⟨⟨hI _ _ hP hG, fun p hm => (hPs p hm).stable hG⟩, .inl hG⟩

/-- A step of the pool is a change that `G` allows, or none. -/
theorem PoolStep.good {s0 : σ} (hprog : ∀ p, prog p → p.Guarantees G G (fun _ _ => True) fun _ => True)
    (henv : ∀ s t, env s t → G s t) {P Q : Pool σ} {a : PoolAct} (h : PoolStep prog env P a Q)
    (hP : P.Good G s0) : Q.Good G s0 :=
  (PoolStep.kept (I := Reaches G s0) (fun _ _ hs hG => hs.step (a := ()) hG trivial)
    (fun p hp => (hprog p hp).mono fun _ _ => trivial) henv h hP.1 hP.2).1

/-- **The rule for pools**: where every program guarantees `G`, and the environment does, a run
makes only changes that `G` allows. -/
theorem Pool.reaches (hprog : ∀ p, prog p → p.Guarantees G G (fun _ _ => True) fun _ => True)
    (henv : ∀ s t, env s t → G s t) {s : σ} {Q : Pool σ}
    (h : Run (PoolStep prog env) AnyStep ⟨s, []⟩ Q) : Reaches G s Q.state := by
  have hgood := h.invariant (Pool.Good G s) ⟨Run.refl s, fun p hm => absurd hm List.not_mem_nil⟩
    fun hs _ hP => hs.good hprog henv hP
  exact hgood.1

end StratTrader.Foundation
