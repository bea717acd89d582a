import StratTrader.Foundation.Stages

/-!
# Tries that are counted

A call that may try something looks at a counter of failed tries, and goes on only while it
is below a maximum. A try that fails is counted afterwards: the counter is incremented, or
set to one when there is none. The look, the increment and the setting are actions of their
own, so calls that look at the same time may all try, and two calls that both find no counter
may both set it to one.

## What is proved

* `Capped.counts_of_run`, `Counts.tries_le`: where a call passes the look only while the calls
  that have passed it and are not counted leave room below the maximum, and finds no counter
  only while no other call that has found none is about to set it, at most so many calls try as
  the maximum allows, and the counter says how many have been counted.

## Honest scope

No try succeeds, no call is killed, and the counter does not expire in the meantime.
-/

namespace StratTrader.Foundation.Capped

open StratTrader.Foundation

universe u v

variable {σ : Type u} {α : Type v}

/-- How far a call has come. -/
inductive Stage where
  /-- It has not looked at the counter. -/
  | asked
  /-- It has found the counter below the maximum. -/
  | passed
  /-- It tries, and its try fails if it has not succeeded yet; it is not counted. -/
  | tried
  /-- It has found no counter to increment. -/
  | missed
  /-- Its try has been counted. -/
  | counted
  /-- Its try succeeds. -/
  | right
  /-- It is refused. -/
  | refused
  deriving DecidableEq

/-- It has passed the look, and has not been counted. -/
def Stage.isUnderWay : Stage → Bool
  | .passed | .tried | .missed => true
  | .asked | .counted | .right | .refused => false

/-- Its try has failed. -/
def Stage.hasTried : Stage → Bool
  | .tried | .missed | .counted => true
  | .asked | .passed | .right | .refused => false

/-- What a call may do, where `count` is the counter and `max` the maximum. -/
inductive Move (count : σ → Option Nat) (max : Nat) : Stage → σ → σ → Stage → Prop where
  /-- Something that leaves the counter alone; not between the look and the try. -/
  | idle (q : Stage) (s t : σ) (hq : q ≠ .passed) (hkeep : count t = count s) : Move count max q s t q
  /-- The counter is below the maximum. -/
  | pass (s t : σ) (h : (count s).getD 0 < max) (hkeep : count t = count s) : Move count max .asked s t .passed
  /-- The call is refused, or raises. -/
  | refuse (q : Stage) (s t : σ) (h : q = .asked ∨ q = .passed ∨ q = .tried) (hkeep : count t = count s) :
    Move count max q s t .refused
  /-- The try fails. -/
  | fail (s t : σ) (hkeep : count t = count s) : Move count max .passed s t .tried
  /-- The try succeeds, perhaps after a first that has failed. -/
  | succeed (q : Stage) (s t : σ) (h : q = .passed ∨ q = .tried) (hkeep : count t = count s) :
    Move count max q s t .right
  /-- The counter is incremented. -/
  | increment (s t : σ) (n : Nat) (hs : count s = some n) (ht : count t = some (n + 1)) :
    Move count max .tried s t .counted
  /-- There is no counter to increment. -/
  | miss (s t : σ) (hs : count s = none) (hkeep : count t = count s) : Move count max .tried s t .missed
  /-- The counter is set to one. -/
  | set (s t : σ) (ht : count t = some 1) : Move count max .missed s t .counted
  /-- What follows a try that succeeds: the counter is left alone, or cleared. -/
  | clear (s t : σ) (h : count t = none ∨ count t = count s) : Move count max .right s t .right

section
variable {count : σ → Option Nat} {max : Nat} {done : Stage → α → Prop}

/-- A program that leaves the counter alone may stay at its stage. -/
theorem follows_idle {q : Stage} {p : Prog σ α} (hq : q ≠ .passed) (hp : p.Always fun s t => count t = count s)
    (hdone : ∀ a, done q a) : p.Follows (Move count max) done q := by
  induction p with
  | ret a => exact hdone a
  | act upd next ih =>
    intro s
    obtain ⟨hkeep, hnext⟩ := hp s
    exact ⟨q, .idle q s _ hq hkeep, ih s hnext⟩

/-- What follows a try that succeeds. -/
theorem follows_right {p : Prog σ α} (hp : p.Always fun s t => count t = none ∨ count t = count s)
    (hdone : ∀ a, done .right a) : p.Follows (Move count max) done .right := by
  induction p with
  | ret a => exact hdone a
  | act upd next ih =>
    intro s
    obtain ⟨hclear, hnext⟩ := hp s
    exact ⟨.right, .clear s _ hclear, ih s hnext⟩

/-! ### What a call does next tells its stage -/

/-- A call that is about to increment the counter has tried. -/
theorem stage_of_increment {c : Call (Move count max) done} {s : σ} {n : Nat} (hs : count s = some (n + 1))
    (ht : count (c.prog.runFor 1 s) = some (n + 2)) : c.stage = .tried := by
  have hfollows := c.follows
  cases hprog : c.prog with
  | ret a =>
    rw [hprog] at ht
    have hsame := hs.symm.trans ht
    simp at hsame
  | act upd next =>
    rw [hprog] at hfollows ht
    have hupd : count (upd s) = some (n + 2) := by
      cases hnext : next s <;> simpa [Prog.runFor, hnext] using ht
    obtain ⟨q', hmove, -⟩ := hfollows s
    generalize c.stage = q at hmove ⊢
    cases hmove with
    | increment => rfl
    | set _ _ hset =>
      have hsame := hupd.symm.trans hset
      simp at hsame
    | clear _ _ hclear =>
      rcases hclear with hclear | hkeep
      · cases hupd.symm.trans hclear
      · have hsame := (hupd.symm.trans hkeep).trans hs
        simp at hsame
    | idle _ _ _ _ hkeep | pass _ _ _ hkeep | refuse _ _ _ _ hkeep | fail _ _ hkeep | succeed _ _ _ _ hkeep
    | miss _ _ _ hkeep =>
      have hsame := (hupd.symm.trans hkeep).trans hs
      simp at hsame

/-- A call that has succeeded clears the counter or leaves it alone. -/
theorem runFor_right {p : Prog σ α} (hp : p.Follows (Move count max) done .right) (n : Nat) (s : σ) :
    count (p.runFor n s) = none ∨ count (p.runFor n s) = count s := by
  induction n generalizing p s with
  | zero => exact .inr rfl
  | succ n ih =>
    cases p with
    | ret a => exact .inr rfl
    | act upd next =>
      obtain ⟨q', hmove, hnext⟩ := hp s
      have hstep : q' = .right ∧ (count (upd s) = none ∨ count (upd s) = count s) := by
        generalize hq : Stage.right = q at hmove
        cases hmove with
        | clear _ _ hclear => exact ⟨rfl, hclear⟩
        | idle _ _ _ _ hkeep => exact ⟨rfl, .inr hkeep⟩
        | refuse _ _ _ h => rw [← hq] at h; simp at h
        | succeed _ _ _ h => rw [← hq] at h; simp at h
        | pass | fail | increment | miss | set => cases hq
      obtain ⟨rfl, hstep⟩ := hstep
      rcases ih hnext (upd s) with hnone | hkeep
      · exact .inl hnone
      · rw [Prog.runFor, hkeep]
        exact hstep

end

/-- No try succeeds, no call is killed, and each call passes the look, and finds no counter, only while the
others leave it to. -/
def Orderly (count : σ → Option Nat) (max : Nat) (s : σ) (stages : List Stage) : CrowdAct Stage → Prop
  | .start | .outside => True
  | .kill => False
  | .move .asked .passed => (count s).getD 0 + stages.countP Stage.isUnderWay < max
  | .move .tried .missed => Stage.missed ∉ stages
  | .move _ q => q ≠ .right

/-- A call that does not succeed is in order behind calls that have been counted. -/
theorem orderly_behind {count : σ → Option Nat} {max : Nat} {s : σ} {qs : List Stage} {q q' : Stage}
    (hqs : ∀ p ∈ qs, p = .counted) (hmax : (count s).getD 0 < max) (hq' : q' ≠ .right) :
    Orderly count max s (qs ++ [q]) (.move q q') := by
  have hidle : qs.countP Stage.isUnderWay = 0 := List.countP_eq_zero.mpr fun p hp => by simp [hqs p hp, Stage.isUnderWay]
  have hroom : (count s).getD 0 + (qs ++ [Stage.asked]).countP Stage.isUnderWay < max := by
    rw [List.countP_append, hidle]
    exact hmax
  have hnone : Stage.missed ∉ qs ++ [.tried] := by
    intro hmem
    rcases List.mem_append.mp hmem with hold | hnew
    · cases hqs _ hold
    · cases List.mem_singleton.mp hnew
  cases q with
  | asked => cases q' <;> first | exact hroom | exact hq'
  | tried => cases q' <;> first | exact hnone | exact hq'
  | passed | missed | counted | right | refused => exact hq'

/-- What holds of the counter and the calls. -/
structure Counts (count : σ → Option Nat) (max : Nat) (s : σ) (stages : List Stage) : Prop where
  /-- The counter says how many calls have been counted. -/
  counted : stages.count .counted = (count s).getD 0
  /-- With the calls under way it does not exceed the maximum. -/
  room : (count s).getD 0 + stages.countP Stage.isUnderWay ≤ max
  /-- A call that has found no counter is the only one, and there is none. -/
  missed : stages.count .missed = 0 ∨ (stages.count .missed = 1 ∧ count s = none)
  /-- No try has succeeded. -/
  wrong : stages.count .right = 0

variable {count : σ → Option Nat} {max : Nat}

theorem Counts.start {s : σ} {qs : List Stage} (h : Counts count max s qs) : Counts count max s (qs ++ [.asked]) := by
  obtain ⟨hcounted, hroom, hmissed, hwrong⟩ := h
  constructor
  · simpa [List.count_cons] using hcounted
  · simpa [List.countP_cons, Stage.isUnderWay] using hroom
  · simpa [List.count_cons] using hmissed
  · simpa [List.count_cons] using hwrong

/-- A call that leaves the counter alone, and neither begins nor ends to be counted, keeps it right. -/
theorem Counts.aside {s t : σ} {qs rs : List Stage} {q q' : Stage} (h : Counts count max s (qs ++ q :: rs))
    (hkeep : count t = count s) (hq : q ≠ .counted ∧ q ≠ .missed ∧ q ≠ .right)
    (hq' : q' ≠ .counted ∧ q' ≠ .missed ∧ q' ≠ .right)
    (hroom : (count s).getD 0 + (qs ++ q' :: rs).countP Stage.isUnderWay ≤ max) :
    Counts count max t (qs ++ q' :: rs) := by
  obtain ⟨hcounted, -, hmissed, hwrong⟩ := h
  simp only [count_middle, hq, if_false, Nat.add_zero] at hcounted hmissed hwrong
  constructor
  · rw [count_middle, hkeep, if_neg hq'.1, hcounted]
    rfl
  · rw [hkeep]
    exact hroom
  · rw [count_middle, hkeep, if_neg hq'.2.1]
    exact hmissed
  · rw [count_middle, if_neg hq'.2.2, hwrong]

/-- What a call does in order keeps the counter right. -/
theorem Counts.move {s t : σ} {qs rs : List Stage} {q q' : Stage} (hmove : Move count max q s t q')
    (horderly : Orderly count max s (qs ++ q :: rs) (.move q q')) (h : Counts count max s (qs ++ q :: rs)) :
    Counts count max t (qs ++ q' :: rs) := by
  have hroom := h.room
  cases hmove with
  | idle _ _ _ _ hkeep =>
    obtain ⟨hcounted, hroom, hmissed, hwrong⟩ := h
    rw [← hkeep] at hcounted hroom hmissed
    exact ⟨hcounted, hroom, hmissed, hwrong⟩
  | pass _ _ _ hkeep =>
    refine h.aside hkeep (by decide) (by decide) ?_
    simp only [Orderly, countP_middle, Stage.isUnderWay, if_true, Bool.false_eq_true, if_false] at horderly ⊢
    omega
  | refuse _ _ _ hq hkeep =>
    refine h.aside hkeep (by rcases hq with rfl | rfl | rfl <;> decide) (by decide) ?_
    simp only [countP_middle, Stage.isUnderWay, Bool.false_eq_true, if_false] at hroom ⊢
    omega
  | fail _ _ hkeep =>
    refine h.aside hkeep (by decide) (by decide) ?_
    simp only [countP_middle, Stage.isUnderWay, if_true] at hroom ⊢
    omega
  | succeed _ _ _ hq =>
    rcases hq with rfl | rfl <;> exact absurd rfl horderly
  | increment _ _ n hs ht =>
    obtain ⟨hcounted, hroom, hmissed, hwrong⟩ := h
    -- where there is a counter, no call has found none
    simp only [count_middle, countP_middle, Stage.isUnderWay, hs, Option.getD_some, reduceCtorEq, and_false,
      or_false, if_true, if_false] at hcounted hroom hmissed hwrong
    constructor <;> simp only [count_middle, countP_middle, Stage.isUnderWay, ht, Option.getD_some, reduceCtorEq,
      and_false, or_false, if_true, if_false, Bool.false_eq_true]
    · omega
    · omega
    · omega
    · omega
  | miss _ _ hs hkeep =>
    obtain ⟨hcounted, hroom, -, hwrong⟩ := h
    have hzero := List.count_eq_zero.mpr horderly
    simp only [count_middle, countP_middle, Stage.isUnderWay, hs, Option.getD_none, reduceCtorEq, if_true,
      if_false] at hcounted hroom hzero hwrong
    constructor <;> simp only [count_middle, countP_middle, Stage.isUnderWay, hkeep, hs, Option.getD_none,
      reduceCtorEq, and_true, if_true, if_false]
    · omega
    · omega
    · omega
    · omega
  | set _ _ ht =>
    obtain ⟨hcounted, hroom, hmissed, hwrong⟩ := h
    -- the call is the only one that has found none
    have hnone : count s = none := by
      rcases hmissed with hzero | ⟨-, hnone⟩
      · simp at hzero
      · exact hnone
    simp only [count_middle, countP_middle, Stage.isUnderWay, hnone, Option.getD_none, reduceCtorEq, and_true,
      false_or, if_true, if_false] at hcounted hroom hmissed hwrong
    constructor <;> simp only [count_middle, countP_middle, Stage.isUnderWay, ht, Option.getD_some, reduceCtorEq,
      and_false, or_false, if_true, if_false, Bool.false_eq_true]
    · omega
    · omega
    · omega
    · omega
  | clear =>
    have hwrong := h.wrong
    simp only [count_middle, if_true] at hwrong
    omega

variable {done : Stage → α → Prop} {begins : Call (Move count max) done → Prop} {env : σ → σ → Prop}

/-- In an orderly run from a state without calls and without a counter, the counter is right throughout. -/
theorem counts_of_run (hbegins : ∀ c, begins c → c.stage = .asked) (henv : ∀ s t, env s t → count t = count s)
    {s : σ} (hs : count s = none) {crowd : Crowd (Move count max) done}
    (h : Run (CrowdStep begins env) (OnStages (Orderly count max)) ⟨s, []⟩ crowd) :
    Counts count max crowd.state crowd.stages := by
  refine h.stages_invariant (Counts count max) ?_ ?_ ?_ ?_ ?_
  · exact ⟨by simp [Crowd.stages, hs], by simp [Crowd.stages, hs], by simp [Crowd.stages], by simp [Crowd.stages]⟩
  · intro s qs c hc hI
    rw [hbegins c hc]
    exact hI.start
  · intro s t qs rs q q' hmove horderly hI
    exact hI.move hmove horderly
  · intro s qs rs q _ hkill _
    exact hkill.elim
  · intro s t qs he hI
    obtain ⟨hcounted, hroom, hmissed, hwrong⟩ := hI
    rw [← henv s t he] at hcounted hroom hmissed
    exact ⟨hcounted, hroom, hmissed, hwrong⟩

/-- **At most as many calls try as the maximum allows.** -/
theorem Counts.tries_le {s : σ} {stages : List Stage} (h : Counts count max s stages) :
    stages.countP Stage.hasTried ≤ max := by
  have hsum : stages.countP Stage.hasTried ≤ stages.count .counted + stages.countP Stage.isUnderWay := by
    clear h
    induction stages with
    | nil => simp
    | cons q qs ih =>
      simp only [List.countP_cons, List.count_cons]
      cases q <;> simp [Stage.hasTried, Stage.isUnderWay] <;> omega
  have hroom := h.room
  have hcounted := h.counted
  omega

/-- What changes the counter to a number counts a try. -/
theorem Move.counted {s t : σ} {q q' : Stage} {n : Nat} (h : Move count max q s t q') (ht : count t = some n)
    (hnew : count t ≠ count s) : q' = .counted := by
  cases h with
  | increment | set => rfl
  | clear _ _ hclear =>
    rcases hclear with hnone | hkeep
    · rw [hnone] at ht
      cases ht
    · exact absurd hkeep hnew
  | idle _ _ _ _ hkeep | pass _ _ _ hkeep | refuse _ _ _ _ hkeep | fail _ _ hkeep | succeed _ _ _ _ hkeep
  | miss _ _ _ hkeep => exact absurd hkeep hnew

variable (begins env) in
/-- Behind calls that have been counted, a call that fails can go on in order until it is counted. -/
theorem exists_counted (cs : List (Call (Move count max) done)) (c : Call (Move count max) done) (s : σ) (n m j : Nat)
    (hcs : ∀ d ∈ cs, d.stage = .counted) (hroom : ∀ k < n, (count (c.prog.runFor k s)).getD 0 < max)
    (hfails : ∀ k < n, count ((c.prog.restFor (k + 1) s).runFor m s) ≠ none ∧
      count ((c.prog.restFor (k + 1) s).runFor m s) ≠ count s)
    (hcount : count (c.prog.runFor (n + 1) s) = some j)
    (hnew : count (c.prog.runFor (n + 1) s) ≠ count (c.prog.runFor n s)) :
    ∃ c' : Call (Move count max) done, c'.stage = .counted ∧
      Run (CrowdStep begins env) (OnStages (Orderly count max)) ⟨s, cs ++ [c]⟩
        ⟨c.prog.runFor (n + 1) s, cs ++ [c']⟩ := by
  have hstages : ∀ p ∈ cs.map Call.stage, p = .counted := by
    intro p hp
    obtain ⟨d, hd, rfl⟩ := List.mem_map.mp hp
    exact hcs d hd
  obtain ⟨d, hd, hrun⟩ := CrowdStep.exists_moves begins env (OnStages (Orderly count max)) cs [] n s c
    fun k hk d d' _ hd' => by
      have hwrong : d'.stage ≠ .right := fun hright => by
        have hkeep := runFor_right (hright ▸ d'.follows) m s
        rw [hd'] at hkeep
        exact hkeep.elim (hfails k hk).1 (hfails k hk).2
      simpa [OnStages, Crowd.stages] using orderly_behind hstages (hroom k hk) hwrong
  rcases Prog.runFor_succ n c.prog s with ⟨upd, next, hprog, hstep⟩ | hsame
  · rw [← hd] at hprog
    have hfollows := d.follows
    rw [hprog] at hfollows
    obtain ⟨q', hmove, hnext⟩ := hfollows (c.prog.runFor n s)
    rw [hstep] at hcount hnew ⊢
    obtain rfl := hmove.counted hcount hnew
    refine ⟨⟨_, .counted, hnext⟩, rfl, hrun.step (.move _ cs [] d ⟨_, .counted, hnext⟩ upd next hprog rfl hmove) ?_⟩
    cases hq : d.stage <;> simp [Orderly]
  · exact absurd (congrArg count hsame) hnew

end StratTrader.Foundation.Capped
