import StratTrader.Foundation.Atomic
import Mathlib.Data.List.Nodup

/-!
# Claiming a key before spending it

Programs that share a state want to do something at most once for each key. Each claims
the key first, by an action that succeeds for one program only, and goes on to spend the
key only if its own claim succeeded. What is claimed stays claimed. A program that is
killed between the two leaves the key claimed and never spent, which is the price.

A program holds at most one key at a time: the one it has claimed and not spent yet.

## What is proved

* `Spends.bind`: the rule for a program made of two.
* `Ledger.spent_nodup`: if every program of a pool spends only what it holds, then in
  every state of every run no key has been spent twice, however the actions interleave and
  wherever programs are killed.
-/

namespace StratTrader.Foundation

universe u v w

/-- What a state says of the keys. -/
structure Ledger (σ : Type u) (κ : Type w) where
  /-- The keys that have been claimed. -/
  claimed : σ → κ → Prop
  /-- The keys that have been spent, in order. -/
  spent : σ → List κ

namespace Ledger

variable {σ : Type u} {κ : Type w}

/-- What was claimed is claimed still. -/
def Grows (L : Ledger σ κ) (s t : σ) : Prop := ∀ k, L.claimed s k → L.claimed t k

/-- A change that spends nothing. -/
def Quiet (L : Ledger σ κ) (s t : σ) : Prop := L.Grows s t ∧ L.spent t = L.spent s

/-- What an action of a program may be, from the key the program held to the one it holds. -/
inductive Move (L : Ledger σ κ) (s t : σ) : Option κ → Option κ → Prop where
  /-- An action that spends nothing. -/
  | quiet (held : Option κ) (h : L.Quiet s t) : Move L s t held held
  /-- A claim that succeeds. -/
  | claim (k : κ) (hnew : ¬ L.claimed s k) (hk : L.claimed t k) (h : L.Quiet s t) : Move L s t none (some k)
  /-- The key held is spent. -/
  | spend (k : κ) (h : L.Grows s t) (hspent : L.spent t = L.spent s ++ [k]) : Move L s t (some k) none

end Ledger

/-! ### Programs that spend what they hold -/

namespace Prog

variable {σ : Type u} {κ : Type w} {α β : Type v}

/-- Every action is one of the moves, and a change that `G` allows, whatever the state. The program
starts with a key held or none, and ends with `Q` of its result and of what it holds then. -/
def Spends (L : Ledger σ κ) (G : σ → σ → Prop) (Q : α → Option κ → Prop) : Prog σ α → Option κ → Prop
  | ret a, held => Q a held
  | act upd next, held => ∀ s, G s (upd s) ∧
      ∃ held', L.Move s (upd s) held held' ∧ (next s).Spends L G Q held'

variable {L : Ledger σ κ} {G : σ → σ → Prop}

theorem Spends.ret {Q : α → Option κ → Prop} {a : α} {held : Option κ} (h : Q a held) :
    (Prog.ret a : Prog σ α).Spends L G Q held := h

theorem Spends.bind {Q : α → Option κ → Prop} {Q' : β → Option κ → Prop} {p : Prog σ α}
    {f : α → Prog σ β} {held : Option κ} (hp : p.Spends L G Q held)
    (hf : ∀ a held', Q a held' → (f a).Spends L G Q' held') : (p >>= f).Spends L G Q' held := by
  induction p generalizing held with
  | ret a => exact hf a held hp
  | act upd next ih =>
    intro s
    obtain ⟨hG, held', hmove, hnext⟩ := hp s
    exact ⟨hG, held', hmove, ih s hnext⟩

theorem Spends.mono {Q Q' : α → Option κ → Prop} {p : Prog σ α} {held : Option κ}
    (hp : p.Spends L G Q held) (hQ : ∀ a held', Q a held' → Q' a held') : p.Spends L G Q' held := by
  induction p generalizing held with
  | ret a => exact hQ a held hp
  | act upd next ih =>
    intro s
    obtain ⟨hG, held', hmove, hnext⟩ := hp s
    exact ⟨hG, held', hmove, ih s hnext⟩

/-- One action. -/
theorem Spends.atomic {Q : α → Option κ → Prop} {upd : σ → σ} {out : σ → α} {held : Option κ}
    (h : ∀ s, G s (upd s) ∧ ∃ held', L.Move s (upd s) held held' ∧ Q (out s) held') :
    (Prog.atomic upd out).Spends L G Q held := h

/-- A program whose actions spend nothing ends holding what it held. -/
theorem Always.spends {R : σ → σ → Prop} {p : Prog σ α} (hp : p.Always R)
    (hG : ∀ s t, R s t → G s t) (hR : ∀ s t, R s t → L.Quiet s t) (held : Option κ) :
    p.Spends L G (fun _ held' => held' = held) held := by
  induction p with
  | ret a => exact rfl
  | act upd next ih =>
    intro s
    obtain ⟨h, hnext⟩ := hp s
    exact ⟨hG _ _ h, held, .quiet held (hR _ _ h), ih s hnext⟩

/-- Such a program makes only changes that `G` allows. -/
theorem Spends.guarantees {Q : α → Option κ → Prop} {p : Prog σ α} {held : Option κ}
    (h : p.Spends L G Q held) : p.Guarantees G G (fun _ _ => True) fun _ => True := by
  induction p generalizing held with
  | ret a => exact fun _ _ => trivial
  | act upd next ih =>
    intro s _
    obtain ⟨hG, held', -, hnext⟩ := h s
    exact ⟨hG, _, stable_true G, trivial, ih s hnext⟩

end Prog

/-! ### Pools -/

namespace Ledger

variable {σ : Type u} {κ : Type w} {L : Ledger σ κ} {G : σ → σ → Prop}
  {prog : Prog σ PUnit → Prop} {env : σ → σ → Prop}

/-- A running program and the key it holds. -/
abbrev Holder (σ : Type u) (κ : Type w) := Prog σ PUnit × Option κ

/-- The keys held. -/
def held (ps : List (Holder σ κ)) : List κ := ps.filterMap Prod.snd

theorem held_perm (ps qs : List (Holder σ κ)) (p : Prog σ PUnit) (k : Option κ) :
    (held (ps ++ (p, k) :: qs)).Perm (k.toList ++ held (ps ++ qs)) := by
  refine (List.perm_middle.filterMap Prod.snd).trans ?_
  cases k <;> rfl

/-- No key is held or spent twice, and every key held or spent is claimed. -/
structure Balanced (L : Ledger σ κ) (ks : List κ) (s : σ) : Prop where
  once : (ks ++ L.spent s).Nodup
  claimed : ∀ k ∈ ks ++ L.spent s, L.claimed s k

theorem Balanced.perm {ks ks' : List κ} {s : σ} (h : L.Balanced ks s) (hp : ks'.Perm ks) :
    L.Balanced ks' s := by
  have hp' := hp.append_right (L.spent s)
  exact ⟨hp'.nodup_iff.mpr h.once, fun k hk => h.claimed k (hp'.mem_iff.mp hk)⟩

theorem Balanced.quiet {ks : List κ} {s t : σ} (h : L.Balanced ks s) (hq : L.Quiet s t) :
    L.Balanced ks t := by
  obtain ⟨hgrows, hspent⟩ := hq
  exact ⟨hspent ▸ h.once, fun k hk => hgrows k (h.claimed k (hspent ▸ hk))⟩

/-- The keys stay balanced when a program makes a move, the other programs holding `ks`. -/
theorem Balanced.move {ks : List κ} {s t : σ} {k k' : Option κ} (h : L.Balanced (k.toList ++ ks) s)
    (hm : L.Move s t k k') : L.Balanced (k'.toList ++ ks) t := by
  cases hm with
  | quiet _ hq => exact h.quiet hq
  | claim k hnew hk hq =>
    have ht : L.Balanced ks t := h.quiet hq
    refine ⟨List.nodup_cons.mpr ⟨fun hin => ?_, ht.once⟩, fun j hj => ?_⟩
    · rw [hq.2] at hin
      exact hnew (h.claimed k hin)
    · rcases List.mem_cons.mp hj with rfl | hj
      · exact hk
      · exact ht.claimed j hj
  | spend k hgrows hspent =>
    have hp : (ks ++ L.spent t).Perm (k :: (ks ++ L.spent s)) := by
      rw [hspent, ← List.append_assoc]
      exact List.perm_append_singleton k _
    exact ⟨hp.nodup_iff.mpr h.once, fun j hj => hgrows j (h.claimed j (hp.mem_iff.mp hj))⟩

/-- Some keys may be forgotten. -/
theorem Balanced.drop {ks : List κ} {s : σ} {k : Option κ} (h : L.Balanced (k.toList ++ ks) s) :
    L.Balanced ks s := by
  have hsub : (ks ++ L.spent s).Sublist (k.toList ++ ks ++ L.spent s) := by
    rw [List.append_assoc]
    exact List.sublist_append_right _ _
  exact ⟨h.once.sublist hsub, fun j hj => h.claimed j (hsub.subset hj)⟩

/-- The programs of the pool spend what they hold, and the keys are balanced. -/
def Sound (L : Ledger σ κ) (G : σ → σ → Prop) (pool : Pool σ) : Prop :=
  ∃ ps : List (Holder σ κ), pool.programs = ps.map Prod.fst ∧
    (∀ p ∈ ps, p.1.Spends L G (fun _ _ => True) p.2) ∧ L.Balanced (held ps) pool.state

theorem Sound.step (hprog : ∀ p, prog p → p.Spends L G (fun _ _ => True) none)
    (henv : ∀ s t, env s t → L.Quiet s t) {P Q : Pool σ} {a : PoolAct} (h : PoolStep prog env P a Q)
    (hP : L.Sound G P) : L.Sound G Q := by
  obtain ⟨ps, hps, hspends, hbal⟩ := hP
  cases h with
  | @start q s qs hp =>
    refine ⟨ps ++ [(q, none)], ?_, fun p hm => ?_, ?_⟩
    · rw [List.map_append, ← hps]
      rfl
    · rcases List.mem_append.mp hm with hm | hm
      · exact hspends p hm
      · rw [List.mem_singleton.mp hm]
        exact hprog _ hp
    · exact hbal.perm (by simpa using held_perm ps [] q none)
  | move s as bs upd next =>
    obtain ⟨ps1, rest, rfl, h1, hrest⟩ := List.map_eq_append_iff.mp hps.symm
    obtain ⟨⟨p, k⟩, ps2, rfl, rfl, h2⟩ := List.map_eq_cons_iff.mp hrest
    obtain ⟨-, k', hmove, hnext⟩ := hspends _ (List.mem_append_right _ List.mem_cons_self) s
    refine ⟨ps1 ++ (next s, k') :: ps2, ?_, fun q hm => ?_, ?_⟩
    · rw [List.map_append, List.map_cons, h1, h2]
    · rcases List.mem_append.mp hm with hm | hm
      · exact hspends q (List.mem_append_left _ hm)
      · rcases List.mem_cons.mp hm with rfl | hm
        · exact hnext
        · exact hspends q (List.mem_append_right _ (List.mem_cons_of_mem _ hm))
    · exact ((hbal.perm (held_perm ps1 ps2 _ k).symm).move hmove).perm (held_perm ps1 ps2 _ k')
  | kill s as bs p =>
    obtain ⟨ps1, rest, rfl, h1, hrest⟩ := List.map_eq_append_iff.mp hps.symm
    obtain ⟨⟨q, k⟩, ps2, rfl, -, h2⟩ := List.map_eq_cons_iff.mp hrest
    refine ⟨ps1 ++ ps2, ?_, fun q hm => hspends q ?_, ?_⟩
    · rw [List.map_append, h1, h2]
    · rcases List.mem_append.mp hm with hm | hm
      · exact List.mem_append_left _ hm
      · exact List.mem_append_right _ (List.mem_cons_of_mem _ hm)
    · exact (hbal.perm (held_perm ps1 ps2 _ k).symm).drop
  | outside qs he => exact ⟨ps, hps, hspends, hbal.quiet (henv _ _ he)⟩

/-- **No key is spent twice** in a run of programs that spend what they hold. -/
theorem spent_nodup (hprog : ∀ p, prog p → p.Spends L G (fun _ _ => True) none)
    (henv : ∀ s t, env s t → L.Quiet s t) {s : σ} (hs : L.spent s = []) {Q : Pool σ}
    (h : Run (PoolStep prog env) AnyStep ⟨s, []⟩ Q) : (L.spent Q.state).Nodup := by
  have hsound := h.invariant (L.Sound G) ⟨[], rfl, fun p hp => absurd hp List.not_mem_nil, ?_⟩
    fun hs _ hP => hP.step hprog henv hs
  · obtain ⟨ps, -, -, hbal⟩ := hsound
    exact hbal.once.sublist (List.sublist_append_right _ _)
  · exact ⟨by simp [held, hs], fun k hk => by simp [held, hs] at hk⟩

end Ledger

/-- Of a list without two elements of one key, at most one element is of the kind `p`, if all of that
kind have one key. -/
theorem length_filter_le_one {α : Type v} {κ : Type w} {l : List α} {key : α → κ}
    (h : (l.map key).Nodup) (p : α → Bool)
    (hp : ∀ a ∈ l, ∀ b ∈ l, p a = true → p b = true → key a = key b) : (l.filter p).length ≤ 1 := by
  have hnodup : ((l.filter p).map key).Nodup := h.sublist (List.filter_sublist.map key)
  have hkey : ∀ a ∈ l.filter p, ∀ b ∈ l.filter p, key a = key b := fun a ha b hb =>
    hp a (List.mem_filter.mp ha).1 b (List.mem_filter.mp hb).1 (List.mem_filter.mp ha).2
      (List.mem_filter.mp hb).2
  match hl : l.filter p with
  | [] => exact Nat.zero_le 1
  | [a] => exact Nat.le_refl 1
  | a :: b :: rest =>
    rw [hl] at hnodup hkey
    have heq := hkey a List.mem_cons_self b (List.mem_cons_of_mem _ List.mem_cons_self)
    exact absurd (heq ▸ List.mem_cons_self) (List.nodup_cons.mp hnodup).1

end StratTrader.Foundation
