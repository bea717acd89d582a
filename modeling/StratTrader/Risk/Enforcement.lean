import Mathlib.Data.List.Nodup
import StratTrader.Foundation.Runs
import StratTrader.Risk.View

/-!
# Halts are enforced

Any sequence of calls of `trigger_halt`, `release_halt`, `KillSwitchView.post` and
`release_expired_l2_halts`, one after the other, by a clock that does not go back. The
table it leads to has no two rows of one primary key, and the halts of the platform have no
user; so the gate's three queries find exactly the halts that apply. A release addresses
one scope and level, and leaves every row of another as it is.

## What is proved

* `Sound.step`: what the table keeps to, by one operation.
* `halts_enforced`: the gate is closed exactly while a halt applies; releasing a halt of one
  scope and level does not open it while one of another applies; and a halt of the daily
  loss is never released on the day it was engaged.
-/

namespace StratTrader.Risk

open StratTrader.Brokers StratTrader.Foundation

/-! ### The system -/

/-- The table, and a time that has passed. -/
structure HaltState where
  /-- The halts. -/
  halts : List TradingHalt
  /-- The time. -/
  clock : ℤ

/-- An operation. -/
inductive HaltAct where
  /-- `trigger_halt`. -/
  | trigger (call : TriggerCall)
  /-- `release_halt`. -/
  | release (id : HaltId)
  /-- `KillSwitchView.post`. -/
  | post (caller : Caller) (request : KillSwitchRequest)
  /-- `release_expired_l2_halts`. -/
  | expire

/-- What `timezone.now()` gives in the course of an operation. -/
structure Reads (before : ℤ) (now : ℕ → ℤ) (after : ℤ) : Prop where
  /-- Time does not go back. -/
  le_of_le : ∀ m n, m ≤ n → now m ≤ now n
  /-- The operation begins after `before`. -/
  ge : before ≤ now 0
  /-- The operation ends before `after`. -/
  le : ∀ n, now n ≤ after

/-- The operations. One that raises changes nothing, and is left out. -/
inductive HaltStep (calendar : Calendar) : HaltState → HaltAct → HaltState → Prop where
  /-- A call of `trigger_halt`. -/
  | trigger {s : HaltState} {now : ℕ → ℤ} {clock : ℤ} (hnow : Reads s.clock now clock) {call : TriggerCall}
      {id : HaltId} {r : Triggered} (h : triggerHalt s.halts call id (now 0) = some r) :
      HaltStep calendar s (.trigger call) ⟨r.halts, clock⟩
  /-- A call of `release_halt`. -/
  | release {s : HaltState} {now : ℕ → ℤ} {clock : ℤ} (hnow : Reads s.clock now clock) (id : HaltId)
      (releasedBy : Option UserId) :
      HaltStep calendar s (.release id) ⟨(releaseHalt calendar s.halts id releasedBy now).1, clock⟩
  /-- A request to the view. -/
  | post {s : HaltState} {now : ℕ → ℤ} {clock : ℤ} (hnow : Reads s.clock now clock) {caller : Caller}
      {request : KillSwitchRequest} {id : HaltId} {posted : Posted}
      (h : KillSwitchView.post calendar s.halts caller request id now = some posted) :
      HaltStep calendar s (.post caller request) ⟨posted.halts, clock⟩
  /-- A run of `release_expired_l2_halts`. -/
  | expire {s : HaltState} {now : ℕ → ℤ} {clock : ℤ} (hnow : Reads s.clock now clock) :
      HaltStep calendar s .expire ⟨(releaseExpiredL2Halts calendar s.halts now).1, clock⟩

/-- The halts of the scopes and levels that an operation releases. -/
def HaltAct.addresses (halts : List TradingHalt) : HaltAct → TradingHalt → Prop
  | .trigger _, _ => False
  | .release id, h => ∃ g ∈ halts, g.id = id ∧ g.level = h.level ∧ g.user = h.user ∧ g.strategy = h.strategy
  | .post caller request, h => request.active = false ∧ request.concerns caller h = true
  | .expire, h => h.level = .l2 ∧ h.auto = true

/-- An unreleased halt of the platform, of all the user's strategies, or of this one. -/
def TradingHalt.Applies (user : UserId) (strategy : StrategyId) (h : TradingHalt) : Prop :=
  h.releasedAt = none ∧
    (h.level = .l3 ∨ (h.user = some user ∧ h.strategy = none) ∨ (h.user = some user ∧ h.strategy = some strategy))

/-! ### What the table keeps to -/

/-- A table of halts, at a time. -/
structure Sound (calendar : Calendar) (clock : ℤ) (halts : List TradingHalt) : Prop where
  /-- The primary key. -/
  ids : (halts.map TradingHalt.id).Nodup
  /-- No row is of a later time. -/
  created : ∀ h ∈ halts, h.createdAt ≤ clock
  /-- A halt of the platform is nobody's. -/
  platform : ∀ h ∈ halts, h.level = .l3 → h.user = none
  /-- The daily loss is not over on its day. -/
  locked : ∀ h ∈ halts, h.auto = true → h.level = .l2 → ∀ time, h.releasedAt = some time →
    calendar.tradingDay time ≠ calendar.tradingDay h.createdAt

section
variable {calendar : Calendar} {clock : ℤ} {halts : List TradingHalt}

theorem Sound.empty : Sound calendar clock [] where
  ids := List.nodup_nil
  created _ h := absurd h List.not_mem_nil
  platform _ h := absurd h List.not_mem_nil
  locked _ h := absurd h List.not_mem_nil

theorem Sound.mono (hs : Sound calendar clock halts) {clock' : ℤ} (hle : clock ≤ clock') :
    Sound calendar clock' halts :=
  { hs with created := fun h hh => (hs.created h hh).trans hle }

/-- Two rows of one primary key are one row. -/
theorem Sound.eq_of_id (hs : Sound calendar clock halts) {g h : TradingHalt} (hg : g ∈ halts) (hh : h ∈ halts)
    (hid : g.id = h.id) : g = h :=
  List.inj_on_of_nodup_map hs.ids hg hh hid

/-- A new halt. -/
theorem Sound.trigger (hs : Sound calendar clock halts) {call : TriggerCall} {id : HaltId} {now : ℤ} {r : Triggered}
    (h : triggerHalt halts call id now = some r) (hnow : clock ≤ now) :
    Sound calendar now r.halts ∧ ∀ g ∈ halts, g ∈ r.halts := by
  rcases triggerHalt_cases h with ⟨_, _, _, rfl⟩ | ⟨-, hfresh, rfl⟩
  · exact ⟨hs.mono hnow, fun g hg => hg⟩
  · have hmem : ∀ {g}, g ∈ halts ++ [call.newHalt id now] → g ∈ halts ∨ g = call.newHalt id now := by
      intro g hg
      simpa using hg
    refine ⟨⟨?_, fun g hg => ?_, fun g hg => ?_, fun g hg => ?_⟩, fun g hg => List.mem_append_left _ hg⟩
    · rw [List.map_append, List.map_singleton, List.nodup_append]
      refine ⟨hs.ids, List.pairwise_singleton _ _, fun a ha b hb heq => ?_⟩
      obtain ⟨g, hg, rfl⟩ := List.mem_map.mp ha
      exact hfresh g hg (heq.trans (List.mem_singleton.mp hb))
    · rcases hmem hg with hg | rfl
      · exact (hs.created g hg).trans hnow
      · exact le_refl now
    · rcases hmem hg with hg | rfl
      · exact hs.platform g hg
      · exact fun hlevel => if_pos hlevel
    · rcases hmem hg with hg | rfl
      · exact hs.locked g hg
      · intro _ _ time htime
        cases htime

/-- A release of one row that is not locked. -/
theorem Sound.release (hs : Sound calendar clock halts) {g : TradingHalt} (hg : g ∈ halts) {today now : ℤ}
    (hunlocked : g.isLocked calendar today = false) (htoday : clock ≤ today) (hnow : today ≤ now)
    (releasedBy : Option UserId) : Sound calendar clock (release halts g.id releasedBy now) := by
  have hmem : ∀ {h}, h ∈ Risk.release halts g.id releasedBy now →
      h ∈ halts ∨ h = { g with releasedAt := some now, releasedBy := releasedBy } := by
    intro h hh
    obtain ⟨f, hf, rfl⟩ := List.mem_map.mp hh
    split_ifs with hid
    · exact .inr (by rw [hs.eq_of_id hf hg hid])
    · exact .inl hf
  refine ⟨?_, fun h hh => ?_, fun h hh => ?_, fun h hh => ?_⟩
  · have hids : (Risk.release halts g.id releasedBy now).map TradingHalt.id = halts.map TradingHalt.id := by
      unfold Risk.release
      rw [List.map_map]
      refine List.map_congr_left fun h _ => ?_
      show (if h.id = g.id then _ else _ : TradingHalt).id = _
      split_ifs <;> rfl
    exact hids ▸ hs.ids
  · rcases hmem hh with hh | rfl
    · exact hs.created h hh
    · exact hs.created g hg
  · rcases hmem hh with hh | rfl
    · exact hs.platform h hh
    · exact hs.platform g hg
  · rcases hmem hh with hh | rfl
    · exact hs.locked h hh
    · intro hauto hlevel time htime hday
      obtain rfl : now = time := Option.some.inj htime
      -- today's day is between the day of the halt and the day of the release, which are the same
      have hfirst := calendar.le_of_le _ _ ((hs.created g hg).trans htoday)
      have hlast := calendar.le_of_le _ _ hnow
      have hsame : calendar.tradingDay g.createdAt = calendar.tradingDay today := le_antisymm hfirst (hday ▸ hlast)
      have hlocked : g.isLocked calendar today = true := by
        unfold TradingHalt.isLocked
        rw [show g.auto = true from hauto, show g.level = .l2 from hlevel, hsame]
        simp
      exact absurd hlocked (by simp [hunlocked])

/-- A call of `release_halt` changes at most the row of its primary key. -/
theorem Sound.releaseHalt (hs : Sound calendar clock halts) {now : ℕ → ℤ} (hmono : ∀ m n, m ≤ n → now m ≤ now n)
    (hnow : clock ≤ now 0) (id : HaltId) (releasedBy : Option UserId) :
    Sound calendar clock (releaseHalt calendar halts id releasedBy now).1 ∧
      ∀ h ∈ halts, h.id ≠ id → h ∈ (releaseHalt calendar halts id releasedBy now).1 := by
  unfold Risk.releaseHalt
  cases hfind : halts.find? fun h => decide (h.id = id) && h.isActive with
  | none => exact ⟨hs, fun h hh _ => hh⟩
  | some g =>
    have hg := List.mem_of_find?_eq_some hfind
    obtain rfl : g.id = id := by
      have := List.find?_some hfind
      simp only [Bool.and_eq_true, decide_eq_true_eq] at this
      exact this.1
    dsimp only
    split_ifs with hlocked
    · exact ⟨hs, fun h hh _ => hh⟩
    · refine ⟨hs.release hg (by simpa using hlocked) hnow (hmono 0 1 (Nat.zero_le 1)) releasedBy, fun h hh hid => ?_⟩
      exact List.mem_map.mpr ⟨h, hh, if_neg hid⟩

/-- The loop of `release_expired_l2_halts` changes at most the rows it is for. -/
theorem Sound.releaseEach (hs : Sound calendar clock halts) {now : ℕ → ℤ} (hmono : ∀ m n, m ≤ n → now m ≤ now n)
    (hnow : clock ≤ now 0) (ids : List HaltId) :
    Sound calendar clock (releaseEach calendar halts now ids).1 ∧
      ∀ h ∈ halts, h.id ∉ ids → h ∈ (releaseEach calendar halts now ids).1 := by
  induction ids generalizing halts now with
  | nil => exact ⟨hs, fun h hh _ => hh⟩
  | cons id ids ih =>
    obtain ⟨hone, hkept⟩ := hs.releaseHalt hmono hnow id none
    have hlater : ∀ m n, m ≤ n → now (m + 2) ≤ now (n + 2) := fun m n hmn => hmono _ _ (Nat.add_le_add_right hmn 2)
    obtain ⟨hrest, hkept'⟩ := ih hone hlater (hnow.trans (hmono 0 2 (Nat.zero_le 2)))
    refine ⟨hrest, fun h hh hid => ?_⟩
    rw [List.mem_cons, not_or] at hid
    exact hkept' h (hkept h hh hid.1) hid.2

/-! ### Operations -/

variable {s t : HaltState} {a : HaltAct}

/-- An operation keeps the table sound, and keeps the rows it does not address as they are. -/
theorem Sound.step (hs : Sound calendar s.clock s.halts) (h : HaltStep calendar s a t) :
    Sound calendar t.clock t.halts ∧ ∀ h ∈ s.halts, h.isActive = true → ¬ a.addresses s.halts h → h ∈ t.halts := by
  cases h with
  | trigger hnow h =>
    obtain ⟨hsound, hkept⟩ := hs.trigger h hnow.ge
    exact ⟨hsound.mono (hnow.le 0), fun g hg _ _ => hkept g hg⟩
  | release hnow id releasedBy =>
    obtain ⟨hsound, hkept⟩ := hs.releaseHalt hnow.le_of_le hnow.ge id releasedBy
    refine ⟨hsound.mono (hnow.ge.trans (hnow.le 0)), fun g hg _ hother => hkept g hg fun hid => ?_⟩
    exact hother ⟨g, hg, hid, rfl, rfl, rfl⟩
  | post hnow h =>
    rcases post_cases h with heq | ⟨r, hr, heq⟩ | ⟨hactive, g, hg, -, hconcerns, heq⟩
    · dsimp only
      rw [heq]
      exact ⟨hs.mono (hnow.ge.trans (hnow.le 0)), fun g hg _ _ => hg⟩
    · dsimp only
      rw [heq]
      obtain ⟨hsound, hkept⟩ := hs.trigger hr hnow.ge
      exact ⟨hsound.mono (hnow.le 0), fun g hg _ _ => hkept g hg⟩
    · dsimp only
      rw [heq]
      obtain ⟨hsound, hkept⟩ := hs.releaseHalt hnow.le_of_le hnow.ge g.id _
      refine ⟨hsound.mono (hnow.ge.trans (hnow.le 0)), fun f hf _ hother => hkept f hf fun hid => ?_⟩
      exact hother ⟨hactive, hs.eq_of_id hf hg hid ▸ hconcerns⟩
  | expire hnow =>
    obtain ⟨hsound, hkept⟩ := hs.releaseEach hnow.le_of_le hnow.ge (activeAutoL2 s.halts)
    refine ⟨hsound.mono (hnow.ge.trans (hnow.le 0)), fun f hf _ hother => hkept f hf fun hid => ?_⟩
    obtain ⟨g, hg, hid⟩ := List.mem_map.mp hid
    obtain ⟨hg, hexpires⟩ := List.mem_filter.mp hg
    obtain rfl := hs.eq_of_id hg hf hid
    simp only [Bool.and_eq_true, decide_eq_true_eq] at hexpires
    exact hother hexpires.1

/-- The gate is closed exactly while a halt applies. -/
theorem Sound.isBlocked_iff (hs : Sound calendar clock halts) (user : UserId) (strategy : StrategyId) :
    isBlocked halts user strategy ≠ none ↔ ∃ h ∈ halts, h.Applies user strategy := by
  rw [ne_eq, isBlocked_eq_none]
  constructor
  · intro hblocked
    by_contra hnone
    refine hblocked fun h hh => ?_
    have happlies : ¬ h.Applies user strategy := fun happlies => hnone ⟨h, hh, happlies⟩
    unfold TradingHalt.Applies at happlies
    unfold TradingHalt.haltsPlatform TradingHalt.haltsUser TradingHalt.haltsStrategy
    cases hreleased : h.releasedAt with
    | some time => simp
    | none =>
      simp only [hreleased, true_and, not_or, not_and] at happlies
      obtain ⟨hlevel, huser, hstrategy⟩ := happlies
      refine ⟨by simp [hlevel], ?_, ?_⟩
      · by_cases hu : h.user = some user
        · rw [Option.isNone_eq_false_iff.mpr (Option.isSome_iff_ne_none.mpr (huser hu)), Bool.and_false, Bool.false_and]
        · simp [hu]
      · by_cases hu : h.user = some user
        · rw [decide_eq_false (hstrategy hu), Bool.and_false, Bool.false_and]
        · simp [hu]
  · rintro ⟨h, hh, hactive, happlies⟩ hopen
    obtain ⟨hplatform, huser, hstrategy⟩ := hopen h hh
    rcases happlies with hlevel | ⟨hu, hs'⟩ | ⟨hu, hs'⟩
    · simp [TradingHalt.haltsPlatform, hs.platform h hh hlevel, hlevel, hactive] at hplatform
    · simp [TradingHalt.haltsUser, hu, hs', hactive] at huser
    · simp [TradingHalt.haltsStrategy, hu, hs', hactive] at hstrategy

/-- **Halts are enforced over whole runs**: the gate is closed exactly while a halt applies; an
operation that releases halts of one scope and level does not open it while a halt of another
applies; and a halt of the daily loss is never released on the day it was engaged. -/
theorem halts_enforced (h : Run (HaltStep calendar) AnyStep ⟨[], clock⟩ s) (user : UserId) (strategy : StrategyId) :
    (isBlocked s.halts user strategy ≠ none ↔ ∃ h ∈ s.halts, h.Applies user strategy) ∧
    (∀ a t, HaltStep calendar s a t → ∀ h ∈ s.halts, h.Applies user strategy → ¬ a.addresses s.halts h →
      isBlocked t.halts user strategy ≠ none) ∧
    ∀ h ∈ s.halts, h.auto = true → h.level = .l2 → ∀ time, h.releasedAt = some time →
      calendar.tradingDay time ≠ calendar.tradingDay h.createdAt := by
  have hs : Sound calendar s.clock s.halts :=
    h.invariant (fun s => Sound calendar s.clock s.halts) Sound.empty fun hstep _ hs => (hs.step hstep).1
  refine ⟨hs.isBlocked_iff user strategy, fun a t hstep h hh happlies hother => ?_, hs.locked⟩
  obtain ⟨ht, hkept⟩ := hs.step hstep
  have hactive : h.isActive = true := by simp [TradingHalt.isActive, happlies.1]
  exact (ht.isBlocked_iff user strategy).mpr ⟨h, hkept h hh hactive hother, happlies⟩

end

/-! ### A day in New York -/

/-- A trip of the daily loss. -/
def sampleTrip : TriggerCall where
  user := some "u"
  level := .l2
  reason := "DAILY_LOSS_BREACH"
  auto := true
  flatten := true

/-- The halt it makes half an hour before midnight in New York, on the last day of October. -/
def sampleHalt : TradingHalt := sampleTrip.newHalt "h1" 1793503800000000

/-- After a trip half an hour before midnight, the loop for expired halts releases the halt half an hour
after midnight, which is the same day in UTC. -/
theorem halts_enforced_overMidnight :
    (isBlocked (release [sampleHalt] "h1" none 1793507400000000) "u" "st" ≠ none ↔
      ∃ h ∈ release [sampleHalt] "h1" none 1793507400000000, h.Applies "u" "st") ∧
    (∀ a t, HaltStep newYork2026 ⟨release [sampleHalt] "h1" none 1793507400000000, 1793507400000000⟩ a t →
      ∀ h ∈ release [sampleHalt] "h1" none 1793507400000000, h.Applies "u" "st" →
        ¬ a.addresses (release [sampleHalt] "h1" none 1793507400000000) h → isBlocked t.halts "u" "st" ≠ none) ∧
    ∀ h ∈ release [sampleHalt] "h1" none 1793507400000000, h.auto = true → h.level = .l2 →
      ∀ time, h.releasedAt = some time → newYork2026.tradingDay time ≠ newYork2026.tradingDay h.createdAt := by
  have hreads : ∀ {before time : ℤ}, before ≤ time → Reads before (fun _ => time) time :=
    fun h => ⟨fun _ _ _ => le_refl _, h, fun _ => le_refl _⟩
  have htrip : HaltStep newYork2026 ⟨[], 0⟩ (.trigger sampleTrip) ⟨[sampleHalt], 1793503800000000⟩ :=
    .trigger (r := ⟨sampleHalt, [sampleHalt], some ⟨"u", .user, none⟩⟩)
      (hreads (by decide)) rfl
  have hreleased : (releaseExpiredL2Halts newYork2026 [sampleHalt] fun _ => 1793507400000000).1 =
      release [sampleHalt] "h1" none 1793507400000000 := by decide +kernel
  have hexpire : HaltStep newYork2026 ⟨[sampleHalt], 1793503800000000⟩ .expire
      ⟨release [sampleHalt] "h1" none 1793507400000000, 1793507400000000⟩ :=
    hreleased ▸ .expire (hreads (by decide))
  exact halts_enforced ((Run.single htrip trivial).step hexpire trivial) "u" "st"

end StratTrader.Risk
