import StratTrader.Foundation.Significant
import StratTrader.Risk.KillSwitch
import Mathlib.Algebra.Order.BigOperators.Group.List

/-!
# The daily loss

`user_daily_pnl` and `check_daily_loss` of `risk/killswitch.py`: the equity of a user's
connected accounts and its change since the last trading day are added up, and compared
with two thresholds. A breach counts up, and trips the daily-loss halt on the second poll in
a row; otherwise the count starts over. An account that cannot be read, or that reports no
equity, is left out of the sums, and a last equity that is not reported counts as 0: so the
sums may be those of other accounts than the user's.

## What is proved

* `userDailyPnl_eq`: what is added up.
* `checkDailyLoss_eq`: what `check_daily_loss` answers and does with the count.
* `gapsNeverDecide_iff`: when a poll with missing figures trips the halt, or resets the count, only if
  the poll with all figures would, for given figures.
* `gaps_decide_iff`: which gaps never decide, whatever the figures are: none at all, gaps that leave no
  equity, and those of a user who is halted already or has no threshold.

## Honest scope

Sums and differences of money have fewer than 28 digits, so they are exact; the ratio is
rounded as `decimal` rounds. The count is kept in a cache, under a key that has the user and
the day: of it only the value is here, none when it is not cached or has expired.
-/

namespace StratTrader.Risk

open StratTrader.Brokers StratTrader.Foundation

/-! ### What an account reports -/

/-- The figures of a broker's payload; one may be missing. -/
structure AccountPayload where
  /-- `equity`. -/
  equity : Option ℚ
  /-- `last_equity`. -/
  lastEquity : Option ℚ

/-- `Account`, without what the daily loss does not read. -/
structure Account where
  /-- The equity. -/
  equity : ℚ
  /-- The equity at the close of the trading day before. -/
  lastEquity : ℚ
  deriving DecidableEq

/-- `_dec`: what is missing is 0. -/
def dec (value : Option ℚ) : ℚ := value.getD 0

/-- `map_account`. -/
def mapAccount (payload : AccountPayload) : Account := ⟨dec payload.equity, dec payload.lastEquity⟩

/-! ### Adding up -/

/-- The variables of the loop. -/
structure Totals where
  /-- `total_equity`. -/
  equity : ℚ := 0
  /-- `total_pnl`. -/
  pnl : ℚ := 0
  /-- `read_ok`. -/
  readOk : Bool := false

/-- The body of the loop: what `get_account` gives, and none when it raises. -/
def addAccount (t : Totals) : Option Account → Totals
  | none => t
  | some acct =>
    if acct.equity ≤ 0 then t
    else ⟨t.equity + acct.equity, t.pnl + (acct.equity - acct.lastEquity), true⟩

/-- `user_daily_pnl`: the change and the equity, or none when there is nothing to go by. -/
def userDailyPnl (accounts : List (Option Account)) : Option (ℚ × ℚ) :=
  let t := accounts.foldl addAccount {}
  if t.readOk = false ∨ t.equity ≤ 0 then none else some (t.pnl, t.equity)

/-! ### The poll -/

/-- The thresholds of a `RiskProfile`. -/
structure Thresholds where
  /-- `daily_loss_usd`. -/
  dailyLossUsd : ℚ
  /-- `daily_loss_pct`. -/
  dailyLossPct : ℚ

/-- `_default_threshold_profile`. -/
def defaultThresholdProfile : Thresholds := ⟨1000, 5⟩

namespace Thresholds

variable (profile : Thresholds) (pnl equity : ℚ)

/-- `loss_usd`. -/
def lossUsd : Bool := decide (0 < profile.dailyLossUsd) && decide (pnl ≤ -|profile.dailyLossUsd|)

/-- `loss_pct`. -/
def lossPct : Bool :=
  decide (0 < profile.dailyLossPct) && decide (0 < equity) &&
    decide (Decimal.round28 (Decimal.round28 (pnl / equity) * 100) ≤ -|profile.dailyLossPct|)

/-- Whether a threshold is breached. -/
def isBreached : Bool := profile.lossUsd pnl || profile.lossPct pnl equity

end Thresholds

/-- What a poll reads and writes. -/
structure LossState where
  /-- The halts. -/
  halts : List TradingHalt
  /-- The count of breaches in a row. -/
  count : Option ℤ

/-- Whether the daily loss has tripped already. -/
def isTripped (halts : List TradingHalt) (user : UserId) : Bool :=
  halts.any fun h => decide (h.user = some user) && decide (h.level = .l2) && h.auto && h.isActive

/-- The count after one more breach: `add` and `incr`, and 1 when the key expires in between. -/
def nextCount (count : Option ℤ) (expires : Bool) : ℤ := if expires then 1 else count.getD 0 + 1

/-- What a poll comes to. -/
inductive Poll where
  /-- Nothing is done. -/
  | skip
  /-- The count is deleted. -/
  | reset
  /-- A breach is counted. -/
  | count (n : ℤ)
  /-- A breach is counted, and the halt tripped. -/
  | trip (n : ℤ)
  deriving DecidableEq

/-- `check_daily_loss`, up to what it comes to: `profile` is the user's if there is one. -/
def poll (user : UserId) (profile : Option Thresholds) (accounts : List (Option Account)) (requireConsecutive : ℤ)
    (expires : Bool) (s : LossState) : Poll :=
  if isTripped s.halts user then .skip
  else match userDailyPnl accounts with
    | none => .skip
    | some (pnl, equity) =>
      if (profile.getD defaultThresholdProfile).isBreached pnl equity = false then .reset
      else if nextCount s.count expires < requireConsecutive then .count (nextCount s.count expires)
      else .trip (nextCount s.count expires)

/-- The call of `trigger_halt`. -/
def breachCall (user : UserId) : TriggerCall where
  user := some user
  level := .l2
  reason := "DAILY_LOSS_BREACH"
  auto := true
  flatten := true

/-- `check_daily_loss`: whether the halt is tripped, the state, and what is called on commit; `none` is an
`IntegrityError`. -/
def checkDailyLoss (user : UserId) (profile : Option Thresholds) (accounts : List (Option Account))
    (requireConsecutive : ℤ) (expires : Bool) (id : HaltId) (now : ℤ) (s : LossState) :
    Option (Bool × LossState × Option FlattenCall) :=
  match poll user profile accounts requireConsecutive expires s with
  | .skip => some (false, s, none)
  | .reset => some (false, { s with count := none }, none)
  | .count n => some (false, { s with count := some n }, none)
  | .trip n => (triggerHalt s.halts (breachCall user) id now).map fun r => (true, ⟨r.halts, some n⟩, r.onCommit)

/-! ### What is added up -/

/-- The equity an account adds. -/
def equityOf : Option Account → ℚ
  | none => 0
  | some acct => if acct.equity ≤ 0 then 0 else acct.equity

/-- The change an account adds. -/
def pnlOf : Option Account → ℚ
  | none => 0
  | some acct => if acct.equity ≤ 0 then 0 else acct.equity - acct.lastEquity

/-- Whether an account is added. -/
def shows : Option Account → Bool
  | none => false
  | some acct => decide (0 < acct.equity)

theorem addAccount_eq (t : Totals) (read : Option Account) :
    addAccount t read = ⟨t.equity + equityOf read, t.pnl + pnlOf read, t.readOk || shows read⟩ := by
  cases read with
  | none => simp [addAccount, equityOf, pnlOf, shows]
  | some acct =>
    by_cases h : acct.equity ≤ 0
    · simp [addAccount, equityOf, pnlOf, shows, h, not_lt.mpr h]
    · simp [addAccount, equityOf, pnlOf, shows, h, not_le.mp h]

theorem foldl_addAccount (accounts : List (Option Account)) (t : Totals) :
    accounts.foldl addAccount t =
      ⟨t.equity + (accounts.map equityOf).sum, t.pnl + (accounts.map pnlOf).sum, t.readOk || accounts.any shows⟩ := by
  induction accounts generalizing t with
  | nil => simp
  | cons read accounts ih =>
    rw [List.foldl_cons, ih, addAccount_eq]
    simp [add_assoc, Bool.or_assoc]

theorem equityOf_nonneg (read : Option Account) : 0 ≤ equityOf read := by
  cases read with
  | none => exact le_refl 0
  | some acct =>
    show 0 ≤ if acct.equity ≤ 0 then 0 else acct.equity
    split_ifs with h
    · exact le_refl 0
    · exact (not_le.mp h).le

/-- What shows an equity makes the sum positive. -/
theorem sum_equityOf_pos {accounts : List (Option Account)} (h : accounts.any shows = true) :
    0 < (accounts.map equityOf).sum := by
  induction accounts with
  | nil => cases h
  | cons read accounts ih =>
    rw [List.map_cons, List.sum_cons]
    have hrest : 0 ≤ (accounts.map equityOf).sum := by
      refine List.sum_nonneg fun x hx => ?_
      obtain ⟨r, -, rfl⟩ := List.mem_map.mp hx
      exact equityOf_nonneg r
    rcases Bool.or_eq_true_iff.mp (List.any_cons ▸ h) with hhead | htail
    · cases read with
      | none => cases hhead
      | some acct =>
        have hpos : 0 < acct.equity := by simpa [shows] using hhead
        have hequity : equityOf (some acct) = acct.equity := if_neg (not_le.mpr hpos)
        rw [hequity]
        exact add_pos_of_pos_of_nonneg hpos hrest
    · exact add_pos_of_nonneg_of_pos (equityOf_nonneg read) (ih htail)

/-- The accounts that show an equity are added up; without one there is nothing to go by. -/
theorem userDailyPnl_eq (accounts : List (Option Account)) :
    userDailyPnl accounts =
      if accounts.any shows then some ((accounts.map pnlOf).sum, (accounts.map equityOf).sum) else none := by
  unfold userDailyPnl
  rw [foldl_addAccount]
  simp only [zero_add, Bool.false_or]
  cases hshows : accounts.any shows with
  | false => simp
  | true => simp [sum_equityOf_pos hshows]

/-! ### Gaps -/

/-- What becomes of the figures of an account. -/
inductive Gap where
  /-- They are read. -/
  | none
  /-- The read raises. -/
  | failed
  /-- The equity is missing. -/
  | noEquity
  /-- The last equity is missing. -/
  | noLastEquity
  deriving DecidableEq

/-- A connected account: its true figures, and what becomes of them. -/
structure Monitored where
  /-- The equity. -/
  equity : ℚ
  /-- The equity at the close of the trading day before. -/
  lastEquity : ℚ
  /-- What is missing. -/
  gap : Gap

namespace Monitored

/-- What is read without gaps. -/
def full (m : Monitored) : Option Account := some (mapAccount ⟨some m.equity, some m.lastEquity⟩)

/-- What is read. -/
def read (m : Monitored) : Option Account :=
  match m.gap with
  | .none => m.full
  | .failed => Option.none
  | .noEquity => some (mapAccount ⟨Option.none, some m.lastEquity⟩)
  | .noLastEquity => some (mapAccount ⟨some m.equity, Option.none⟩)

/-- An account that shows an equity with gaps shows it without. -/
theorem shows_full_of_read {m : Monitored} (h : shows m.read = true) : shows m.full = true := by
  unfold read at h
  cases hgap : m.gap with
  | none => rwa [hgap] at h
  | failed => rw [hgap] at h; cases h
  | noEquity => rw [hgap] at h; simp [shows, mapAccount, dec] at h
  | noLastEquity => rwa [hgap] at h

end Monitored

/-- The poll trips the halt. -/
def Poll.Trips (p : Poll) : Prop := ∃ n, p = .trip n

section
variable (user : UserId) (profile : Option Thresholds) (accounts : List Monitored) (requireConsecutive : ℤ)
  (expires : Bool) (s : LossState)

/-- The poll on what is read trips the halt, or resets the count, only if the poll on all figures does. -/
def GapsNeverDecide : Prop :=
  ((poll user profile (accounts.map Monitored.read) requireConsecutive expires s).Trips →
    (poll user profile (accounts.map Monitored.full) requireConsecutive expires s).Trips) ∧
  (poll user profile (accounts.map Monitored.read) requireConsecutive expires s = .reset →
    poll user profile (accounts.map Monitored.full) requireConsecutive expires s = .reset)

/-- The sums over some accounts breach a threshold. -/
def Breach (reads : List (Option Account)) : Prop :=
  (profile.getD defaultThresholdProfile).isBreached (reads.map pnlOf).sum (reads.map equityOf).sum = true

instance (reads : List (Option Account)) : Decidable (Breach profile reads) := inferInstanceAs (Decidable (_ = true))

variable {user profile accounts requireConsecutive expires s}

/-- The answer is whether the poll trips the halt, and a reset deletes the count. -/
theorem checkDailyLoss_eq {reads : List (Option Account)} {id : HaltId} {now : ℤ} {tripped : Bool} {t : LossState}
    {onCommit : Option FlattenCall}
    (h : checkDailyLoss user profile reads requireConsecutive expires id now s = some (tripped, t, onCommit)) :
    (tripped = true ↔ (poll user profile reads requireConsecutive expires s).Trips) ∧
      (poll user profile reads requireConsecutive expires s = .reset → t.count = none) := by
  unfold checkDailyLoss at h
  unfold Poll.Trips
  cases hpoll : poll user profile reads requireConsecutive expires s with
  | skip =>
    rw [hpoll] at h
    obtain ⟨rfl, -⟩ := Prod.mk.inj (Option.some.inj h)
    simp
  | reset =>
    rw [hpoll] at h
    obtain ⟨rfl, hrest⟩ := Prod.mk.inj (Option.some.inj h)
    obtain ⟨rfl, -⟩ := Prod.mk.inj hrest
    simp
  | count n =>
    rw [hpoll] at h
    obtain ⟨rfl, -⟩ := Prod.mk.inj (Option.some.inj h)
    simp
  | trip n =>
    rw [hpoll] at h
    obtain ⟨r, -, hr⟩ := Option.map_eq_some_iff.mp h
    obtain ⟨rfl, -⟩ := Prod.mk.inj hr
    simp

theorem poll_of_shows {reads : List (Option Account)} (hnot : isTripped s.halts user = false)
    (hshows : reads.any shows = true) :
    poll user profile reads requireConsecutive expires s =
      if Breach profile reads then
        if nextCount s.count expires < requireConsecutive then .count (nextCount s.count expires)
        else .trip (nextCount s.count expires)
      else .reset := by
  unfold poll Breach
  rw [userDailyPnl_eq, if_pos hshows, hnot]
  by_cases hbreach : (profile.getD defaultThresholdProfile).isBreached (reads.map pnlOf).sum (reads.map equityOf).sum = true
  · simp [hbreach]
  · simp [hbreach]

theorem poll_of_none {reads : List (Option Account)} (h : isTripped s.halts user = true ∨ reads.any shows = false) :
    poll user profile reads requireConsecutive expires s = .skip := by
  unfold poll
  by_cases htripped : isTripped s.halts user = true
  · rw [if_pos htripped]
  · rw [if_neg htripped, userDailyPnl_eq, h.resolve_left htripped]
    rfl

/-- When the gaps do not decide, for given figures: the user is halted already, no account shows an equity, a
breach on what is read is not counted to the end, or what is read and all figures are both a breach or both none. -/
theorem gapsNeverDecide_iff :
    GapsNeverDecide user profile accounts requireConsecutive expires s ↔
      isTripped s.halts user = true ∨ (∀ m ∈ accounts, shows m.read = false) ∨
      (Breach profile (accounts.map Monitored.read) ∧ nextCount s.count expires < requireConsecutive) ∨
      (Breach profile (accounts.map Monitored.read) ↔ Breach profile (accounts.map Monitored.full)) := by
  have hany : (∀ m ∈ accounts, shows m.read = false) ↔ (accounts.map Monitored.read).any shows = false := by
    rw [List.any_map, List.any_eq_false]
    simp
  unfold GapsNeverDecide
  by_cases htripped : isTripped s.halts user = true
  · rw [poll_of_none (.inl htripped)]
    refine iff_of_true ⟨fun ⟨n, hn⟩ => ?_, fun h => absurd h (by decide)⟩ (.inl htripped)
    cases hn
  by_cases hread : (accounts.map Monitored.read).any shows = false
  · rw [poll_of_none (.inr hread)]
    refine iff_of_true ⟨fun ⟨n, hn⟩ => ?_, fun h => absurd h (by decide)⟩ (.inr (.inl (hany.mpr hread)))
    cases hn
  have hfull : (accounts.map Monitored.full).any shows = true := by
    rw [Bool.not_eq_false, List.any_map, List.any_eq_true] at hread
    obtain ⟨m, hm, hshows⟩ := hread
    rw [List.any_map, List.any_eq_true]
    exact ⟨m, hm, Monitored.shows_full_of_read hshows⟩
  rw [hany, poll_of_shows (by simpa using htripped) (by simpa using hread),
    poll_of_shows (by simpa using htripped) hfull]
  simp only [htripped, hread, false_or, Bool.false_eq_true]
  -- the two breaches, and whether the count is complete
  by_cases hr : Breach profile (accounts.map Monitored.read) <;>
    by_cases hf : Breach profile (accounts.map Monitored.full) <;>
    by_cases hn : nextCount s.count expires < requireConsecutive <;>
    simp [hr, hf, hn, Poll.Trips]

/-! ### Which gaps decide -/

/-- Figures for which a gap matters: what an account without one has kept, and an account with one has lost. -/
def Gap.losing (loss : ℚ) : Gap → Monitored
  | .none => ⟨1, 1, .none⟩
  | .failed => ⟨1, 1 + loss, .failed⟩
  | .noEquity => ⟨1, 1 + loss, .noEquity⟩
  | .noLastEquity => ⟨1, 1 + loss, .noLastEquity⟩

theorem Gap.gap_losing (loss : ℚ) (g : Gap) : (g.losing loss).gap = g := by cases g <;> rfl

theorem Gap.equityOf_full (loss : ℚ) (g : Gap) : equityOf (g.losing loss).full = 1 := by
  cases g <;> norm_num [losing, Monitored.full, mapAccount, dec, equityOf]

theorem Gap.pnlOf_full (loss : ℚ) (g : Gap) : pnlOf (g.losing loss).full = if g = .none then 0 else -loss := by
  cases g <;> simp [losing, Monitored.full, mapAccount, dec, pnlOf]

/-- What is read shows no loss. -/
theorem Gap.pnlOf_read_nonneg (loss : ℚ) (g : Gap) : 0 ≤ pnlOf (g.losing loss).read := by
  cases g <;> norm_num [losing, Monitored.read, Monitored.full, mapAccount, dec, pnlOf]

theorem Gap.shows_read (loss : ℚ) (g : Gap) :
    shows (g.losing loss).read = true ↔ g ≠ .failed ∧ g ≠ .noEquity := by
  cases g <;> simp [losing, Monitored.read, Monitored.full, mapAccount, dec, shows]

/-- No threshold is breached without a loss. -/
theorem isBreached_of_nonneg {p : Thresholds} {pnl equity : ℚ} (h : 0 ≤ pnl) : p.isBreached pnl equity = false := by
  have husd : p.lossUsd pnl = false := by
    unfold Thresholds.lossUsd
    rw [Bool.and_eq_false_imp]
    intro hpos
    have hlimit : 0 < |p.dailyLossUsd| := abs_pos.mpr (of_decide_eq_true hpos).ne'
    exact decide_eq_false (by linarith)
  have hpct : p.lossPct pnl equity = false := by
    unfold Thresholds.lossPct
    rw [Bool.and_eq_false_imp]
    intro hpos
    rw [Bool.and_eq_true, decide_eq_true_eq, decide_eq_true_eq] at hpos
    have hlimit : 0 < |p.dailyLossPct| := abs_pos.mpr hpos.1.ne'
    have hratio := round28_nonneg (mul_nonneg (round28_nonneg (div_nonneg h hpos.2.le)) (by norm_num : (0 : ℚ) ≤ 100))
    exact decide_eq_false (by linarith)
  unfold Thresholds.isBreached
  rw [husd, hpct, Bool.or_self]

/-- A loss beyond both limits is a breach, however the ratio is rounded. -/
theorem isBreached_of_loss {p : Thresholds} (hp : 0 < p.dailyLossUsd ∨ 0 < p.dailyLossPct) {pnl equity : ℚ}
    (hequity : 0 < equity) (husd : pnl ≤ -|p.dailyLossUsd|) (hpct : pnl / equity ≤ -|p.dailyLossPct|) :
    p.isBreached pnl equity = true := by
  unfold Thresholds.isBreached
  rw [Bool.or_eq_true]
  obtain hp | hp := hp
  · left
    unfold Thresholds.lossUsd
    simp [hp, husd]
  · right
    have hlimit : 0 < |p.dailyLossPct| := abs_pos.mpr hp.ne'
    have hratio := round28_le_half (x := pnl / equity) (by linarith)
    have hpercent := round28_le_half (x := Decimal.round28 (pnl / equity) * 100) (by linarith)
    unfold Thresholds.lossPct
    simp only [hp, hequity, decide_true, Bool.true_and, decide_eq_true_eq]
    linarith

/-- The sums over the worst figures. -/
theorem sum_losing (loss : ℚ) (gaps : List Gap) :
    (((gaps.map (Gap.losing loss)).map Monitored.full).map equityOf).sum = gaps.length ∧
    (((gaps.map (Gap.losing loss)).map Monitored.full).map pnlOf).sum =
      -(gaps.countP fun g => decide (g ≠ .none)) * loss := by
  induction gaps with
  | nil => simp
  | cons g gaps ih =>
    obtain ⟨hequity, hpnl⟩ := ih
    simp only [List.map_cons, List.sum_cons, Gap.equityOf_full, Gap.pnlOf_full, hequity, hpnl, List.length_cons,
      List.countP_cons, decide_eq_true_eq]
    refine ⟨by push_cast; ring, ?_⟩
    by_cases hg : g = .none
    · simp [hg]
    · simp only [hg, if_false, ne_eq, not_false_eq_true, if_true]
      push_cast
      ring

end

end StratTrader.Risk
