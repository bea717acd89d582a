import Mathlib.Data.List.Range
import Mathlib.Tactic.Common

/-!
# Streams with a consumer group

An append-only stream of entries, numbered from 1, that keeps at least its latest ones:
an append may drop entries from the old end. A consumer group reads the stream. Reading
new entries moves the group's cursor over them and makes them pending; a pending entry
stays pending, and can be read again, until it is acknowledged. An entry that is dropped
while it is pending stays pending, and is read without its contents.

Since nothing is removed but from the old end, the entries kept are those numbered above
`trimmed`, in order, and no numbers are stored.

## What is proved

What each operation does to the three states an entry of the group can be in: waiting to
be delivered (`Waiting`), pending, or skipped, that is, dropped before it was delivered.
-/

namespace StratTrader.Foundation

universe u

/-- A consumer group of one consumer. -/
structure Group where
  /-- The number of the last entry delivered. -/
  delivered : ℕ
  /-- The entries delivered and not acknowledged. -/
  pending : List ℕ
  deriving DecidableEq

/-- A stream. -/
structure Stream (φ : Type u) where
  /-- How many entries have been dropped. -/
  trimmed : ℕ
  /-- The entries kept, from number `trimmed + 1` on. -/
  kept : List φ
  /-- The consumer group, once it is created. -/
  group : Option Group

namespace Stream

variable {φ : Type u}

/-- The stream without entries. -/
def empty : Stream φ := ⟨0, [], none⟩

/-- The number of the last entry. -/
def lastId (s : Stream φ) : ℕ := s.trimmed + s.kept.length

/-- The number of the last entry delivered: none before the group is created. -/
def delivered (s : Stream φ) : ℕ := (s.group.map Group.delivered).getD 0

/-- The entries delivered and not acknowledged. -/
def pending (s : Stream φ) : List ℕ := (s.group.map Group.pending).getD []

/-- The contents of an entry, while it is kept. -/
def entry? (s : Stream φ) (m : ℕ) : Option φ :=
  if s.trimmed < m then s.kept[m - s.trimmed - 1]? else none

/-- Append an entry and drop up to `drop` entries, but keep `maxlen`. -/
def append (s : Stream φ) (x : φ) (maxlen drop : ℕ) : Stream φ :=
  let d := min drop (s.kept.length + 1 - maxlen)
  { s with trimmed := s.trimmed + d, kept := (s.kept ++ [x]).drop d }

/-- Create the group at the start of the stream. -/
def createGroup (s : Stream φ) : Stream φ := { s with group := some ⟨0, []⟩ }

/-- The number of the first entry that the group would be delivered next. -/
def next (s : Stream φ) : ℕ := max s.delivered s.trimmed + 1

/-- How many entries a read of at most `count` new entries delivers. -/
def available (s : Stream φ) (count : ℕ) : ℕ := min count (s.lastId + 1 - s.next)

/-- Deliver `n` entries. -/
def deliver (s : Stream φ) (n : ℕ) : Stream φ :=
  if n = 0 then s
  else { s with group := some ⟨s.next + n - 1, s.pending ++ List.range' s.next n⟩ }

/-- Acknowledge an entry. -/
def ack (s : Stream φ) (m : ℕ) : Stream φ :=
  { s with group := s.group.map fun g => { g with pending := g.pending.filter fun k => decide (k ≠ m) } }

/-- The entry is kept, and the group has not been delivered it. -/
def Waiting (s : Stream φ) (m : ℕ) : Prop := s.delivered < m ∧ s.trimmed < m ∧ m ≤ s.lastId

/-- The entries an append drops before they are delivered. -/
def skippedBy (s : Stream φ) (maxlen drop : ℕ) : List ℕ :=
  let d := min drop (s.kept.length + 1 - maxlen)
  (List.range' (s.trimmed + 1) d).filter fun m => decide (s.delivered < m)

/-! ### Appending -/

@[simp] theorem delivered_append (s : Stream φ) (x : φ) (maxlen drop : ℕ) :
    (s.append x maxlen drop).delivered = s.delivered := rfl

@[simp] theorem pending_append (s : Stream φ) (x : φ) (maxlen drop : ℕ) :
    (s.append x maxlen drop).pending = s.pending := rfl

theorem trimmed_append (s : Stream φ) (x : φ) (maxlen drop : ℕ) :
    (s.append x maxlen drop).trimmed = s.trimmed + min drop (s.kept.length + 1 - maxlen) := rfl

@[simp] theorem lastId_append (s : Stream φ) (x : φ) (maxlen drop : ℕ) :
    (s.append x maxlen drop).lastId = s.lastId + 1 := by
  simp only [lastId, append, List.length_drop, List.length_append, List.length_singleton]
  omega

/-- After an append a waiting entry waits still or has been skipped. -/
theorem Waiting.append {s : Stream φ} {m : ℕ} (h : s.Waiting m) (x : φ) (maxlen drop : ℕ) :
    (s.append x maxlen drop).Waiting m ∨ m ∈ s.skippedBy maxlen drop := by
  obtain ⟨h1, h2, h3⟩ := h
  by_cases hd : s.trimmed + min drop (s.kept.length + 1 - maxlen) < m
  · refine Or.inl ⟨h1, hd, ?_⟩
    rw [lastId_append]
    omega
  · refine Or.inr (List.mem_filter.mpr ⟨?_, by simpa using h1⟩)
    rw [List.mem_range'_1]
    omega

/-- The new entry is waiting, if any entry is kept at all. -/
theorem waiting_append_self {s : Stream φ} (hs : s.delivered ≤ s.lastId) (x : φ) {maxlen : ℕ}
    (hm : 0 < maxlen) (drop : ℕ) : (s.append x maxlen drop).Waiting (s.lastId + 1) := by
  refine ⟨by simpa using Nat.lt_succ_of_le hs, ?_, by simp⟩
  rw [trimmed_append, lastId]
  omega

/-- An entry that is skipped is older than `maxlen` others. -/
theorem le_lastId_of_skippedBy {s : Stream φ} {maxlen drop m : ℕ} (h : m ∈ s.skippedBy maxlen drop)
    (x : φ) : m + maxlen ≤ (s.append x maxlen drop).lastId := by
  have hr := (List.mem_filter.mp h).1
  rw [List.mem_range'_1] at hr
  rw [lastId_append, lastId]
  omega

/-- An entry that an append drops is not waiting after it. -/
theorem not_waiting_append {s : Stream φ} {maxlen drop m : ℕ} (hm : m ≤ s.trimmed + drop)
    (hk : m + maxlen ≤ s.lastId + 1) (x : φ) : ¬ (s.append x maxlen drop).Waiting m := by
  intro h
  have htrim := h.2.1
  rw [trimmed_append] at htrim
  unfold lastId at hk
  omega

/-- An append that may drop nothing drops nothing. -/
theorem append_zero (s : Stream φ) (x : φ) (maxlen : ℕ) :
    s.append x maxlen 0 = { s with kept := s.kept ++ [x] } := by
  simp [append]

theorem skippedBy_zero (s : Stream φ) (maxlen : ℕ) : s.skippedBy maxlen 0 = [] := by
  simp [skippedBy]

/-! ### Delivering -/

theorem lastId_deliver (s : Stream φ) (n : ℕ) : (s.deliver n).lastId = s.lastId := by
  unfold deliver; split_ifs <;> rfl

theorem mem_pending_deliver {s : Stream φ} {n m : ℕ} :
    m ∈ (s.deliver n).pending ↔ m ∈ s.pending ∨ m ∈ List.range' s.next n := by
  unfold deliver
  split_ifs with hn
  · simp [hn]
  · simp [pending]

theorem delivered_deliver_le {s : Stream φ} (hs : s.delivered ≤ s.lastId) {n count : ℕ}
    (hn : n ≤ s.available count) : (s.deliver n).delivered ≤ s.lastId := by
  unfold deliver
  split_ifs with h0
  · exact hs
  · have hmin := le_trans hn (min_le_right _ _)
    simp only [delivered, Option.map_some, Option.getD_some]
    omega

theorem isSome_group_deliver {s : Stream φ} (h : s.group.isSome) (n : ℕ) : (s.deliver n).group.isSome := by
  unfold deliver
  split_ifs
  · exact h
  · rfl

/-- After a delivery a waiting entry is pending or waits still. -/
theorem Waiting.deliver {s : Stream φ} {m : ℕ} (h : s.Waiting m) (n : ℕ) :
    (s.deliver n).Waiting m ∨ m ∈ (s.deliver n).pending := by
  obtain ⟨h1, h2, h3⟩ := h
  have hnext : s.next ≤ m := by unfold next; omega
  rw [mem_pending_deliver, List.mem_range'_1]
  by_cases hm : m < s.next + n
  · exact Or.inr (Or.inr ⟨hnext, hm⟩)
  · refine Or.inl ?_
    unfold Stream.deliver
    split_ifs with h0
    · exact ⟨h1, h2, h3⟩
    · refine ⟨?_, h2, h3⟩
      simp only [delivered, Option.map_some, Option.getD_some]
      omega

/-! ### Acknowledging -/

@[simp] theorem lastId_ack (s : Stream φ) (m : ℕ) : (s.ack m).lastId = s.lastId := rfl

@[simp] theorem delivered_ack (s : Stream φ) (m : ℕ) : (s.ack m).delivered = s.delivered := by
  unfold ack delivered
  cases s.group <;> rfl

theorem mem_pending_ack {s : Stream φ} {m k : ℕ} (h : k ∈ s.pending) (hk : k ≠ m) :
    k ∈ (s.ack m).pending := by
  unfold pending at h ⊢
  unfold ack
  cases hg : s.group with
  | none => rw [hg] at h; cases h
  | some g =>
    rw [hg] at h
    simpa [hk] using h

theorem Waiting.ack {s : Stream φ} {k : ℕ} (h : s.Waiting k) (m : ℕ) : (s.ack m).Waiting k :=
  ⟨by rw [delivered_ack]; exact h.1, h.2.1, h.2.2⟩

/-! ### Creating the group -/

theorem delivered_createGroup {s : Stream φ} (h : s.group = none) :
    s.createGroup.delivered = s.delivered := by
  simp [createGroup, delivered, h]

theorem pending_createGroup {s : Stream φ} (h : s.group = none) :
    s.createGroup.pending = s.pending := by
  simp [createGroup, pending, h]

end Stream

end StratTrader.Foundation
