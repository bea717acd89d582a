import Mathlib.Logic.Basic

/-!
# Transactions with savepoints

A transaction that fails in one statement takes no other, until it is rolled back to a
savepoint. A block is what a program does inside it: statements, and computations that may raise.

## What is proved

* `savepoint_none`: a block under a savepoint that raises leaves the transaction as it was.
-/

namespace StratTrader.Foundation

/-- A transaction that is not yet committed. -/
structure Tx (σ : Type*) where
  /-- What has been written in it, on what was there before. -/
  state : σ
  /-- A statement has failed. -/
  aborted : Bool

/-- What is there after the commit; `none` if it is a rollback. -/
def Tx.commit {σ : Type*} (tx : Tx σ) : Option σ := if tx.aborted then none else some tx.state

/-- What a program does in a transaction; `none` if it raises. -/
abbrev Block (σ α : Type*) := Tx σ → Tx σ × Option α

namespace Block

variable {σ α β : Type*}

/-- One block, and another that goes on from what it returns. -/
def andThen (block : Block σ α) (next : α → Block σ β) : Block σ β := fun tx =>
  match block tx with
  | (tx', none) => (tx', none)
  | (tx', some a) => next a tx'

/-- A statement that makes something of the state, if the database takes it. -/
def statement (run : σ → Option (σ × α)) : Block σ α := fun tx =>
  if tx.aborted then (tx, none)
  else
    match run tx.state with
    | none => ({ tx with aborted := true }, none)
    | some (s, a) => ({ tx with state := s }, some a)

/-- A computation that touches no table. -/
def compute (a : σ → Option α) : Block σ α := fun tx => (tx, a tx.state)

/-- A block under a savepoint, to which it is rolled back if it raises. -/
def savepoint (block : Block σ α) : Block σ α := fun tx =>
  match block tx with
  | (_, none) => (tx, none)
  | (tx', some a) => (tx', some a)

/-- **A block that raises under a savepoint has done nothing.** -/
theorem savepoint_none {block : Block σ α} {tx : Tx σ} (h : (savepoint block tx).2 = none) :
    (savepoint block tx).1 = tx := by
  unfold savepoint at h ⊢
  cases hblock : block tx with
  | mk tx' result =>
    cases result with
    | none => rfl
    | some a =>
      rw [hblock] at h
      cases h

end Block

end StratTrader.Foundation
