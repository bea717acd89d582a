import StratTrader.Foundation.Objects
import Mathlib.Data.List.Infix

/-!
# Scrubbing

What `audit/scrub.py` takes out of a diff before it is written: the values that stand under a
sensitive key. `scrub` calls itself for every part that it keeps, so that it raises a
`RecursionError` for a value that is too deep for the stack.

## What is proved

* `scrub_eq`: it makes `scrubbed` of a value whose `reach` the stack has room for, and raises
  otherwise.
* `scrubbed_scrubbed`: what has been scrubbed stays as it is.

## Honest scope

A call takes one frame of the stack, in a comprehension too, as it does since Python 3.12.

`lower` changes the letters that a text of ASCII letters can be made of; the others make no
difference to whether a key is sensitive.
-/

namespace StratTrader.Audit

open StratTrader.Foundation

/-- `REDACTED`. -/
def redacted : String := "***REDACTED***"

/-- `SENSITIVE_KEYS`. -/
def sensitiveKeys : List String := ["authorization", "sig", "secret", "password", "token", "api_key", "dsn"]

/-- `AUDIT_SENSITIVE_KEYS`. -/
def auditSensitiveKeys : List String := sensitiveKeys ++ ["key", "code", "mfa_code"]

/-- `SENSITIVE_FIELD_PARTS`. -/
def sensitiveFieldParts : List String :=
  ["secret", "password", "token", "api_key", "apikey", "authorization", "_enc", "encrypted", "credential",
    "private_key", "current_jti", "code_hash", "salt", "dsn"]

/-- `str.lower` of a character: an ASCII letter, `K` for Kelvin, or a dotted capital `I`. -/
def lowerChar (c : Char) : List Char :=
  if c.toNat = 0x212A then ['k']
  else if c.toNat = 0x130 then ['i', Char.ofNat 0x307]
  else [c.toLower]

/-- `str.lower`. -/
def lower (s : String) : String := String.ofList (s.toList.flatMap lowerChar)

/-- `_key_is_sensitive`. -/
def keyIsSensitive (key : String) : Bool :=
  let low := lower key
  decide (low ∈ auditSensitiveKeys) || sensitiveFieldParts.any fun part => decide (part.toList <:+: low.toList)

/-- `isinstance(k, str) and _key_is_sensitive(k)`. -/
def entryIsSensitive : PyKey → Bool
  | .str s => keyIsSensitive s
  | _ => false

/-- What becomes of an entry: the marker under a sensitive key, and else what the call for its value returns. -/
def scrubEntry (scrub : PyValue → Option PyValue) (entry : PyKey × PyValue) : Option (PyKey × PyValue) :=
  if entryIsSensitive entry.1 then some (entry.1, .str redacted) else (scrub entry.2).map fun v => (entry.1, v)

/-- `scrub`, where the stack has room for so many calls; `none` is a `RecursionError`. -/
def scrub : ℕ → PyValue → Option PyValue
  | 0, _ => none
  | room + 1, .dict ms => (ms.mapM (scrubEntry (scrub room))).map .dict
  | room + 1, .list vs => (vs.mapM (scrub room)).map .list
  | room + 1, .tuple vs => (vs.mapM (scrub room)).map .list
  | _ + 1, v => some v

/-! ### What it returns -/

mutual

/-- What `scrub` returns, if it does. -/
def scrubbed : PyValue → PyValue
  | .dict ms => .dict (scrubbedEntries ms)
  | .list vs => .list (scrubbedItems vs)
  | .tuple vs => .list (scrubbedItems vs)
  | .scalar s => .scalar s
  | .str s => .str s
  | .other truth encoded shown slice entries => .other truth encoded shown slice entries

/-- `scrubbed` of every item. -/
def scrubbedItems : List PyValue → List PyValue
  | [] => []
  | v :: vs => scrubbed v :: scrubbedItems vs

/-- `scrubbed` of every entry, where its key is not sensitive. -/
def scrubbedEntries : List (PyKey × PyValue) → List (PyKey × PyValue)
  | [] => []
  | (k, v) :: ms => (k, if entryIsSensitive k then .str redacted else scrubbed v) :: scrubbedEntries ms

end

mutual

/-- How many calls `scrub` is in at once. There is none for a value that is redacted. -/
def reach : PyValue → ℕ
  | .dict ms => reachEntries ms + 1
  | .list vs => reachItems vs + 1
  | .tuple vs => reachItems vs + 1
  | .scalar _ => 1
  | .str _ => 1
  | .other _ _ _ _ _ => 1

/-- The greatest `reach` of an item. -/
def reachItems : List PyValue → ℕ
  | [] => 0
  | v :: vs => max (reach v) (reachItems vs)

/-- The greatest `reach` of an entry whose key is not sensitive. -/
def reachEntries : List (PyKey × PyValue) → ℕ
  | [] => 0
  | (k, v) :: ms => max (if entryIsSensitive k then 0 else reach v) (reachEntries ms)

end

theorem reach_pos (v : PyValue) : 0 < reach v := by
  cases v <;> simp [reach]

section
variable {room : ℕ} (h : ∀ v, scrub room v = if reach v ≤ room then some (scrubbed v) else none)
include h

theorem mapM_scrub (vs : List PyValue) :
    vs.mapM (scrub room) = if reachItems vs ≤ room then some (scrubbedItems vs) else none := by
  induction vs with
  | nil => rw [reachItems, if_pos (Nat.zero_le _), scrubbedItems]; rfl
  | cons v vs ih =>
    rw [List.mapM_cons, h v, ih, reachItems, scrubbedItems]
    by_cases hfirst : reach v ≤ room
    · by_cases hrest : reachItems vs ≤ room
      · rw [if_pos hfirst, if_pos hrest, if_pos (Nat.max_le.mpr ⟨hfirst, hrest⟩)]
        rfl
      · rw [if_pos hfirst, if_neg hrest, if_neg fun hboth => hrest (Nat.max_le.mp hboth).2]
        rfl
    · rw [if_neg hfirst, if_neg fun hboth => hfirst (Nat.max_le.mp hboth).1]
      rfl

theorem mapM_scrubEntry (ms : List (PyKey × PyValue)) :
    ms.mapM (scrubEntry (scrub room)) = if reachEntries ms ≤ room then some (scrubbedEntries ms) else none := by
  induction ms with
  | nil => rw [reachEntries, if_pos (Nat.zero_le _), scrubbedEntries]; rfl
  | cons entry ms ih =>
    obtain ⟨k, v⟩ := entry
    have hentry : scrubEntry (scrub room) (k, v) = if (if entryIsSensitive k then 0 else reach v) ≤ room then
        some (k, if entryIsSensitive k then .str redacted else scrubbed v) else none := by
      unfold scrubEntry
      dsimp only
      split_ifs with hk hroom hroom
      · rfl
      · exact absurd (Nat.zero_le _) hroom
      · rw [h v, if_pos hroom, Option.map_some]
      · rw [h v, if_neg hroom, Option.map_none]
    rw [List.mapM_cons, hentry, ih, reachEntries, scrubbedEntries]
    by_cases hfirst : (if entryIsSensitive k then 0 else reach v) ≤ room
    · by_cases hrest : reachEntries ms ≤ room
      · rw [if_pos hfirst, if_pos hrest, if_pos (Nat.max_le.mpr ⟨hfirst, hrest⟩)]
        rfl
      · rw [if_pos hfirst, if_neg hrest, if_neg fun hboth => hrest (Nat.max_le.mp hboth).2]
        rfl
    · rw [if_neg hfirst, if_neg fun hboth => hfirst (Nat.max_le.mp hboth).1]
      rfl

end

/-- **`scrub` returns exactly if the stack has room for its calls.** -/
theorem scrub_eq (room : ℕ) (v : PyValue) :
    scrub room v = if reach v ≤ room then some (scrubbed v) else none := by
  induction room generalizing v with
  | zero => rw [scrub, if_neg (Nat.not_le_of_gt (reach_pos v))]
  | succ room ih =>
    cases v with
    | dict ms =>
      rw [scrub, mapM_scrubEntry ih, reach, scrubbed, apply_ite (Option.map PyValue.dict)]
      exact if_congr Nat.succ_le_succ_iff.symm rfl rfl
    | list vs =>
      rw [scrub, mapM_scrub ih, reach, scrubbed, apply_ite (Option.map PyValue.list)]
      exact if_congr Nat.succ_le_succ_iff.symm rfl rfl
    | tuple vs =>
      rw [scrub, mapM_scrub ih, reach, scrubbed, apply_ite (Option.map PyValue.list)]
      exact if_congr Nat.succ_le_succ_iff.symm rfl rfl
    | scalar s => rw [scrub, reach, scrubbed, if_pos (Nat.succ_le_succ (Nat.zero_le _))] <;> exact nofun
    | str s => rw [scrub, reach, scrubbed, if_pos (Nat.succ_le_succ (Nat.zero_le _))] <;> exact nofun
    | other truth encoded shown slice entries =>
      rw [scrub, reach, scrubbed, if_pos (Nat.succ_le_succ (Nat.zero_le _))] <;> exact nofun

mutual

/-- **What has been scrubbed stays as it is when it is scrubbed again.** -/
theorem scrubbed_scrubbed : ∀ v : PyValue, scrubbed (scrubbed v) = scrubbed v
  | .dict ms => by rw [scrubbed, scrubbed, scrubbedEntries_scrubbedEntries ms]
  | .list vs => by rw [scrubbed, scrubbed, scrubbedItems_scrubbedItems vs]
  | .tuple vs => by rw [scrubbed, scrubbed, scrubbedItems_scrubbedItems vs]
  | .scalar s => by rw [scrubbed, scrubbed]
  | .str s => by rw [scrubbed, scrubbed]
  | .other truth encoded shown slice entries => by rw [scrubbed, scrubbed]

theorem scrubbedItems_scrubbedItems : ∀ vs : List PyValue, scrubbedItems (scrubbedItems vs) = scrubbedItems vs
  | [] => by rw [scrubbedItems, scrubbedItems]
  | v :: vs => by rw [scrubbedItems, scrubbedItems, scrubbed_scrubbed v, scrubbedItems_scrubbedItems vs]

theorem scrubbedEntries_scrubbedEntries : ∀ ms : List (PyKey × PyValue),
    scrubbedEntries (scrubbedEntries ms) = scrubbedEntries ms
  | [] => by rw [scrubbedEntries, scrubbedEntries]
  | (k, v) :: ms => by
    rw [scrubbedEntries, scrubbedEntries, scrubbedEntries_scrubbedEntries ms]
    split_ifs with hk
    · rfl
    · rw [scrubbed_scrubbed v]

end

mutual

/-- A second time takes the same calls. -/
theorem reach_scrubbed : ∀ v : PyValue, reach (scrubbed v) = reach v
  | .dict ms => by rw [scrubbed, reach, reach, reachEntries_scrubbedEntries ms]
  | .list vs => by rw [scrubbed, reach, reach, reachItems_scrubbedItems vs]
  | .tuple vs => by rw [scrubbed, reach, reach, reachItems_scrubbedItems vs]
  | .scalar s => by rw [scrubbed]
  | .str s => by rw [scrubbed]
  | .other truth encoded shown slice entries => by rw [scrubbed]

theorem reachItems_scrubbedItems : ∀ vs : List PyValue, reachItems (scrubbedItems vs) = reachItems vs
  | [] => by rw [scrubbedItems]
  | v :: vs => by rw [scrubbedItems, reachItems, reachItems, reach_scrubbed v, reachItems_scrubbedItems vs]

theorem reachEntries_scrubbedEntries : ∀ ms : List (PyKey × PyValue),
    reachEntries (scrubbedEntries ms) = reachEntries ms
  | [] => by rw [scrubbedEntries]
  | (k, v) :: ms => by
    rw [scrubbedEntries, reachEntries, reachEntries, reachEntries_scrubbedEntries ms]
    split_ifs with hk
    · rfl
    · rw [reach_scrubbed v]

end

/-- What `scrub` returns. -/
theorem scrub_eq_some_iff {room : ℕ} {v w : PyValue} : scrub room v = some w ↔ reach v ≤ room ∧ scrubbed v = w := by
  rw [scrub_eq]
  split_ifs with h
  · simp [h]
  · simp [h]

end StratTrader.Audit
