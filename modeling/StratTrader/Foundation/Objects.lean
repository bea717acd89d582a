import StratTrader.Foundation.JsonText

/-!
# Python values that are given to be written as JSON

What `json.loads` returns for the text that `json.dumps` writes of a value.

## What is proved

* `PyValue.truthy_text`: a text counts as true exactly when it is not empty.
* `toJson_text`: a text comes back as itself.
* `mergeEntries_of_nodup`: the entries of two dictionaries put together, where no key is in both.
* `lookup_givenEntries`: a dictionary of what is given for some keys.

## Honest scope

An object of another kind is what Python and the encoder for such objects make of it where it is
asked. No container holds itself: how deep one may be is a matter of who writes it. Keys of a
`dict` that Python takes for equal are written alike here.
-/

namespace StratTrader.Foundation

/-- A key of a `dict`. -/
inductive PyKey where
  /-- A `str`. -/
  | str (s : String)
  /-- `None`, a `bool`, an `int` or a `float`. -/
  | scalar (s : JsonScalar)
  /-- An object of another kind. -/
  | other
  deriving DecidableEq

/-- A value. -/
inductive PyValue where
  /-- `None`, a `bool`, an `int` or a `float`. -/
  | scalar (s : JsonScalar)
  /-- A `str`. -/
  | str (s : String)
  /-- A `list`. -/
  | list (vs : List PyValue)
  /-- A `tuple`. -/
  | tuple (vs : List PyValue)
  /-- A `dict`: its entries in order. -/
  | dict (ms : List (PyKey × PyValue))
  /-- An object of another kind. `truth` is what `bool` says of it, `encoded` stands for it in a JSON
  text, `str` makes `shown` of it, `[:64]` makes `slice`, and `**` unpacks `entries`: each unless it raises. -/
  | other (truth : Option Bool) (encoded shown : Option String) (slice : Option PyValue)
      (entries : Option (List (PyKey × PyValue)))

/-- `None`. -/
def PyValue.none : PyValue := .scalar .null

/-- `bool` of a scalar. -/
def JsonScalar.truthy : JsonScalar → Bool
  | null => false
  | bool b => b
  | int n => decide (n ≠ 0)
  | float x => decide (x.text ∉ [['0', '.', '0'], ['-', '0', '.', '0']])

/-- `bool`, where it does not raise. -/
def PyValue.truthy : PyValue → Bool
  | scalar s => s.truthy
  | str s => decide (s ≠ "")
  | list vs => !vs.isEmpty
  | tuple vs => !vs.isEmpty
  | dict ms => !ms.isEmpty
  | other truth _ _ _ _ => truth.getD false

/-- `bool` does not raise. -/
def PyValue.hasTruth : PyValue → Bool
  | other truth _ _ _ _ => truth.isSome
  | _ => true

/-- What `**` unpacks; `none` if it raises. -/
def PyValue.entries? : PyValue → Option (List (PyKey × PyValue))
  | dict ms => some ms
  | other _ _ _ _ entries => entries
  | _ => Option.none

/-- A number is written: an `int` has no more than 4300 digits. -/
def JsonScalar.hasText : JsonScalar → Bool
  | int n => decide ((Nat.toDigits 10 n.natAbs).length ≤ 4300)
  | _ => true

/-- The entries after `d[k] = v`: a key that is there stays where it is. -/
def setEntry {α β : Type*} [DecidableEq α] (entries : List (α × β)) (entry : α × β) : List (α × β) :=
  if entry.1 ∈ entries.map Prod.fst then entries.map fun e => if e.1 = entry.1 then entry else e
  else entries ++ [entry]

/-- `{**first, **second}`. -/
def mergeEntries {α β : Type*} [DecidableEq α] (first second : List (α × β)) : List (α × β) :=
  second.foldl setEntry first

/-- The name of a member that is written for a key; `none` if it raises. -/
def PyKey.name : PyKey → Option String
  | str s => some s
  | scalar s => if s.hasText then some (String.ofList s.text) else Option.none
  | other => Option.none

mutual

/-- `json.loads(json.dumps(value))`; `none` if it raises. Objects of other kinds are written only where
the encoder `knows` them. -/
def toJson (knows : Bool) : PyValue → Option JsonValue
  | .scalar s => if s.hasText then some (.scalar s) else none
  | .str s => some (.string s)
  | .list vs => (toJsonItems knows vs).map .array
  | .tuple vs => (toJsonItems knows vs).map .array
  | .dict ms => (toJsonMembers knows ms).map fun members => .object (mergeEntries [] members)
  | .other _ encoded _ _ _ => if knows then encoded.map .string else none

/-- `toJson` of every item. -/
def toJsonItems (knows : Bool) : List PyValue → Option (List JsonValue)
  | [] => some []
  | v :: vs => do
    let first ← toJson knows v
    let rest ← toJsonItems knows vs
    return first :: rest

/-- `toJson` of every member. -/
def toJsonMembers (knows : Bool) : List (PyKey × PyValue) → Option (List (String × JsonValue))
  | [] => some []
  | (k, v) :: ms => do
    let name ← k.name
    let first ← toJson knows v
    let rest ← toJsonMembers knows ms
    return (name, first) :: rest

end

mutual

/-- How many values the encoder is in at once that hold others or are objects of other kinds. -/
def nesting : PyValue → ℕ
  | .scalar _ => 0
  | .str _ => 0
  | .list vs => nestingItems vs + 1
  | .tuple vs => nestingItems vs + 1
  | .dict ms => nestingEntries ms + 1
  | .other _ _ _ _ _ => 1

/-- The greatest `nesting` of an item. -/
def nestingItems : List PyValue → ℕ
  | [] => 0
  | v :: vs => max (nesting v) (nestingItems vs)

/-- The greatest `nesting` of an entry. -/
def nestingEntries : List (PyKey × PyValue) → ℕ
  | [] => 0
  | (_, v) :: ms => max (nesting v) (nestingEntries ms)

end

/-- The entries under those keys for which a value is given. -/
def givenEntries {α β : Type*} (entries : List (α × Option β)) : List (α × β) :=
  entries.filterMap fun (k, v) => v.map fun v => (k, v)

theorem keys_givenEntries {α β : Type*} (entries : List (α × Option β)) :
    ((givenEntries entries).map Prod.fst).Sublist (entries.map Prod.fst) := by
  induction entries with
  | nil => exact .slnil
  | cons first rest ih =>
    obtain ⟨k, v⟩ := first
    cases v with
    | none => exact ih.cons k
    | some v => exact ih.cons_cons k

section
variable {α β : Type*} [DecidableEq α]

/-- Entries under keys that are not there yet are added in their order. -/
theorem mergeEntries_of_nodup {first second : List (α × β)} (h : ((first ++ second).map Prod.fst).Nodup) :
    mergeEntries first second = first ++ second := by
  induction second generalizing first with
  | nil => exact (List.append_nil first).symm
  | cons entry second ih =>
    have hfresh : entry.1 ∉ first.map Prod.fst := fun hmem => by
      rw [List.map_append, List.map_cons] at h
      exact (List.nodup_append.mp h).2.2 _ hmem _ List.mem_cons_self rfl
    have hset : setEntry first entry = first ++ [entry] := if_neg hfresh
    have hsplit : first ++ entry :: second = first ++ [entry] ++ second := List.append_cons ..
    rw [hsplit] at h ⊢
    rw [← ih h, ← hset]
    rfl

/-- Under a key is what is given for it. -/
theorem lookup_givenEntries {entries : List (α × Option β)} (h : (entries.map Prod.fst).Nodup) (k : α) :
    (givenEntries entries).lookup k = (entries.lookup k).join := by
  induction entries with
  | nil => rfl
  | cons first rest ih =>
    obtain ⟨k', v⟩ := first
    obtain ⟨hfresh, hrest⟩ := List.nodup_cons.mp h
    rcases eq_or_ne k k' with rfl | hne
    · rw [List.lookup_cons_self, Option.join_some]
      cases v with
      | none =>
        change (givenEntries rest).lookup k = none
        rw [List.lookup_eq_none_iff]
        intro e he
        rw [bne_iff_ne]
        rintro rfl
        exact hfresh ((keys_givenEntries rest).subset (List.mem_map_of_mem he))
      | some v => exact List.lookup_cons_self
    · have htest : (k == k') = false := beq_eq_false_iff_ne.mpr hne
      rw [List.lookup_cons, htest]
      dsimp only
      rw [← ih hrest]
      cases v with
      | none => rfl
      | some v =>
        change ((k', v) :: givenEntries rest).lookup k = _
        rw [List.lookup_cons, htest]

end

theorem PyValue.truthy_text (s : String) : (PyValue.str s).truthy = true ↔ s ≠ "" := by
  simp [PyValue.truthy]

@[simp] theorem toJson_text (knows : Bool) (s : String) : toJson knows (.str s) = some (.string s) := by
  rw [toJson]

end StratTrader.Foundation
