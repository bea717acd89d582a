import StratTrader.Foundation.Table

/-!
# Rows written one after another

Rows that are written into a table with a unique key: behind them a key has the last row that was written with it,
and writing the same rows again changes nothing, though on the way each key goes through all of its rows again.
-/

namespace StratTrader.Foundation.Table

universe u v

variable {α : Type u} {κ : Type v} {key : α → κ} [DecidableEq κ]

/-- The table behind rows that are written one after another. -/
def putAll (t : Table key) (rows : List α) : Table key := rows.foldl put t

@[simp] theorem putAll_nil (t : Table key) : t.putAll [] = t := rfl

@[simp] theorem putAll_cons (t : Table key) (a : α) (rows : List α) : t.putAll (a :: rows) = (t.put a).putAll rows := rfl

/-- The row that was written last with a key. -/
def lastWith (key : α → κ) (rows : List α) (k : κ) : Option α := (rows.filter fun a => decide (key a = k)).getLast?

theorem lastWith_cons (a : α) (rows : List α) (k : κ) :
    lastWith key (a :: rows) k = (lastWith key rows k).or (if key a = k then some a else none) := by
  unfold lastWith
  by_cases hk : key a = k
  · rw [List.filter_cons_of_pos (by simpa using hk), if_pos hk, List.getLast?_cons]
    cases (rows.filter fun a => decide (key a = k)).getLast? <;> rfl
  · rw [List.filter_cons_of_neg (by simpa using hk), if_neg hk, Option.or_none]

/-- **A key has the last row** that was written with it, or the row that it had. -/
theorem find?_putAll (t : Table key) (rows : List α) (k : κ) :
    (t.putAll rows).find? k = (lastWith key rows k).or (t.find? k) := by
  induction rows generalizing t with
  | nil => rfl
  | cons a rows ih =>
    rw [putAll_cons, ih, find?_put, lastWith_cons, Option.or_assoc]
    by_cases hk : key a = k
    · rw [if_pos hk.symm, if_pos hk, Option.some_or]
    · rw [if_neg (Ne.symm hk), if_neg hk, Option.none_or]

theorem lastWith_eq_none {rows : List α} {k : κ} : lastWith key rows k = none ↔ ∀ a ∈ rows, key a ≠ k := by
  simp [lastWith]

theorem lastWith_isSome {rows : List α} {a : α} (ha : a ∈ rows) : (lastWith key rows (key a)).isSome = true := by
  rw [Option.isSome_iff_ne_none]
  exact fun h => lastWith_eq_none.mp h a ha rfl

/-! ### Tables that have the same rows -/

/-- A row with a known key leaves the keys as they are. -/
theorem keys_put_of_mem {t : Table key} {a : α} (h : (t.find? (key a)).isSome = true) :
    (t.put a).rows.map key = t.rows.map key := by
  obtain ⟨b, hb⟩ := Option.isSome_iff_exists.mp h
  obtain ⟨hmem, hkey⟩ := find?_eq_some.mp hb
  rw [rows_put_mem (List.mem_map.mpr ⟨b, hmem, hkey⟩), map_key_replaceRows]

theorem keys_putAll_of_mem {t : Table key} {rows : List α} (h : ∀ a ∈ rows, (t.find? (key a)).isSome = true) :
    (t.putAll rows).rows.map key = t.rows.map key := by
  induction rows generalizing t with
  | nil => rfl
  | cons a rows ih =>
    rw [putAll_cons, ih fun b hb => isSome_find?_put a (h b (List.mem_cons_of_mem a hb)),
      keys_put_of_mem (h a List.mem_cons_self)]

/-- Tables with the same keys, in the same order, and the same row for each of them, are the same. -/
theorem eq_of_find? {t t' : Table key} (hkeys : t.rows.map key = t'.rows.map key)
    (hfind : ∀ k ∈ t.rows.map key, t.find? k = t'.find? k) : t = t' := by
  have hlength : t.rows.length = t'.rows.length := by
    rw [← List.length_map key, hkeys, List.length_map]
  refine Table.ext (List.ext_getElem hlength fun i hi hi' => ?_)
  have hkey : key t.rows[i] = key t'.rows[i] := by
    have hget := congrArg (fun l : List κ => l[i]?) hkeys
    simpa [hi, hi'] using hget
  have hrow := hfind (key t.rows[i]) (List.mem_map_of_mem (List.getElem_mem hi))
  rw [find?_of_mem (List.getElem_mem hi), hkey, find?_of_mem (List.getElem_mem hi')] at hrow
  exact Option.some.inj hrow

/-- **Writing the same rows again** changes nothing. -/
theorem putAll_putAll (t : Table key) (rows : List α) : (t.putAll rows).putAll rows = t.putAll rows := by
  have hknown : ∀ a ∈ rows, ((t.putAll rows).find? (key a)).isSome = true := by
    intro a ha
    rw [find?_putAll, Option.isSome_or, lastWith_isSome ha, Bool.true_or]
  refine eq_of_find? (keys_putAll_of_mem hknown) fun k _ => ?_
  rw [find?_putAll (t.putAll rows), find?_putAll t]
  cases lastWith key rows k <;> rfl

/-! ### How many rows are new -/

/-- A new row makes the table longer by one, a known one does not. -/
theorem length_put (t : Table key) (a : α) :
    (t.put a).rows.length = t.rows.length + if (t.find? (key a)).isSome = true then 0 else 1 := by
  split_ifs with h
  · rw [← List.length_map key, keys_put_of_mem h, List.length_map, Nat.add_zero]
  · rw [rows_put_new (Option.not_isSome_iff_eq_none.mp h), List.length_append, List.length_singleton]

end StratTrader.Foundation.Table
