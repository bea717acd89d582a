import Mathlib.Data.List.Nodup

/-!
# Tables with a unique key

A database table as the list of its rows, in the order of the primary key, in
which no two rows have the same unique key. The uniqueness is a field, so a table
that breaks its constraint cannot be built, and every operation carries the proof
that it keeps the constraint.

A row is written with `put`: it replaces the row with the same key, or is added
when there is none. An `UPDATE` of the row with a given key is `modify`, and an
`UPDATE` of all rows that leaves the keys alone is `mapRows`. What an operation
does is stated through `find?`, and that is all the later proofs use.
-/

namespace StratTrader.Foundation

universe u v

/-- A table: its rows, no two with the same key. -/
@[ext]
structure Table {α : Type u} {κ : Type v} (key : α → κ) where
  /-- The rows. -/
  rows : List α
  /-- The unique constraint. -/
  nodup : (rows.map key).Nodup

namespace Table

variable {α : Type u} {κ : Type v} {key : α → κ}

/-- The table without rows. -/
def empty : Table key := ⟨[], List.nodup_nil⟩

variable [DecidableEq κ]

/-- The row with key `k`. -/
def find? (t : Table key) (k : κ) : Option α := t.rows.find? fun a => decide (key a = k)

@[simp] theorem find?_empty (k : κ) : (empty : Table key).find? k = none := rfl

theorem key_of_find? {t : Table key} {k : κ} {a : α} (h : t.find? k = some a) : key a = k := by
  simpa using List.find?_some h

theorem mem_of_find? {t : Table key} {k : κ} {a : α} (h : t.find? k = some a) : a ∈ t.rows :=
  List.mem_of_find?_eq_some h

theorem find?_eq_none {t : Table key} {k : κ} : t.find? k = none ↔ ∀ a ∈ t.rows, key a ≠ k := by
  simp [find?]

/-- The row found by its own key is the row itself: keys are unique. -/
theorem find?_of_mem {t : Table key} {a : α} (h : a ∈ t.rows) : t.find? (key a) = some a := by
  cases hf : t.find? (key a) with
  | none => exact absurd rfl (find?_eq_none.mp hf a h)
  | some b =>
    have hb := mem_of_find? hf
    rw [List.inj_on_of_nodup_map t.nodup hb h (key_of_find? hf)]

theorem find?_eq_some {t : Table key} {k : κ} {a : α} :
    t.find? k = some a ↔ a ∈ t.rows ∧ key a = k := by
  constructor
  · exact fun h => ⟨mem_of_find? h, key_of_find? h⟩
  · rintro ⟨h, rfl⟩
    exact find?_of_mem h

/-! ### Writing a row -/

/-- The rows with the row of `a`'s key replaced by `a`. -/
def replaceRows (key : α → κ) (rows : List α) (a : α) : List α :=
  rows.map fun b => if key b = key a then a else b

theorem map_key_replaceRows (rows : List α) (a : α) :
    (replaceRows key rows a).map key = rows.map key := by
  simp only [replaceRows, List.map_map]
  apply List.map_congr_left
  intro b _
  by_cases h : key b = key a <;> simp [h]

/-- Write the row `a`: in place of the row with its key, or as a new row. -/
def put (t : Table key) (a : α) : Table key :=
  if h : key a ∈ t.rows.map key then
    ⟨replaceRows key t.rows a, by rw [map_key_replaceRows]; exact t.nodup⟩
  else
    ⟨t.rows ++ [a], by
      rw [List.map_append, List.nodup_append]
      refine ⟨t.nodup, by simp, ?_⟩
      intro x hx y hy
      rw [List.map_singleton, List.mem_singleton] at hy
      exact fun e => h (hy ▸ e ▸ hx)⟩

/-- The rows after a write: the new row, and the old rows of the other keys. -/
theorem mem_put {t : Table key} {a b : α} :
    b ∈ (t.put a).rows ↔ b = a ∨ (b ∈ t.rows ∧ key b ≠ key a) := by
  unfold put
  split_ifs with h
  · obtain ⟨c, hc, hk⟩ := List.mem_map.mp h
    constructor
    · intro hb
      obtain ⟨d, hd, rfl⟩ := List.mem_map.mp hb
      by_cases hda : key d = key a <;> simp [hda, hd]
    · rintro (rfl | ⟨hb, hba⟩)
      · exact List.mem_map.mpr ⟨c, hc, by simp [hk]⟩
      · exact List.mem_map.mpr ⟨b, hb, by simp [hba]⟩
  · constructor
    · intro hb
      rcases List.mem_append.mp hb with hb | hb
      · exact Or.inr ⟨hb, fun e => h (List.mem_map.mpr ⟨b, hb, e⟩)⟩
      · exact Or.inl (List.mem_singleton.mp hb)
    · rintro (rfl | ⟨hb, -⟩)
      · exact List.mem_append_right _ List.mem_cons_self
      · exact List.mem_append_left _ hb

theorem find?_put (t : Table key) (a : α) (k : κ) :
    (t.put a).find? k = if k = key a then some a else t.find? k := by
  split_ifs with hk
  · subst hk
    exact find?_of_mem (mem_put.mpr (Or.inl rfl))
  · cases hf : t.find? k with
    | none =>
      refine find?_eq_none.mpr fun b hb => ?_
      rcases mem_put.mp hb with rfl | ⟨hb, -⟩
      · exact fun e => hk e.symm
      · exact find?_eq_none.mp hf b hb
    | some b =>
      obtain ⟨hb, rfl⟩ := find?_eq_some.mp hf
      exact find?_of_mem (mem_put.mpr (Or.inr ⟨hb, hk⟩))

@[simp] theorem find?_put_self (t : Table key) (a : α) : (t.put a).find? (key a) = some a := by
  simp [find?_put]

/-- A new row is added at the end. -/
theorem rows_put_new {t : Table key} {a : α} (h : t.find? (key a) = none) :
    (t.put a).rows = t.rows ++ [a] := by
  have hn : key a ∉ t.rows.map key := by
    intro hm
    obtain ⟨b, hb, e⟩ := List.mem_map.mp hm
    exact find?_eq_none.mp h b hb e
  unfold put
  rw [dif_neg hn]

/-- A row with a known key is written in place. -/
theorem rows_put_mem {t : Table key} {a : α} (h : key a ∈ t.rows.map key) :
    (t.put a).rows = replaceRows key t.rows a := by
  unfold put
  rw [dif_pos h]

/-- A write never removes a key. -/
theorem isSome_find?_put {t : Table key} {k : κ} (a : α) (h : (t.find? k).isSome) :
    ((t.put a).find? k).isSome := by
  rw [find?_put]
  split_ifs
  · rfl
  · exact h

/-- The table without the row of a key. -/
def erase (t : Table key) (k : κ) : Table key where
  rows := t.rows.filter fun a => decide (key a ≠ k)
  nodup := t.nodup.sublist (List.filter_sublist.map key)

theorem find?_erase (t : Table key) (k j : κ) : (t.erase k).find? j = if j = k then none else t.find? j := by
  split_ifs with hj
  · refine find?_eq_none.mpr fun a ha hkey => ?_
    have hne := of_decide_eq_true (List.mem_filter.mp ha).2
    exact hne (hkey.trans hj)
  · cases hfind : t.find? j with
    | none => exact find?_eq_none.mpr fun a ha => find?_eq_none.mp hfind a (List.mem_filter.mp ha).1
    | some a =>
      obtain ⟨hmem, hkey⟩ := find?_eq_some.mp hfind
      have hne : key a ≠ k := fun h => hj (hkey.symm.trans h)
      exact find?_eq_some.mpr ⟨List.mem_filter.mpr ⟨hmem, decide_eq_true hne⟩, hkey⟩

/-- `UPDATE … WHERE key = k`. -/
def modify (t : Table key) (k : κ) (f : α → α) : Table key :=
  match t.find? k with
  | none => t
  | some a => t.put (f a)

theorem find?_modify (t : Table key) (k : κ) {f : α → α} (hf : ∀ a, key (f a) = key a) (j : κ) :
    (t.modify k f).find? j = if j = k then (t.find? k).map f else t.find? j := by
  unfold modify
  cases h : t.find? k with
  | none =>
    split_ifs with hj
    · rw [hj, h, Option.map_none]
    · rfl
  | some a => simp only [find?_put, hf, key_of_find? h, Option.map_some]

/-- An update changes the rows with the key, where they are. -/
theorem rows_modify (t : Table key) (k : κ) {f : α → α} (hf : ∀ a, key (f a) = key a) :
    (t.modify k f).rows = t.rows.map fun b => if key b = k then f b else b := by
  unfold modify
  cases h : t.find? k with
  | none =>
    have hnone := find?_eq_none.mp h
    rw [← List.map_id t.rows, List.map_map]
    exact List.map_congr_left fun b hb => by simp [hnone b hb]
  | some a =>
    obtain ⟨ha, hk⟩ := find?_eq_some.mp h
    dsimp only
    rw [rows_put_mem (List.mem_map.mpr ⟨a, ha, (hf a).symm⟩), replaceRows]
    refine List.map_congr_left fun b hb => ?_
    by_cases hkey : key b = k
    · -- a key has one row
      have hsome : t.find? k = some b := by rw [← hkey, find?_of_mem hb]
      have hba : b = a := by simpa [h] using hsome.symm
      simp [hba, hf, hk]
    · simp [hf, hk, hkey]

theorem isSome_find?_modify (t : Table key) (k : κ) (f : α → α) {j : κ} (h : (t.find? j).isSome) :
    ((t.modify k f).find? j).isSome := by
  unfold modify
  split
  · exact h
  · exact isSome_find?_put _ h

/-! ### Updating every row -/

/-- An update of every row that leaves the keys alone. -/
def mapRows (t : Table key) (f : α → α) (hf : ∀ a, key (f a) = key a) : Table key :=
  ⟨t.rows.map f, by
    rw [List.map_map, show key ∘ f = key from funext hf]
    exact t.nodup⟩

theorem find?_mapRows (t : Table key) (f : α → α) (hf : ∀ a, key (f a) = key a) (k : κ) :
    (t.mapRows f hf).find? k = (t.find? k).map f := by
  cases h : t.find? k with
  | none =>
    refine find?_eq_none.mpr fun b hb => ?_
    obtain ⟨a, ha, rfl⟩ := List.mem_map.mp hb
    rw [hf]
    exact find?_eq_none.mp h a ha
  | some a =>
    obtain ⟨ha, rfl⟩ := find?_eq_some.mp h
    rw [Option.map_some, ← hf a]
    exact find?_of_mem (List.mem_map_of_mem ha)

omit [DecidableEq κ] in
theorem mapRows_eq_self {t : Table key} {f : α → α} (hf : ∀ a, key (f a) = key a) (h : ∀ a ∈ t.rows, f a = a) :
    t.mapRows f hf = t := by
  have hrows : t.rows.map f = t.rows := (List.map_congr_left h).trans (List.map_id _)
  unfold mapRows
  simp only [hrows]

/-! ### Updating rows one after the other -/

/-- A loop that writes the row of one key at a time, no key twice, writes each of these rows
once, over what was there before the loop, and leaves the other rows alone. -/
theorem find?_foldl {σ β : Type*} (table : σ → Table key) {step : σ → β → σ} {k : β → κ}
    {f : β → Option α → Option α} (hstep : ∀ s b j, (table (step s b)).find? j =
      if j = k b then f b ((table s).find? j) else (table s).find? j)
    {bs : List β} (hnd : (bs.map k).Nodup) (s : σ) :
    (∀ b ∈ bs, (table (bs.foldl step s)).find? (k b) = f b ((table s).find? (k b))) ∧
    ∀ j ∉ bs.map k, (table (bs.foldl step s)).find? j = (table s).find? j := by
  induction bs generalizing s with
  | nil => exact ⟨fun b hb => absurd hb List.not_mem_nil, fun j _ => rfl⟩
  | cons c bs ih =>
    rw [List.map_cons, List.nodup_cons] at hnd
    obtain ⟨heach, hrest⟩ := ih hnd.2 (step s c)
    constructor
    · intro b hb
      rw [List.foldl_cons]
      rcases List.mem_cons.mp hb with rfl | hb
      · rw [hrest _ hnd.1, hstep, if_pos rfl]
      · have hne : k b ≠ k c := fun e => hnd.1 (e ▸ List.mem_map_of_mem hb)
        rw [heach b hb, hstep, if_neg hne]
    · intro j hj
      rw [List.map_cons, List.mem_cons, not_or] at hj
      rw [List.foldl_cons, hrest j hj.2, hstep, if_neg hj.1]

/-- A loop over keys without repetition, seen through what one of the keys is about: only the turn of
that key counts. -/
theorem foldl_view {σ β ι : Type*} [DecidableEq ι] {step : σ → ι → σ} {view : σ → β} {g : β → β} {i : ι}
    (hother : ∀ s j, j ≠ i → view (step s j) = view s) (hself : ∀ s, view (step s i) = g (view s))
    {is : List ι} (hnd : is.Nodup) (s : σ) :
    view (is.foldl step s) = if i ∈ is then g (view s) else view s := by
  induction is generalizing s with
  | nil => rfl
  | cons j js ih =>
    rw [List.nodup_cons] at hnd
    rw [List.foldl_cons, ih hnd.2]
    by_cases hj : j = i
    · subst hj
      rw [if_neg hnd.1, hself, if_pos List.mem_cons_self]
    · rw [hother s j hj]
      simp only [List.mem_cons, Ne.symm hj, false_or]

/-! ### What becomes of every row -/

/-- Every row of `t` has in `t'` a row of the same key that is related to it by `P`. -/
def Kept (P : α → α → Prop) (t t' : Table key) : Prop :=
  ∀ k a, t.find? k = some a → ∃ b, t'.find? k = some b ∧ P a b

variable {P : α → α → Prop}

theorem Kept.refl (hP : ∀ a, P a a) (t : Table key) : Kept P t t :=
  fun _ a ha => ⟨a, ha, hP a⟩

theorem Kept.trans (hP : ∀ a b c, P a b → P b c → P a c) {t t' t'' : Table key} (h : Kept P t t')
    (h' : Kept P t' t'') : Kept P t t'' := by
  intro k a ha
  obtain ⟨b, hb, hab⟩ := h k a ha
  obtain ⟨c, hc, hbc⟩ := h' k b hb
  exact ⟨c, hc, hP a b c hab hbc⟩

/-- Writing one row keeps every row, if that row is related to the one it replaces. -/
theorem Kept.put (hP : ∀ a, P a a) {t : Table key} {a b : α} (ha : t.find? (key a) = some a)
    (hk : key b = key a) (hab : P a b) : Kept P t (t.put b) := by
  intro k c hc
  rw [find?_put, hk]
  split_ifs with h
  · rw [h, ha] at hc
    exact ⟨b, rfl, Option.some.inj hc ▸ hab⟩
  · exact ⟨c, hc, hP c⟩

theorem Kept.modify (hP : ∀ a, P a a) {t : Table key} {k : κ} {f : α → α}
    (hf : ∀ a, key (f a) = key a) (h : ∀ a, t.find? k = some a → P a (f a)) :
    Kept P t (t.modify k f) := by
  intro j a ha
  rw [find?_modify t k hf]
  split_ifs with hj
  · rw [hj] at ha
    exact ⟨f a, by rw [ha, Option.map_some], h a ha⟩
  · exact ⟨a, ha, hP a⟩

end Table

end StratTrader.Foundation
