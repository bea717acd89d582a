import StratTrader.Foundation.Objects

/-!
# Python values by reference

The containers of a value stand in the cells of a heap, and a variable has the address of one. A container is made in
a cell of its own, and changed where it stands. A place in a value is named by the keys and positions on the way to it.

## What is proved

* `Holds.mono`: a variable holds the same value in every heap that has the same cells.
* `getElem?_behind`: what is behind a cell does not change with the cell.
* `PyValue.get?_append`: what stands at a place is found step by step.

## Honest scope

A value that cannot be changed has no cell, and nor has an object of another kind. No cell is taken away.
-/

namespace StratTrader.Foundation

/-! ### Cells -/

/-- A value that is no container. -/
inductive PyAtom where
  /-- `None`, a `bool`, an `int` or a `float`. -/
  | scalar (s : JsonScalar)
  /-- A `str`. -/
  | str (s : String)
  /-- An object of another kind. -/
  | other (truth : Option Bool) (encoded shown : Option String) (slice : Option PyValue)
      (entries : Option (List (PyKey × PyValue)))

/-- The value. -/
def PyAtom.value : PyAtom → PyValue
  | scalar s => .scalar s
  | str s => .str s
  | other truth encoded shown slice entries => .other truth encoded shown slice entries

/-- What a variable has. -/
inductive PyWord where
  /-- A value that is no container. -/
  | atom (a : PyAtom)
  /-- The address of a container. -/
  | ref (address : ℕ)

/-- A container. -/
inductive PyCell where
  /-- A `dict`: its entries in order, each key once. -/
  | dict (entries : List (PyKey × PyWord)) (nodup : (entries.map Prod.fst).Nodup)
  /-- A `list`. -/
  | list (items : List PyWord)
  /-- A `tuple`. -/
  | tuple (items : List PyWord)

/-- The cells, by their addresses. -/
abbrev PyHeap := List PyCell

theorem nodup_setEntry {α β : Type*} [DecidableEq α] {entries : List (α × β)} (h : (entries.map Prod.fst).Nodup)
    (entry : α × β) : ((setEntry entries entry).map Prod.fst).Nodup := by
  unfold setEntry
  split_ifs with hkey
  · have hkeys : (entries.map fun e => if e.1 = entry.1 then entry else e).map Prod.fst = entries.map Prod.fst := by
      rw [List.map_map]
      refine List.map_congr_left fun e _ => ?_
      rw [Function.comp_apply]
      split_ifs with hsame
      · exact hsame.symm
      · rfl
    rw [hkeys]
    exact h
  · rw [List.map_append, List.map_singleton, ← List.concat_eq_append, List.nodup_concat]
    exact ⟨hkey, h⟩

theorem setEntry_of_not_mem {α β : Type*} [DecidableEq α] {entries : List (α × β)} {entry : α × β}
    (h : entry.1 ∉ entries.map Prod.fst) : setEntry entries entry = entries ++ [entry] := if_neg h

/-- `{}`. -/
def PyCell.emptyDict : PyCell := .dict [] List.nodup_nil

/-- `d[k] = v`. -/
def PyCell.setItem (key : PyKey) (word : PyWord) : PyCell → PyCell
  | dict entries nodup => dict (setEntry entries (key, word)) (nodup_setEntry nodup (key, word))
  | list items => list items
  | tuple items => tuple items

/-- `l.append(v)`. -/
def PyCell.append (word : PyWord) : PyCell → PyCell
  | dict entries nodup => dict entries nodup
  | list items => list (items ++ [word])
  | tuple items => tuple items

/-! ### What a variable holds -/

mutual

/-- A variable holds a value, whose containers stand in cells from `lo` on. -/
inductive Holds (heap : PyHeap) (lo : ℕ) : PyWord → PyValue → Prop
  /-- A value that is no container. -/
  | atom (a : PyAtom) : Holds heap lo (.atom a) a.value
  /-- A `dict`. -/
  | dict {address : ℕ} {entries : List (PyKey × PyWord)} {nodup : (entries.map Prod.fst).Nodup}
      {ms : List (PyKey × PyValue)} (hlo : lo ≤ address) (hcell : heap[address]? = some (.dict entries nodup))
      (hentries : HoldsEntries heap lo entries ms) : Holds heap lo (.ref address) (.dict ms)
  /-- A `list`. -/
  | list {address : ℕ} {items : List PyWord} {vs : List PyValue} (hlo : lo ≤ address)
      (hcell : heap[address]? = some (.list items)) (hitems : HoldsItems heap lo items vs) :
      Holds heap lo (.ref address) (.list vs)
  /-- A `tuple`. -/
  | tuple {address : ℕ} {items : List PyWord} {vs : List PyValue} (hlo : lo ≤ address)
      (hcell : heap[address]? = some (.tuple items)) (hitems : HoldsItems heap lo items vs) :
      Holds heap lo (.ref address) (.tuple vs)

/-- `Holds` of every item. -/
inductive HoldsItems (heap : PyHeap) (lo : ℕ) : List PyWord → List PyValue → Prop
  /-- There is none. -/
  | nil : HoldsItems heap lo [] []
  /-- One, and those behind it. -/
  | cons {word : PyWord} {v : PyValue} {items : List PyWord} {vs : List PyValue} (hfirst : Holds heap lo word v)
      (hrest : HoldsItems heap lo items vs) : HoldsItems heap lo (word :: items) (v :: vs)

/-- `Holds` of every entry. -/
inductive HoldsEntries (heap : PyHeap) (lo : ℕ) : List (PyKey × PyWord) → List (PyKey × PyValue) → Prop
  /-- There is none. -/
  | nil : HoldsEntries heap lo [] []
  /-- One, and those behind it. -/
  | cons (key : PyKey) {word : PyWord} {v : PyValue} {entries : List (PyKey × PyWord)} {ms : List (PyKey × PyValue)}
      (hfirst : Holds heap lo word v) (hrest : HoldsEntries heap lo entries ms) :
      HoldsEntries heap lo ((key, word) :: entries) ((key, v) :: ms)

end

section
variable {heap heap' : PyHeap} {lo lo' : ℕ}

mutual

/-- **A variable holds the same value in a heap that has the same cells.** -/
theorem Holds.mono (hcells : ∀ r cell, lo ≤ r → heap[r]? = some cell → heap'[r]? = some cell) (hlow : lo' ≤ lo) :
    ∀ {word : PyWord} {v : PyValue}, Holds heap lo word v → Holds heap' lo' word v
  | _, _, .atom a => .atom a
  | _, _, .dict hlo hcell hentries =>
    .dict (hlow.trans hlo) (hcells _ _ hlo hcell) (HoldsEntries.mono hcells hlow hentries)
  | _, _, .list hlo hcell hitems => .list (hlow.trans hlo) (hcells _ _ hlo hcell) (HoldsItems.mono hcells hlow hitems)
  | _, _, .tuple hlo hcell hitems => .tuple (hlow.trans hlo) (hcells _ _ hlo hcell) (HoldsItems.mono hcells hlow hitems)

theorem HoldsItems.mono (hcells : ∀ r cell, lo ≤ r → heap[r]? = some cell → heap'[r]? = some cell) (hlow : lo' ≤ lo) :
    ∀ {items : List PyWord} {vs : List PyValue}, HoldsItems heap lo items vs → HoldsItems heap' lo' items vs
  | _, _, .nil => .nil
  | _, _, .cons hfirst hrest => .cons (Holds.mono hcells hlow hfirst) (HoldsItems.mono hcells hlow hrest)

theorem HoldsEntries.mono (hcells : ∀ r cell, lo ≤ r → heap[r]? = some cell → heap'[r]? = some cell)
    (hlow : lo' ≤ lo) : ∀ {entries : List (PyKey × PyWord)} {ms : List (PyKey × PyValue)},
      HoldsEntries heap lo entries ms → HoldsEntries heap' lo' entries ms
  | _, _, .nil => .nil
  | _, _, .cons key hfirst hrest => .cons key (Holds.mono hcells hlow hfirst) (HoldsEntries.mono hcells hlow hrest)

end

/-- One more item, at the end. -/
theorem HoldsItems.concat {items : List PyWord} {vs : List PyValue} {word : PyWord} {v : PyValue}
    (h : HoldsItems heap lo items vs) (hlast : Holds heap lo word v) :
    HoldsItems heap lo (items ++ [word]) (vs ++ [v]) := by
  induction items generalizing vs with
  | nil =>
    cases h
    exact .cons hlast .nil
  | cons first items ih =>
    cases h with
    | cons hfirst hrest => exact .cons hfirst (ih hrest)

/-- One more entry, at the end. -/
theorem HoldsEntries.concat {entries : List (PyKey × PyWord)} {ms : List (PyKey × PyValue)} {word : PyWord}
    {v : PyValue} (h : HoldsEntries heap lo entries ms) (key : PyKey) (hlast : Holds heap lo word v) :
    HoldsEntries heap lo (entries ++ [(key, word)]) (ms ++ [(key, v)]) := by
  induction entries generalizing ms with
  | nil =>
    cases h
    exact .cons key hlast .nil
  | cons first entries ih =>
    cases h with
    | cons key hfirst hrest => exact .cons key hfirst (ih hrest)

/-! ### A cell that is changed -/

/-- What a heap has before a cell is what it has. -/
theorem getElem?_before {r : ℕ} {cell : PyCell} (h : heap[r]? = some cell) (fresh : PyHeap) :
    (heap ++ fresh)[r]? = some cell := by
  rw [List.getElem?_append_left (List.getElem?_eq_some_iff.mp h).1]
  exact h

/-- **What is behind a cell does not change with the cell.** -/
theorem getElem?_behind {cell cell' old : PyCell} {fresh : PyHeap} {r : ℕ} (hr : heap.length + 1 ≤ r)
    (h : (heap ++ cell :: fresh)[r]? = some old) (later : PyHeap) :
    (heap ++ cell' :: (fresh ++ later))[r]? = some old := by
  obtain ⟨k, rfl⟩ := Nat.exists_eq_add_of_le' hr
  rw [List.getElem?_append_right (by omega)] at h ⊢
  have hindex : k + (heap.length + 1) - heap.length = k + 1 := by omega
  rw [hindex, List.getElem?_cons_succ] at h ⊢
  exact getElem?_before h later

/-- A cell is changed where it stands. -/
theorem modify_cell (heap : PyHeap) (cell : PyCell) (fresh : PyHeap) (f : PyCell → PyCell) :
    (heap ++ cell :: fresh).modify heap.length f = heap ++ f cell :: fresh := by
  induction heap with
  | nil => rfl
  | cons first heap ih => rw [List.cons_append, List.length_cons, List.modify_succ_cons, ih, List.cons_append]

end

/-- A key that is new gets its entry at the end. -/
theorem setItem_of_not_mem {entries : List (PyKey × PyWord)} {nodup : (entries.map Prod.fst).Nodup} {key : PyKey}
    (h : key ∉ entries.map Prod.fst) (word : PyWord) :
    ∃ nodup', PyCell.setItem key word (.dict entries nodup) = .dict (entries ++ [(key, word)]) nodup' := by
  have hset : setEntry entries (key, word) = entries ++ [(key, word)] := setEntry_of_not_mem h
  have hnodup := nodup_setEntry nodup (key, word)
  rw [hset] at hnodup
  refine ⟨hnodup, ?_⟩
  simp only [PyCell.setItem, hset]

/-! ### Places -/

/-- A step to a place in a value. -/
inductive PyStep where
  /-- To the entry of a key. -/
  | entry (key : PyKey)
  /-- To the item at a position. -/
  | item (i : ℕ)
  deriving DecidableEq

namespace PyValue

/-- What stands there behind one step. -/
def child : PyValue → PyStep → Option PyValue
  | dict ms, .entry key => ms.lookup key
  | list vs, .item i => vs[i]?
  | tuple vs, .item i => vs[i]?
  | _, _ => Option.none

/-- What stands at a place. -/
def get? (v : PyValue) : List PyStep → Option PyValue
  | [] => some v
  | step :: path => (v.child step).bind fun v' => v'.get? path

/-- What stands at a place is found step by step. -/
theorem get?_append (v : PyValue) (path path' : List PyStep) :
    v.get? (path ++ path') = (v.get? path).bind fun v' => v'.get? path' := by
  induction path generalizing v with
  | nil => rfl
  | cons step path ih =>
    rw [List.cons_append, get?, get?, Option.bind_assoc]
    exact congrArg _ (funext ih)

/-- What can be seen of a value without a step. -/
inductive Outline where
  /-- A `dict` with these keys. -/
  | dict (keys : List PyKey)
  /-- A `list` with so many items. -/
  | list (length : ℕ)
  /-- A `tuple` with so many items. -/
  | tuple (length : ℕ)
  /-- A value that is no container. -/
  | atom (a : PyAtom)

/-- What can be seen of a value. -/
def outline : PyValue → Outline
  | scalar s => .atom (.scalar s)
  | str s => .atom (.str s)
  | list vs => .list vs.length
  | tuple vs => .tuple vs.length
  | dict ms => .dict (ms.map Prod.fst)
  | other truth encoded shown slice entries => .atom (.other truth encoded shown slice entries)

end PyValue

end StratTrader.Foundation
