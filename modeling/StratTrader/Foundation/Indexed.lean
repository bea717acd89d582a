import StratTrader.Foundation.Table

/-!
# Tables with a partial unique index

A table of which the rows that satisfy a condition are at most one. The index is a field, so no
table breaks it; a write of a row that would is refused, which is what the database does with an
exception.

## What is proved

* `find?_of_write`: a write that is not refused is one of the table.
* `isSome_write`: a write is refused only for a row that is indexed, and only for another one that is.
* `find?_update`, `find?_remove`: an update of all rows, and a deletion.
-/

namespace StratTrader.Foundation

universe u v

variable {α : Type u} {κ : Type v} {key : α → κ} {indexed : α → Bool}

/-- A table with at most one row that is indexed. -/
structure Indexed (key : α → κ) (indexed : α → Bool) extends Table key where
  /-- The index. -/
  single : ∀ a ∈ rows, ∀ b ∈ rows, indexed a = true → indexed b = true → key a = key b

namespace Indexed

/-- The table without rows. -/
def empty : Indexed key indexed := ⟨Table.empty, fun _ h => nomatch h⟩

/-- The rows that are left when some are deleted. -/
def remove (t : Indexed key indexed) (p : α → Bool) : Indexed key indexed where
  rows := t.rows.filter fun a => !p a
  nodup := t.nodup.sublist (List.filter_sublist.map key)
  single a ha b hb := t.single a (List.mem_filter.mp ha).1 b (List.mem_filter.mp hb).1

/-- An update that leaves the keys alone and lets no row into the index. -/
def update (t : Indexed key indexed) (f : α → α) (hkey : ∀ a, key (f a) = key a)
    (hindexed : ∀ a, indexed (f a) = true → indexed a = true) : Indexed key indexed where
  toTable := t.mapRows f hkey
  single := by
    intro a ha b hb ha' hb'
    obtain ⟨c, hc, rfl⟩ := List.mem_map.mp ha
    obtain ⟨d, hd, rfl⟩ := List.mem_map.mp hb
    rw [hkey, hkey]
    exact t.single c hc d hd (hindexed c ha') (hindexed d hb')

variable [DecidableEq κ]

/-- A write of a row, which is refused if the index would have two. -/
def write (t : Indexed key indexed) (a : α) : Option (Indexed key indexed) :=
  if h : indexed a = true → ∀ b ∈ t.rows, indexed b = true → key b = key a then
    some
      { toTable := t.put a
        single := by
          intro b hb c hc hb' hc'
          rcases Table.mem_put.mp hb with hba | ⟨hbmem, -⟩
          · rcases Table.mem_put.mp hc with hca | ⟨hcmem, -⟩
            · rw [hba, hca]
            · rw [hba] at hb' ⊢
              exact (h hb' c hcmem hc').symm
          · rcases Table.mem_put.mp hc with hca | ⟨hcmem, -⟩
            · rw [hca] at hc' ⊢
              exact h hc' b hbmem hb'
            · exact t.single b hbmem c hcmem hb' hc' }
  else none

variable {t t' : Indexed key indexed} {a : α}

/-- The row that is indexed is found by its key. -/
theorem key_eq {j k : κ} {b : α} (ha : t.find? j = some a) (hb : t.find? k = some b) (ha' : indexed a = true)
    (hb' : indexed b = true) : j = k := by
  have hsingle := t.single a (Table.mem_of_find? ha) b (Table.mem_of_find? hb) ha' hb'
  rwa [Table.key_of_find? ha, Table.key_of_find? hb] at hsingle

theorem find?_of_write (h : t.write a = some t') (k : κ) :
    t'.find? k = if k = key a then some a else t.find? k := by
  unfold write at h
  split_ifs at h
  cases h
  exact Table.find?_put t.toTable a k

/-- A write that is not refused leaves no other row in the index. -/
theorem not_indexed_of_write (h : t.write a = some t') (ha : indexed a = true) {k : κ} {b : α}
    (hb : t.find? k = some b) (hk : k ≠ key a) : indexed b = false := by
  unfold write at h
  split_ifs at h with hall
  rw [← Bool.not_eq_true]
  intro hb'
  have hkey := hall ha b (Table.mem_of_find? hb) hb'
  rw [Table.key_of_find? hb] at hkey
  exact hk hkey

/-- A write is refused only for another row that is indexed. -/
theorem isSome_write (h : indexed a = true → ∀ k b, t.find? k = some b → indexed b = true → k = key a) :
    ∃ t', t.write a = some t' := by
  unfold write
  rw [dif_pos fun ha b hb hb' => h ha _ b (Table.find?_of_mem hb) hb']
  exact ⟨_, rfl⟩

theorem find?_update {f : α → α} (hkey : ∀ a, key (f a) = key a)
    (hindexed : ∀ a, indexed (f a) = true → indexed a = true) (k : κ) :
    (t.update f hkey hindexed).find? k = (t.find? k).map f := Table.find?_mapRows t.toTable f hkey k

/-- What is left of a deletion was there before. -/
theorem find?_of_remove {p : α → Bool} {k : κ} (h : (t.remove p).find? k = some a) : t.find? k = some a := by
  obtain ⟨hmem, hkey⟩ := Table.find?_eq_some.mp h
  exact Table.find?_eq_some.mpr ⟨(List.mem_filter.mp hmem).1, hkey⟩

/-- A row that is not deleted is left. -/
theorem find?_remove {p : α → Bool} {k : κ} (h : t.find? k = some a) (hp : p a = false) :
    (t.remove p).find? k = some a := by
  obtain ⟨hmem, hkey⟩ := Table.find?_eq_some.mp h
  refine Table.find?_eq_some.mpr ⟨List.mem_filter.mpr ⟨hmem, ?_⟩, hkey⟩
  rw [hp]
  rfl

end Indexed

end StratTrader.Foundation
