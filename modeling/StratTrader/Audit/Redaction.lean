import StratTrader.Audit.Scrub
import StratTrader.Foundation.References
import Mathlib.Order.MinMax

/-!
# Redaction at every depth

`scrub` of `audit/scrub.py`, place by place, and as it runs over containers by reference: it makes a `dict` or `list`
of its own and puts entries or items into it.

## What is proved

* `get?_scrubbed`: on a way without a sensitive key stands what `scrub` makes of what stood there.
* `scrubRef_scrub`: the run raises where `scrub` does, and else it makes what `scrub` returns, in cells of its own, and
  leaves every cell as it was.
* `scrub_redacts`: `scrub` returns exactly where the stack has room for its calls. What it returns has the form and the
  leaves of the value, sensitive entries hold the marker, a second time changes nothing, and the run changes no cell of
  its caller.

## Honest scope

While a run goes on, nothing else does, so a loop goes through what its container has when it begins.
-/

namespace StratTrader.Audit

open StratTrader.Foundation

/-! ### The run -/

section
variable (scrub : PyWord → PyHeap → Option (PyWord × PyHeap)) (out : ℕ)

/-- A turn of the loop over `value.items()`, where `out` stands at an address. -/
def scrubEntryTo (heap : PyHeap) (entry : PyKey × PyWord) : Option PyHeap :=
  if entryIsSensitive entry.1 then some (heap.modify out (PyCell.setItem entry.1 (.atom (.str redacted))))
  else (scrub entry.2 heap).map fun (word, heap) => heap.modify out (PyCell.setItem entry.1 word)

/-- A turn of `[scrub(v) for v in value]`, whose list stands at an address. -/
def scrubItemTo (heap : PyHeap) (item : PyWord) : Option PyHeap :=
  (scrub item heap).map fun (word, heap) => heap.modify out (PyCell.append word)

end

/-- `scrub`, with so many calls on the stack at most. -/
def scrubRef : ℕ → PyWord → PyHeap → Option (PyWord × PyHeap)
  | 0, _, _ => none
  | _ + 1, .atom a, heap => some (.atom a, heap)
  | n + 1, .ref address, heap =>
    match heap[address]? with
    | some (.dict entries _) =>
      (entries.foldlM (scrubEntryTo (scrubRef n) heap.length) (heap ++ [.emptyDict])).map fun heap' =>
        (.ref heap.length, heap')
    | some (.list items) =>
      (items.foldlM (scrubItemTo (scrubRef n) heap.length) (heap ++ [.list []])).map fun heap' =>
        (.ref heap.length, heap')
    | some (.tuple items) =>
      (items.foldlM (scrubItemTo (scrubRef n) heap.length) (heap ++ [.list []])).map fun heap' =>
        (.ref heap.length, heap')
    | none => none

/-! ### Place by place -/

/-- The step is to an entry that is redacted. -/
def isRedacted : PyStep → Bool
  | .entry key => entryIsSensitive key
  | .item _ => false

/-- No step of a way is to an entry that is redacted. -/
def Unredacted (path : List PyStep) : Prop := ∀ step ∈ path, isRedacted step = false

/-- A tuple becomes a list. -/
def asList : PyValue.Outline → PyValue.Outline
  | .tuple length => .list length
  | outline => outline

theorem scrubbedItems_eq_map (vs : List PyValue) : scrubbedItems vs = vs.map scrubbed := by
  induction vs with
  | nil => rw [scrubbedItems, List.map_nil]
  | cons v vs ih => rw [scrubbedItems, ih, List.map_cons]

/-- What becomes of an entry. -/
def scrubbedEntry (entry : PyKey × PyValue) : PyKey × PyValue :=
  (entry.1, if entryIsSensitive entry.1 then .str redacted else scrubbed entry.2)

theorem scrubbedEntries_eq_map (ms : List (PyKey × PyValue)) : scrubbedEntries ms = ms.map scrubbedEntry := by
  induction ms with
  | nil => rw [scrubbedEntries, List.map_nil]
  | cons entry ms ih =>
    obtain ⟨key, v⟩ := entry
    rw [scrubbedEntries, ih, List.map_cons, scrubbedEntry]

theorem lookup_scrubbedEntries (ms : List (PyKey × PyValue)) (key : PyKey) :
    (scrubbedEntries ms).lookup key =
      (ms.lookup key).map fun v => if entryIsSensitive key then .str redacted else scrubbed v := by
  induction ms with
  | nil => rw [scrubbedEntries, List.lookup_nil, Option.map_none]
  | cons entry ms ih =>
    obtain ⟨key', v⟩ := entry
    rw [scrubbedEntries]
    rcases eq_or_ne key key' with rfl | hne
    · rw [List.lookup_cons_self, List.lookup_cons_self, Option.map_some]
    · have htest : (key == key') = false := beq_eq_false_iff_ne.mpr hne
      rw [List.lookup_cons, List.lookup_cons, htest]
      exact ih

/-- A step that is not redacted leads to what `scrubbed` makes of what it led to. -/
theorem child_scrubbed (v : PyValue) {step : PyStep} (h : isRedacted step = false) :
    (scrubbed v).child step = (v.child step).map scrubbed := by
  cases v with
  | scalar s => rw [scrubbed]; cases step <;> rfl
  | str s => rw [scrubbed]; cases step <;> rfl
  | other truth encoded shown slice entries => rw [scrubbed]; cases step <;> rfl
  | list vs =>
    rw [scrubbed]
    cases step with
    | entry key => rfl
    | item i => rw [PyValue.child, PyValue.child, scrubbedItems_eq_map, List.getElem?_map]
  | tuple vs =>
    rw [scrubbed]
    cases step with
    | entry key => rfl
    | item i => rw [PyValue.child, PyValue.child, scrubbedItems_eq_map, List.getElem?_map]
  | dict ms =>
    rw [scrubbed]
    cases step with
    | entry key =>
      have hkey : entryIsSensitive key = false := h
      rw [PyValue.child, PyValue.child, lookup_scrubbedEntries, hkey]
      rfl
    | item i => rfl

/-- A step that is redacted leads to the marker. -/
theorem child_scrubbed_redacted (v : PyValue) {key : PyKey} (h : entryIsSensitive key = true) :
    (scrubbed v).child (.entry key) = (v.child (.entry key)).map fun _ => .str redacted := by
  cases v with
  | dict ms =>
    rw [scrubbed, PyValue.child, PyValue.child, lookup_scrubbedEntries]
    simp only [h, if_true]
  | scalar s => rw [scrubbed]; rfl
  | str s => rw [scrubbed]; rfl
  | list vs => rw [scrubbed]; rfl
  | tuple vs => rw [scrubbed]; rfl
  | other truth encoded shown slice entries => rw [scrubbed]; rfl

/-- **On a way without a sensitive key stands what `scrubbed` makes of what stood there.** -/
theorem get?_scrubbed (v : PyValue) {path : List PyStep} (h : Unredacted path) :
    (scrubbed v).get? path = (v.get? path).map scrubbed := by
  induction path generalizing v with
  | nil => rfl
  | cons step path ih =>
    obtain ⟨hstep, hrest⟩ := List.forall_mem_cons.mp h
    rw [PyValue.get?, PyValue.get?, child_scrubbed v hstep]
    cases v.child step with
    | none => rfl
    | some v' => exact ih v' hrest

theorem outline_scrubbed (v : PyValue) : (scrubbed v).outline = asList v.outline := by
  cases v with
  | scalar s => rw [scrubbed]; rfl
  | str s => rw [scrubbed]; rfl
  | other truth encoded shown slice entries => rw [scrubbed]; rfl
  | list vs =>
    rw [scrubbed, PyValue.outline, PyValue.outline, scrubbedItems_eq_map, List.length_map]
    rfl
  | tuple vs =>
    rw [scrubbed, PyValue.outline, PyValue.outline, scrubbedItems_eq_map, List.length_map]
    rfl
  | dict ms =>
    have hkeys : Prod.fst ∘ scrubbedEntry = Prod.fst := rfl
    rw [scrubbed, PyValue.outline, PyValue.outline, scrubbedEntries_eq_map, List.map_map, hkeys]
    rfl

/-- What can be seen at a place that is not redacted is what could be seen there. -/
theorem outline_get?_scrubbed (v : PyValue) {path : List PyStep} (h : Unredacted path) :
    ((scrubbed v).get? path).map PyValue.outline = (v.get? path).map fun v' => asList v'.outline := by
  rw [get?_scrubbed v h, Option.map_map]
  exact congrArg (fun f => (v.get? path).map f) (funext outline_scrubbed)

/-- **A sensitive entry holds the marker**, wherever it stands. -/
theorem get?_scrubbed_redacted (v : PyValue) {path : List PyStep} (h : Unredacted path) {key : PyKey}
    (hkey : entryIsSensitive key = true) :
    (scrubbed v).get? (path ++ [.entry key]) = (v.get? (path ++ [.entry key])).map fun _ => .str redacted := by
  rw [PyValue.get?_append, PyValue.get?_append, get?_scrubbed v h]
  cases v.get? path with
  | none => rfl
  | some v' =>
    have hchild := child_scrubbed_redacted v' hkey
    simp only [Option.map_some, Option.bind_some, PyValue.get?, Option.bind_fun_some]
    exact hchild

/-! ### The run makes what `scrubbed` is -/

/-- With so many calls on the stack, a run makes of a value what `scrubbed` is, in cells of its own behind the others. -/
def Makes (n : ℕ) : Prop :=
  ∀ {heap : PyHeap} {word : PyWord} {v : PyValue}, Holds heap 0 word v → reach v ≤ n →
    ∃ word' fresh, scrubRef n word heap = some (word', heap ++ fresh) ∧
      Holds (heap ++ fresh) heap.length word' (scrubbed v)

section
variable {n : ℕ} {heap fresh : PyHeap}

/-- A call from a loop makes its value behind the cell of the loop, and does not depend on what is in that cell. -/
theorem Makes.inLoop (h : Makes n) {word : PyWord} {v : PyValue} (hheld : Holds heap 0 word v) (hdepth : reach v ≤ n)
    (cell : PyCell) (fresh : PyHeap) :
    ∃ word' later, scrubRef n word (heap ++ cell :: fresh) = some (word', heap ++ cell :: (fresh ++ later)) ∧
      ∀ cell', Holds (heap ++ cell' :: (fresh ++ later)) (heap.length + 1) word' (scrubbed v) := by
  have hheld' : Holds (heap ++ cell :: fresh) 0 word v :=
    hheld.mono (fun r old _ hold => getElem?_before hold (cell :: fresh)) le_rfl
  obtain ⟨word', later, hrun, hmade⟩ := h hheld' hdepth
  have hassoc : (heap ++ cell :: fresh) ++ later = heap ++ cell :: (fresh ++ later) := by
    rw [List.append_assoc, List.cons_append]
  have hbehind : heap.length + 1 ≤ (heap ++ cell :: fresh).length := by
    rw [List.length_append, List.length_cons]
    omega
  rw [hassoc] at hrun hmade
  refine ⟨word', later, hrun, fun cell' => hmade.mono (fun r old hr hold => ?_) hbehind⟩
  have hkept : (heap ++ cell' :: ((fresh ++ later) ++ []))[r]? = some old :=
    getElem?_behind (hbehind.trans hr) hold []
  rwa [List.append_nil] at hkept

/-- The loop over the items of a list makes a list of what `scrubbed` is of each. -/
theorem Makes.items (h : Makes n) {items : List PyWord} {vs : List PyValue} (hitems : HoldsItems heap 0 items vs)
    (hdepth : reachItems vs ≤ n) {done : List PyWord} {doneVs : List PyValue} {fresh : PyHeap}
    (hdone : HoldsItems (heap ++ .list done :: fresh) (heap.length + 1) done doneVs) :
    ∃ words fresh', items.foldlM (scrubItemTo (scrubRef n) heap.length) (heap ++ .list done :: fresh) =
        some (heap ++ .list words :: fresh') ∧
      HoldsItems (heap ++ .list words :: fresh') (heap.length + 1) words (doneVs ++ scrubbedItems vs) := by
  induction items generalizing vs done doneVs fresh with
  | nil =>
    cases hitems
    refine ⟨done, fresh, rfl, ?_⟩
    rw [scrubbedItems, List.append_nil]
    exact hdone
  | cons item items ih =>
    cases hitems with
    | @cons _ v _ vs hfirst hrest =>
      rw [reachItems, Nat.max_le] at hdepth
      obtain ⟨word', later, hrun, hmade⟩ := h.inLoop hfirst hdepth.1 (.list done) fresh
      have hturn : scrubItemTo (scrubRef n) heap.length (heap ++ .list done :: fresh) item =
          some (heap ++ .list (done ++ [word']) :: (fresh ++ later)) := by
        rw [scrubItemTo, hrun, Option.map_some]
        dsimp only
        rw [modify_cell, PyCell.append]
      have hkept : HoldsItems (heap ++ .list (done ++ [word']) :: (fresh ++ later)) (heap.length + 1) done doneVs :=
        hdone.mono (fun _ _ hr hold => getElem?_behind hr hold later) le_rfl
      obtain ⟨words, fresh', hloop, hall⟩ := ih hrest hdepth.2 (hkept.concat (hmade _))
      refine ⟨words, fresh', ?_, ?_⟩
      · rw [List.foldlM_cons, hturn]
        exact hloop
      · rw [List.append_assoc] at hall
        rw [scrubbedItems]
        exact hall

/-- The loop over the entries of a `dict` makes a `dict` of what becomes of each. -/
theorem Makes.entries (h : Makes n) {entries : List (PyKey × PyWord)} {ms : List (PyKey × PyValue)}
    (hentries : HoldsEntries heap 0 entries ms) (hdepth : reachEntries ms ≤ n)
    {done : List (PyKey × PyWord)} {doneMs : List (PyKey × PyValue)} {fresh : PyHeap}
    {nodup : (done.map Prod.fst).Nodup} (hnodup : (done.map Prod.fst ++ entries.map Prod.fst).Nodup)
    (hdone : HoldsEntries (heap ++ .dict done nodup :: fresh) (heap.length + 1) done doneMs) :
    ∃ words nodup' fresh', entries.foldlM (scrubEntryTo (scrubRef n) heap.length) (heap ++ .dict done nodup :: fresh) =
        some (heap ++ .dict words nodup' :: fresh') ∧
      HoldsEntries (heap ++ .dict words nodup' :: fresh') (heap.length + 1) words (doneMs ++ scrubbedEntries ms) := by
  induction entries generalizing ms done doneMs fresh with
  | nil =>
    cases hentries
    refine ⟨done, nodup, fresh, rfl, ?_⟩
    rw [scrubbedEntries, List.append_nil]
    exact hdone
  | cons entry entries ih =>
    cases hentries with
    | @cons key word v _ ms hfirst hrest =>
      rw [reachEntries, Nat.max_le] at hdepth
      have hnew : key ∉ done.map Prod.fst := fun hmem =>
        List.disjoint_of_nodup_append hnodup hmem List.mem_cons_self
      -- either way a word is put under the key, and more cells are made at most
      have hturn : ∃ word' later, scrubEntryTo (scrubRef n) heap.length (heap ++ .dict done nodup :: fresh) (key, word) =
            some ((heap ++ .dict done nodup :: (fresh ++ later)).modify heap.length (PyCell.setItem key word')) ∧
          ∀ cell', Holds (heap ++ cell' :: (fresh ++ later)) (heap.length + 1) word'
            (if entryIsSensitive key then .str redacted else scrubbed v) := by
        unfold scrubEntryTo
        dsimp only
        by_cases hkey : entryIsSensitive key = true
        · refine ⟨.atom (.str redacted), [], ?_, fun cell' => ?_⟩
          · rw [if_pos hkey, List.append_nil]
          · rw [if_pos hkey]
            exact .atom (.str redacted)
        · have hreach : reach v ≤ n := by
            have hle := hdepth.1
            rwa [if_neg hkey] at hle
          obtain ⟨word', later, hrun, hmade⟩ := h.inLoop hfirst hreach (.dict done nodup) fresh
          refine ⟨word', later, ?_, fun cell' => ?_⟩
          · rw [if_neg hkey, hrun, Option.map_some]
          · rw [if_neg hkey]
            exact hmade cell'
      obtain ⟨word', later, hturn, hmade⟩ := hturn
      obtain ⟨nodup', hset⟩ : ∃ nodup', PyCell.setItem key word' (.dict done nodup) =
          .dict (done ++ [(key, word')]) nodup' := setItem_of_not_mem hnew word'
      rw [modify_cell, hset] at hturn
      have hkept : HoldsEntries (heap ++ .dict (done ++ [(key, word')]) nodup' :: (fresh ++ later)) (heap.length + 1)
          done doneMs := hdone.mono (fun _ _ hr hold => getElem?_behind hr hold later) le_rfl
      have hkeys : ((done ++ [(key, word')]).map Prod.fst ++ entries.map Prod.fst).Nodup := by
        rw [List.map_append, List.append_assoc]
        exact hnodup
      obtain ⟨words, nodup'', fresh', hloop, hall⟩ := ih hrest hdepth.2 hkeys (hkept.concat key (hmade _))
      refine ⟨words, nodup'', fresh', ?_, ?_⟩
      · rw [List.foldlM_cons, hturn]
        exact hloop
      · rw [List.append_assoc] at hall
        rw [scrubbedEntries]
        exact hall

/-- A new list is made of the items. -/
theorem Makes.newList (h : Makes n) {items : List PyWord} {vs : List PyValue} (hitems : HoldsItems heap 0 items vs)
    (hdepth : reachItems vs ≤ n) :
    ∃ fresh, items.foldlM (scrubItemTo (scrubRef n) heap.length) (heap ++ [.list []]) = some (heap ++ fresh) ∧
      Holds (heap ++ fresh) heap.length (.ref heap.length) (.list (scrubbedItems vs)) := by
  have hempty : HoldsItems (heap ++ [.list []]) (heap.length + 1) [] [] := .nil
  obtain ⟨words, fresh, hloop, hall⟩ := h.items hitems hdepth hempty
  refine ⟨.list words :: fresh, hloop, .list le_rfl ?_ (hall.mono (fun _ _ _ hold => hold) (Nat.le_succ _))⟩
  rw [List.getElem?_append_right le_rfl, Nat.sub_self, List.getElem?_cons_zero]

/-- A new `dict` is made of the entries. -/
theorem Makes.newDict (h : Makes n) {entries : List (PyKey × PyWord)} {ms : List (PyKey × PyValue)}
    (hentries : HoldsEntries heap 0 entries ms) (hdepth : reachEntries ms ≤ n)
    (nodup : (entries.map Prod.fst).Nodup) :
    ∃ fresh, entries.foldlM (scrubEntryTo (scrubRef n) heap.length) (heap ++ [.emptyDict]) = some (heap ++ fresh) ∧
      Holds (heap ++ fresh) heap.length (.ref heap.length) (.dict (scrubbedEntries ms)) := by
  have hempty : HoldsEntries (heap ++ [.dict [] List.nodup_nil]) (heap.length + 1) [] [] := .nil
  have hkeys : (([] : List (PyKey × PyWord)).map Prod.fst ++ entries.map Prod.fst).Nodup := nodup
  obtain ⟨words, nodup', fresh, hloop, hall⟩ := h.entries hentries hdepth hkeys hempty
  have hcell : (heap ++ .dict words nodup' :: fresh)[heap.length]? = some (.dict words nodup') := by
    rw [List.getElem?_append_right le_rfl, Nat.sub_self, List.getElem?_cons_zero]
  exact ⟨.dict words nodup' :: fresh, hloop,
    .dict le_rfl hcell (hall.mono (fun _ _ _ hold => hold) (Nat.le_succ _))⟩

end

/-- **A run makes what `scrubbed` is**, and leaves every cell as it was. -/
theorem scrubRef_makes (n : ℕ) : Makes n := by
  induction n with
  | zero => exact fun _ hdepth => absurd hdepth (Nat.not_le_of_gt (reach_pos _))
  | succ n ih =>
    intro heap word v hheld hdepth
    cases hheld with
    | atom a =>
      have hsame : scrubbed a.value = a.value := by cases a <;> rw [PyAtom.value, scrubbed]
      refine ⟨.atom a, [], ?_, ?_⟩
      · rw [scrubRef, List.append_nil]
      · rw [hsame]
        exact .atom a
    | @dict address entries nodup ms _ hcell hentries =>
      rw [reach, Nat.succ_le_succ_iff] at hdepth
      obtain ⟨fresh, hloop, hmade⟩ := ih.newDict hentries hdepth nodup
      refine ⟨.ref heap.length, fresh, ?_, ?_⟩
      · rw [scrubRef, hcell]
        dsimp only
        rw [hloop, Option.map_some]
      · rw [scrubbed]
        exact hmade
    | @list address items vs _ hcell hitems =>
      rw [reach, Nat.succ_le_succ_iff] at hdepth
      obtain ⟨fresh, hloop, hmade⟩ := ih.newList hitems hdepth
      refine ⟨.ref heap.length, fresh, ?_, ?_⟩
      · rw [scrubRef, hcell]
        dsimp only
        rw [hloop, Option.map_some]
      · rw [scrubbed]
        exact hmade
    | @tuple address items vs _ hcell hitems =>
      rw [reach, Nat.succ_le_succ_iff] at hdepth
      obtain ⟨fresh, hloop, hmade⟩ := ih.newList hitems hdepth
      refine ⟨.ref heap.length, fresh, ?_, ?_⟩
      · rw [scrubRef, hcell]
        dsimp only
        rw [hloop, Option.map_some]
      · rw [scrubbed]
        exact hmade

/-! ### A run that has no room -/

/-- A run raises where the stack has no room for its calls. -/
def Raises (n : ℕ) : Prop :=
  ∀ {heap : PyHeap} {word : PyWord} {v : PyValue}, Holds heap 0 word v → n < reach v → scrubRef n word heap = none

section
variable {n : ℕ} {heap : PyHeap}

/-- The loop over items raises with the first for which there is no room. -/
theorem Raises.items (h : Raises n) {items : List PyWord} {vs : List PyValue} (hitems : HoldsItems heap 0 items vs)
    (hreach : n < reachItems vs) (done : List PyWord) (fresh : PyHeap) :
    items.foldlM (scrubItemTo (scrubRef n) heap.length) (heap ++ .list done :: fresh) = none := by
  induction items generalizing vs done fresh with
  | nil =>
    cases hitems
    exact absurd hreach (Nat.not_lt_zero _)
  | cons item items ih =>
    cases hitems with
    | @cons _ v _ vs hfirst hrest =>
      rw [List.foldlM_cons]
      by_cases hroom : reach v ≤ n
      · -- the first call returns, and the cell of the loop has one item more
        obtain ⟨word', later, hrun, -⟩ := Makes.inLoop (scrubRef_makes n) hfirst hroom (.list done) fresh
        have hturn : scrubItemTo (scrubRef n) heap.length (heap ++ .list done :: fresh) item =
            some (heap ++ .list (done ++ [word']) :: (fresh ++ later)) := by
          rw [scrubItemTo, hrun, Option.map_some]
          dsimp only
          rw [modify_cell, PyCell.append]
        rw [hturn]
        exact ih hrest ((lt_max_iff.mp hreach).resolve_left (Nat.not_lt.mpr hroom)) _ _
      · have hheld := hfirst.mono (fun r old _ hold => getElem?_before hold (.list done :: fresh)) (le_refl 0)
        rw [scrubItemTo, h hheld (Nat.not_le.mp hroom)]
        rfl

/-- The loop over entries raises with the first that is kept and for which there is no room. -/
theorem Raises.entries (h : Raises n) {entries : List (PyKey × PyWord)} {ms : List (PyKey × PyValue)}
    (hentries : HoldsEntries heap 0 entries ms) (hreach : n < reachEntries ms) (cell : PyCell) (fresh : PyHeap) :
    entries.foldlM (scrubEntryTo (scrubRef n) heap.length) (heap ++ cell :: fresh) = none := by
  induction entries generalizing ms cell fresh with
  | nil =>
    cases hentries
    exact absurd hreach (Nat.not_lt_zero _)
  | cons entry entries ih =>
    cases hentries with
    | @cons key word v _ ms hfirst hrest =>
      rw [List.foldlM_cons]
      rw [reachEntries] at hreach
      by_cases hkey : entryIsSensitive key = true
      · rw [if_pos hkey] at hreach
        have hturn : scrubEntryTo (scrubRef n) heap.length (heap ++ cell :: fresh) (key, word) =
            some (heap ++ PyCell.setItem key (.atom (.str redacted)) cell :: fresh) := by
          rw [scrubEntryTo, if_pos hkey, modify_cell]
        rw [hturn]
        exact ih hrest ((lt_max_iff.mp hreach).resolve_left (Nat.not_lt_zero _)) _ _
      · rw [if_neg hkey] at hreach
        by_cases hroom : reach v ≤ n
        · obtain ⟨word', later, hrun, -⟩ := Makes.inLoop (scrubRef_makes n) hfirst hroom cell fresh
          have hturn : scrubEntryTo (scrubRef n) heap.length (heap ++ cell :: fresh) (key, word) =
              some (heap ++ PyCell.setItem key word' cell :: (fresh ++ later)) := by
            rw [scrubEntryTo, if_neg hkey, hrun, Option.map_some]
            dsimp only
            rw [modify_cell]
          rw [hturn]
          exact ih hrest ((lt_max_iff.mp hreach).resolve_left (Nat.not_lt.mpr hroom)) _ _
        · have hheld := hfirst.mono (fun r old _ hold => getElem?_before hold (cell :: fresh)) (le_refl 0)
          rw [scrubEntryTo, if_neg hkey, h hheld (Nat.not_le.mp hroom)]
          rfl

end

/-- **A run raises where the stack has no room for its calls.** -/
theorem scrubRef_raises (n : ℕ) : Raises n := by
  induction n with
  | zero => exact fun _ _ => rfl
  | succ n ih =>
    intro heap word v hheld hreach
    cases hheld with
    | atom a =>
      have hone : reach a.value = 1 := by cases a <;> rw [PyAtom.value, reach]
      omega
    | @dict address entries nodup ms _ hcell hentries =>
      rw [reach, Nat.succ_lt_succ_iff] at hreach
      rw [scrubRef, hcell]
      dsimp only
      rw [ih.entries hentries hreach .emptyDict [], Option.map_none]
    | @list address items vs _ hcell hitems =>
      rw [reach, Nat.succ_lt_succ_iff] at hreach
      rw [scrubRef, hcell]
      dsimp only
      rw [ih.items hitems hreach [] [], Option.map_none]
    | @tuple address items vs _ hcell hitems =>
      rw [reach, Nat.succ_lt_succ_iff] at hreach
      rw [scrubRef, hcell]
      dsimp only
      rw [ih.items hitems hreach [] [], Option.map_none]

/-- **The run is `scrub`**: it raises where `scrub` does, and else it leaves every cell as it was and makes what
`scrub` returns in cells of its own. -/
theorem scrubRef_scrub {room : ℕ} {heap : PyHeap} {word : PyWord} {v : PyValue} (hheld : Holds heap 0 word v) :
    (scrub room v = none → scrubRef room word heap = none) ∧
      ∀ w, scrub room v = some w → ∃ word' heap', scrubRef room word heap = some (word', heap') ∧ heap <+: heap' ∧
        Holds heap' heap.length word' w := by
  constructor
  · intro hnone
    rw [scrub_eq, ite_eq_right_iff] at hnone
    exact scrubRef_raises room hheld (Nat.not_le.mp fun hroom => Option.some_ne_none _ (hnone hroom))
  · intro w hsome
    obtain ⟨hroom, rfl⟩ := scrub_eq_some_iff.mp hsome
    obtain ⟨word', fresh, hrun, hmade⟩ := scrubRef_makes room hheld hroom
    exact ⟨word', heap ++ fresh, hrun, List.prefix_append heap fresh, hmade⟩

/-! ### Redaction -/

/-- **Redaction at every depth that the stack has room for.** -/
theorem scrub_redacts (room : ℕ) (v : PyValue) :
    ((scrub room v).isSome = true ↔ reach v ≤ room) ∧
    ∀ w, scrub room v = some w →
      (∀ path, Unredacted path →
        (w.get? path).map PyValue.outline = (v.get? path).map fun v' => asList v'.outline) ∧
      (∀ path key, Unredacted path → entryIsSensitive key = true →
        w.get? (path ++ [.entry key]) = (v.get? (path ++ [.entry key])).map fun _ => .str redacted) ∧
      scrub room w = some w ∧
      ∀ heap word, Holds heap 0 word v →
        ∃ word' heap', scrubRef room word heap = some (word', heap') ∧ heap <+: heap' ∧
          Holds heap' heap.length word' w := by
  constructor
  · rw [scrub_eq]
    split_ifs with hroom
    · exact iff_of_true rfl hroom
    · exact iff_of_false Bool.false_ne_true hroom
  · intro w hsome
    obtain ⟨hroom, rfl⟩ := scrub_eq_some_iff.mp hsome
    refine ⟨fun _ hpath => outline_get?_scrubbed v hpath, fun _ _ hpath hkey => get?_scrubbed_redacted v hpath hkey, ?_,
      fun _ _ hheld => (scrubRef_scrub hheld).2 _ hsome⟩
    exact scrub_eq_some_iff.mpr ⟨(reach_scrubbed v).trans_le hroom, scrubbed_scrubbed v⟩

/-- A secret in a `dict` in a tuple in a `dict`. -/
def nested : PyValue := .dict [(.str "user", .tuple [.dict [(.str "api_secret", .str "x")], .scalar (.int 1)])]

/-- Its cells. -/
def nestedHeap : PyHeap :=
  [.dict [(.str "user", .ref 1)] (by decide), .tuple [.ref 2, .atom (.scalar (.int 1))],
    .dict [(.str "api_secret", .atom (.str "x"))] (by decide)]

theorem nested_held : Holds nestedHeap 0 (.ref 0) nested := by
  have hsecret : Holds nestedHeap 0 (.ref 2) (.dict [(.str "api_secret", .str "x")]) :=
    .dict (Nat.zero_le _) rfl (.cons _ (.atom (.str "x")) .nil)
  have htuple : Holds nestedHeap 0 (.ref 1) (.tuple [.dict [(.str "api_secret", .str "x")], .scalar (.int 1)]) :=
    .tuple (Nat.zero_le _) rfl (.cons hsecret (.cons (.atom (.scalar (.int 1))) .nil))
  exact .dict (Nat.zero_le _) rfl (.cons _ htuple .nil)

theorem scrub_redacts_nested :
    (scrubbed nested).get? [.entry (.str "user"), .item 0, .entry (.str "api_secret")] = some (.str redacted) ∧
      ∃ word' heap', scrubRef 3 (.ref 0) nestedHeap = some (word', heap') ∧ nestedHeap <+: heap' ∧
        Holds heap' 3 word' (scrubbed nested) := by
  have hpath : Unredacted [.entry (.str "user"), .item 0] := by
    unfold Unredacted
    decide
  have hreturns := (scrub_redacts 3 nested).2 (scrubbed nested) (scrub_eq_some_iff.mpr ⟨by decide, rfl⟩)
  exact ⟨hreturns.2.1 _ (.str "api_secret") hpath (by decide), hreturns.2.2.2 nestedHeap (.ref 0) nested_held⟩

/-- Lists within one another. -/
def nestedLists : ℕ → PyValue
  | 0 => .list []
  | n + 1 => .list [nestedLists n]

theorem reach_nestedLists (n : ℕ) : reach (nestedLists n) = n + 1 := by
  induction n with
  | zero => rfl
  | succ n ih => rw [nestedLists, reach, reachItems, reachItems, ih, Nat.max_zero]

/-- A thousand frames have no room for 1001 lists within one another. -/
theorem not_scrub_returns : ¬ ∀ v : PyValue, (scrub 1000 v).isSome = true := by
  intro hreturns
  have hdeep := hreturns (nestedLists 1000)
  rw [scrub_eq, reach_nestedLists, if_neg (by omega)] at hdeep
  exact Bool.false_ne_true hdeep

end StratTrader.Audit
