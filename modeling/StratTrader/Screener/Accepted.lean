import StratTrader.Foundation.Runs
import StratTrader.Screener.Raises

/-!
# The lines of a block that is accepted

Where no line is an error, each sets its key, and what it sets depends on what the key is set to and on nothing else.
Which keys were seen need not be kept then: they are those that are set.

## What is proved

* `applyKey_eq`: a value sets its key, and what to is told by what the key is set to.
* `sane_readKey`: what is set is within the bounds of its kind.
* `bodyStep_cases`: what a line does to the state of the loop.
* `parse_some_iff`: a text is accepted exactly if the lines of its block are added one after another.

## Honest scope

A text is a list of Unicode characters.
-/

namespace StratTrader.Screener

open StratTrader.Foundation

/-! ### Values -/

/-- What a key is set to is within the bounds of its kind. -/
def Sane : (key : Key) → key.Value → Prop
  | .range _, bounds => ∀ lo hi, bounds.gte = some lo → bounds.lte = some hi → lo ≤ hi
  | .text _, _ => True
  | .etf, _ => True
  | .sma _, windows => windows ≠ [] ∧ windows.Pairwise (· < ·) ∧ ∀ w ∈ windows, w ∈ smaWindows
  | .near52wHigh, num => 1 ≤ num ∧ num ≤ 100
  | .minHistory, days => 1 ≤ days ∧ days ≤ minHistoryMax
  | .limit, n => limitMin ≤ n ∧ n ≤ limitMax

/-- Every key that is set is. -/
def Criteria.Sane (c : Criteria) : Prop := ∀ key value, c key = some value → Screener.Sane key value

section
variable {py : PyStr} {key : Key} {val : List Char} {c c' : Criteria}

theorem set_same (c : Criteria) (key : Key) (value : key.Value) : c.set key value key = some value :=
  Function.update_self ..

theorem set_of_ne (c : Criteria) {key k : Key} (value : key.Value) (h : k ≠ key) : c.set key value k = c k :=
  Function.update_of_ne h ..

theorem sane_empty : Criteria.empty.Sane := fun _ _ h => nomatch h

theorem Criteria.Sane.set {value : key.Value} (hc : c.Sane) (hvalue : Screener.Sane key value) :
    (c.set key value).Sane := by
  intro k v hk
  rcases eq_or_ne k key with rfl | hne
  · rw [set_same] at hk
    cases hk
    exact hvalue
  · rw [set_of_ne c value hne] at hk
    exact hc k v hk

/-- The windows with one more, where it is none of them. -/
def newWindow (k : SmaKey) (bucket : List ℚ) (num : ℚ) : Except String (List ℚ) :=
  if num ∈ bucket then .error (k.name ++ ": " ++ toString (pyInt num) ++ " is already set (duplicate_key).")
  else .ok (addWindow bucket num)

/-- What a value sets a key to, of what it is set to. -/
def readKey (py : PyStr) (key : Key) (val : List Char) (old : Option key.Value) :
    Except Raised (Except String key.Value) :=
  match key, old with
  | .range k, _ => (parseRange py val).map (Except.mapError fun err => k.name ++ ": " ++ err)
  | .text k, _ => .ok (readText py k val)
  | .etf, _ => .ok (readEtf py val)
  | .sma k, old => (parseNumber py val).map fun num => (windowOf k num).bind (newWindow k (old.getD []))
  | .near52wHigh, _ => (parseNumber py (percentToken val)).map nearOf
  | .minHistory, _ => (parseNumber py val).map minHistoryOf
  | .limit, _ => (parseNumber py val).map limitOf

/-- **A value sets its key**, and what to is told by what the key is set to. -/
theorem applyKey_eq : applyKey py key val c = (readKey py key val (c key)).map (Except.map (c.set key)) := by
  have hread {α : Type} {k : Key} {x : Except Raised α} {g : α → Except String k.Value} :
      (x >>= fun a => Except.ok ((g a).map (c.set k))) = (x.map g).map (Except.map (c.set k)) := by
    cases x <;> rfl
  cases key with
  | range k =>
    unfold applyKey readKey
    dsimp only
    cases parseRange py val with
    | error e => rfl
    | ok r => cases r <;> rfl
  | text k => rfl
  | etf => rfl
  | sma k =>
    unfold applyKey readKey
    dsimp only
    cases parseNumber py val with
    | error e => rfl
    | ok num =>
      cases hwindow : windowOf k num with
      | error error =>
        change Except.ok ((windowOf k num).bind (setWindow k c)) =
          Except.ok (((windowOf k num).bind (newWindow k ((c (.sma k)).getD []))).map (c.set (.sma k)))
        rw [hwindow]
        rfl
      | ok w =>
        change Except.ok ((windowOf k num).bind (setWindow k c)) =
          Except.ok (((windowOf k num).bind (newWindow k ((c (.sma k)).getD []))).map (c.set (.sma k)))
        rw [hwindow]
        change Except.ok (setWindow k c w) = Except.ok ((newWindow k ((c (.sma k)).getD []) w).map (c.set (.sma k)))
        unfold setWindow newWindow
        dsimp only
        split_ifs <;> rfl
  | near52wHigh => exact hread
  | minHistory => exact hread
  | limit => exact hread

theorem map_eq_ok {ε α β : Type} {x : Except ε α} {g : α → β} {b : β} (h : x.map g = .ok b) :
    ∃ a, x = .ok a ∧ g a = b := by
  cases x with
  | error e => cases h
  | ok a => exact ⟨a, rfl, Except.ok.inj h⟩

theorem sane_parseRange {k : RangeKey} {bounds : Bounds} (h : parseRange py val = .ok (.ok bounds)) :
    Sane (.range k) bounds := by
  have hbound {op : String} {token : List Char} {g : ℚ → Bounds} (hg : ∀ num, (g num).gte = none ∨ (g num).lte = none)
      (h : (parseNumber py token >>= fun num => Except.ok (boundOf py op val g num)) =
        (.ok (.ok bounds) : Except Raised _)) : Sane (.range k) bounds := by
    cases hnum : parseNumber py token with
    | error e => rw [hnum] at h; cases h
    | ok num =>
      rw [hnum] at h
      cases num with
      | none => cases h
      | some num =>
        cases h
        intro lo hi hlo hhi
        rcases hg num with hnone | hnone
        · rw [hnone] at hlo; cases hlo
        · rw [hnone] at hhi; cases hhi
  unfold parseRange at h
  cases hparts : partitionAt "..".toList val with
  | some parts =>
    obtain ⟨loS, hiS⟩ := parts
    rw [hparts] at h
    dsimp only at h
    cases hlo : parseNumber py (stripChars loS) with
    | error e => rw [hlo] at h; cases h
    | ok lo =>
      cases hhi : parseNumber py (stripChars hiS) with
      | error e => rw [hlo, hhi] at h; cases h
      | ok hi =>
        rw [hlo, hhi] at h
        have hbetween : betweenOf py val loS hiS lo hi = .ok bounds := Except.ok.inj h
        unfold betweenOf at hbetween
        split at hbetween
        · split_ifs at hbetween with hinverted
          cases hbetween
          intro lo' hi' hlo' hhi'
          cases hlo'
          cases hhi'
          exact not_lt.mp hinverted
        · cases hbetween
  | none =>
    rw [hparts] at h
    dsimp only at h
    split at h
    · exact hbound (fun _ => .inr rfl) h
    · exact hbound (fun _ => .inl rfl) h
    · cases h
    · cases h
    · cases h

/-- Windows are kept in order. -/
theorem ordered_addWindow (bucket : List ℚ) (num : ℚ) : (addWindow bucket num).Pairwise (· ≤ ·) := by
  refine (List.pairwise_mergeSort ?_ ?_ (bucket ++ [num])).imp of_decide_eq_true
  · intro a b d hab hbd
    exact decide_eq_true ((of_decide_eq_true hab).trans (of_decide_eq_true hbd))
  · intro a b
    rw [Bool.or_eq_true, decide_eq_true_iff, decide_eq_true_iff]
    exact le_total a b

theorem addWindow_perm (bucket : List ℚ) (num : ℚ) : (addWindow bucket num).Perm (bucket ++ [num]) :=
  List.mergeSort_perm _ _

theorem pairwise_addWindow {bucket : List ℚ} {num : ℚ} (h : bucket.Pairwise (· < ·)) (hnum : num ∉ bucket) :
    (addWindow bucket num).Pairwise (· < ·) := by
  have hnodup : (addWindow bucket num).Nodup := by
    refine (addWindow_perm bucket num).nodup_iff.mpr (List.nodup_append'.mpr ⟨h.imp ne_of_lt, List.nodup_singleton num, ?_⟩)
    exact List.disjoint_singleton.mpr hnum
  exact ((ordered_addWindow bucket num).and hnodup).imp fun ⟨hab, hne⟩ => lt_of_le_of_ne hab hne

theorem mem_addWindow {bucket : List ℚ} {num w : ℚ} : w ∈ addWindow bucket num ↔ w ∈ bucket ∨ w = num := by
  rw [(addWindow_perm bucket num).mem_iff, List.mem_append, List.mem_singleton]

/-- A window is put in its place among those that are set. -/
theorem sane_addWindow {k : SmaKey} {num : ℚ} {old : Option (List ℚ)} (hold : ∀ v, old = some v → Sane (.sma k) v)
    (hwindow : num ∈ smaWindows) (hnew : num ∉ old.getD []) : Sane (.sma k) (addWindow (old.getD []) num) := by
  have hbucket : (old.getD []).Pairwise (· < ·) ∧ ∀ w ∈ old.getD [], w ∈ smaWindows := by
    cases hset : old with
    | none => exact ⟨.nil, List.forall_mem_nil _⟩
    | some bucket => exact (hold bucket hset).2
  refine ⟨List.ne_nil_of_mem (mem_addWindow.mpr (.inr rfl)), pairwise_addWindow hbucket.1 hnew, fun w hw => ?_⟩
  rcases mem_addWindow.mp hw with h | rfl
  · exact hbucket.2 w h
  · exact hwindow

theorem sane_nearOf {o : Option ℚ} {num : ℚ} (h : nearOf o = .ok num) : Sane .near52wHigh num := by
  unfold nearOf at h
  cases o with
  | none => cases h
  | some x =>
    dsimp only at h
    split_ifs at h with hbounds
    cases h
    exact hbounds

theorem sane_minHistoryOf {o : Option ℚ} {days : ℤ} (h : minHistoryOf o = .ok days) : Sane .minHistory days := by
  unfold minHistoryOf at h
  cases o with
  | none => cases h
  | some x =>
    dsimp only at h
    split_ifs at h with hbounds
    · cases h
      obtain ⟨hwhole, hlo, hhi⟩ := hbounds
      rw [← hwhole] at hlo hhi
      exact ⟨by exact_mod_cast hlo, by exact_mod_cast hhi⟩
    · cases h

theorem sane_limitOf {o : Option ℚ} {n : ℤ} (h : limitOf o = .ok n) : Sane .limit n := by
  unfold limitOf at h
  cases o with
  | none => cases h
  | some x =>
    dsimp only at h
    split_ifs at h with hwhole
    · cases h
      exact ⟨le_max_left _ _, max_le (by decide) (min_le_left _ _)⟩
    · cases h

theorem windowOf_ok {k : SmaKey} {o : Option ℚ} {num : ℚ} (h : windowOf k o = .ok num) : num ∈ smaWindows := by
  unfold windowOf at h
  cases o with
  | none => cases h
  | some x =>
    dsimp only at h
    split_ifs at h with hmem
    · cases h
      exact hmem
    · cases h

/-- What windows are set to. -/
theorem readKey_sma {k : SmaKey} {old : Option (List ℚ)} {windows : List ℚ} :
    readKey py (.sma k) val old = .ok (.ok windows) ↔ ∃ num w, parseNumber py val = .ok num ∧ windowOf k num = .ok w ∧
      w ∉ old.getD [] ∧ windows = addWindow (old.getD []) w := by
  constructor
  · intro h
    obtain ⟨num, hnum, hvalue⟩ := map_eq_ok h
    cases hwindow : windowOf k num with
    | error error => rw [hwindow] at hvalue; cases hvalue
    | ok w =>
      rw [hwindow] at hvalue
      change newWindow k (old.getD []) w = .ok windows at hvalue
      unfold newWindow at hvalue
      split_ifs at hvalue with hnew
      cases hvalue
      exact ⟨num, w, hnum, hwindow, hnew, rfl⟩
  · rintro ⟨num, w, hnum, hwindow, hnew, rfl⟩
    unfold readKey
    dsimp only
    rw [hnum]
    change Except.ok ((windowOf k num).bind (newWindow k (old.getD []))) = _
    rw [hwindow]
    change Except.ok (newWindow k (old.getD []) w) = _
    unfold newWindow
    rw [if_neg hnew]

/-- **What is set is within the bounds of its kind.** -/
theorem sane_readKey {old : Option key.Value} {value : key.Value} (hold : ∀ v, old = some v → Sane key v)
    (h : readKey py key val old = .ok (.ok value)) : Sane key value := by
  cases key with
  | range k =>
    obtain ⟨r, hr, hvalue⟩ := map_eq_ok h
    cases r with
    | error error => cases hvalue
    | ok parsed =>
      cases hvalue
      exact sane_parseRange hr
  | text k => trivial
  | etf => trivial
  | sma k =>
    obtain ⟨num, w, -, hwindow, hnew, rfl⟩ := readKey_sma.mp h
    exact sane_addWindow hold (windowOf_ok hwindow) hnew
  | near52wHigh =>
    obtain ⟨num, -, hvalue⟩ := map_eq_ok h
    exact sane_nearOf hvalue
  | minHistory =>
    obtain ⟨num, -, hvalue⟩ := map_eq_ok h
    exact sane_minHistoryOf hvalue
  | limit =>
    obtain ⟨num, -, hvalue⟩ := map_eq_ok h
    exact sane_limitOf hvalue

end

/-! ### Lines -/

section
variable (py : PyStr)

/-- What a line does to the criteria, where it is no error. -/
def addLine (c : Criteria) (raw : List Char) : Option Criteria :=
  match readLine py raw with
  | .skip => some c
  | .bad _ => none
  | .entry key val =>
    if key.repeatable = false ∧ (c key).isSome = true then none
    else
      match readKey py key val (c key) with
      | .ok (.ok value) => some (c.set key value)
      | _ => none

/-- What a line does to the state of the loop. -/
inductive LineStep (lineno : ℕ) (raw : List Char) (st : BodyState) : BodyState → Prop where
  /-- It is passed over. -/
  | skip (hread : readLine py raw = .skip) : LineStep lineno raw st st
  /-- It is an error. -/
  | fail (st' : BodyState) (error : String) (hread : readLine py raw ≠ .skip)
      (herrors : st'.errors = st.errors ++ [⟨lineno, error⟩]) : LineStep lineno raw st st'
  /-- It sets its key. -/
  | set (key : Key) (val : List Char) (value : key.Value) (hread : readLine py raw = .entry key val)
      (hnew : ¬ (key.repeatable = false ∧ key ∈ st.seenScalar))
      (hvalue : readKey py key val (st.criteria key) = .ok (.ok value)) :
      LineStep lineno raw st { st.see key with criteria := st.criteria.set key value }

variable {py} {lineno : ℕ} {raw : List Char} {st st' : BodyState} {c c' : Criteria}

/-- A line that is added says nothing, or sets its key. -/
theorem addLine_cases (h : addLine py c raw = some c') : (readLine py raw = .skip ∧ c' = c) ∨
    ∃ key val value, readLine py raw = .entry key val ∧ ¬ (key.repeatable = false ∧ (c key).isSome = true) ∧
      readKey py key val (c key) = .ok (.ok value) ∧ c' = c.set key value := by
  unfold addLine at h
  cases hread : readLine py raw with
  | skip =>
    rw [hread] at h
    cases h
    exact .inl ⟨rfl, rfl⟩
  | bad error =>
    rw [hread] at h
    cases h
  | entry key val =>
    rw [hread] at h
    dsimp only at h
    split_ifs at h with hdup
    split at h
    case h_2 => cases h
    case h_1 value hvalue =>
      cases h
      exact .inr ⟨key, val, value, rfl, hdup, hvalue, rfl⟩

theorem addLine_skip (h : readLine py raw = .skip) : addLine py c raw = some c := by
  unfold addLine
  rw [h]

theorem addLine_set {key : Key} {val : List Char} {value : key.Value} (h : readLine py raw = .entry key val)
    (hnew : ¬ (key.repeatable = false ∧ (c key).isSome = true)) (hvalue : readKey py key val (c key) = .ok (.ok value)) :
    addLine py c raw = some (c.set key value) := by
  unfold addLine
  rw [h]
  dsimp only
  rw [if_neg hnew, hvalue]

theorem fail_errors (lineno : ℕ) (error : String) : (st.fail lineno error).errors = st.errors ++ [⟨lineno, error⟩] := rfl

theorem see_errors (key : Key) : (st.see key).errors = st.errors := by
  unfold BodyState.see
  split_ifs <;> rfl

/-- A line is passed over, is an error or sets its key. -/
theorem bodyStep_cases (h : bodyStep py lineno raw st = .ok st') : LineStep py lineno raw st st' := by
  unfold bodyStep at h
  cases hread : readLine py raw with
  | skip =>
    rw [hread] at h
    cases h
    exact .skip hread
  | bad error =>
    rw [hread] at h
    cases h
    exact .fail _ error (by rw [hread]; exact fun h => nomatch h) rfl
  | entry key val =>
    have hne : readLine py raw ≠ .skip := by rw [hread]; exact fun h => nomatch h
    rw [hread] at h
    dsimp only at h
    split_ifs at h with hdup
    · cases h
      exact .fail _ _ hne rfl
    · rw [applyKey_eq] at h
      cases hvalue : readKey py key val (st.criteria key) with
      | error e => rw [hvalue] at h; cases h
      | ok r =>
        rw [hvalue] at h
        cases r with
        | error error =>
          cases h
          exact .fail _ error hne (by rw [fail_errors, see_errors])
        | ok value =>
          cases h
          exact .set key val value hread hdup hvalue

/-- The keys that were seen are those that are set, but for the ones that may be repeated. -/
def Agrees (st : BodyState) : Prop :=
  ∀ key : Key, key.repeatable = false → (key ∈ st.seenScalar ↔ (st.criteria key).isSome = true)

theorem agrees_set {key : Key} {value : key.Value} (h : Agrees st) :
    Agrees { st.see key with criteria := st.criteria.set key value } := by
  intro k hk
  change k ∈ (st.see key).seenScalar ↔ (st.criteria.set key value k).isSome = true
  rw [mem_see]
  rcases eq_or_ne k key with rfl | hne
  · rw [set_same]
    exact iff_of_true (.inr ⟨hk, rfl⟩) rfl
  · rw [set_of_ne _ _ hne, h k hk]
    exact or_iff_left fun ⟨_, heq⟩ => hne heq

/-- A line that is no error is added. -/
theorem addLine_of_bodyStep (h : bodyStep py lineno raw st = .ok st') (herrors : st'.errors = []) (hst : Agrees st) :
    addLine py st.criteria raw = some st'.criteria ∧ Agrees st' := by
  cases bodyStep_cases h with
  | skip hread => exact ⟨addLine_skip hread, hst⟩
  | fail _ error hread heq =>
    rw [herrors] at heq
    exact absurd heq.symm (List.concat_ne_nil _ _)
  | set key val value hread hnew hvalue =>
    exact ⟨addLine_set hread (fun ⟨hscalar, hset⟩ => hnew ⟨hscalar, (hst key hscalar).mpr hset⟩) hvalue, agrees_set hst⟩

/-- A line that is added is no error. -/
theorem bodyStep_of_addLine (lineno : ℕ) (h : addLine py st.criteria raw = some c) (hst : Agrees st)
    (herrors : st.errors = []) :
    ∃ st', bodyStep py lineno raw st = .ok st' ∧ st'.criteria = c ∧ Agrees st' ∧ st'.errors = [] := by
  unfold bodyStep
  rcases addLine_cases h with ⟨hread, rfl⟩ | ⟨key, val, value, hread, hnew, hvalue, rfl⟩
  · rw [hread]
    exact ⟨st, rfl, rfl, hst, herrors⟩
  · rw [hread]
    dsimp only
    rw [if_neg fun ⟨hscalar, hseen⟩ => hnew ⟨hscalar, (hst key hscalar).mp hseen⟩, applyKey_eq, hvalue]
    exact ⟨_, rfl, rfl, agrees_set hst, (see_errors key).trans herrors⟩

/-- The lines are read where the first is, and the others behind it. -/
theorem bodySteps_cons {first : List Char} {rest : List (List Char)} :
    bodySteps py lineno (first :: rest) st = .ok st' ↔
      ∃ st₁, bodyStep py lineno first st = .ok st₁ ∧ bodySteps py (lineno + 1) rest st₁ = .ok st' := by
  change (bodyStep py lineno first st >>= fun st => bodySteps py (lineno + 1) rest st) = .ok st' ↔ _
  cases bodyStep py lineno first st with
  | error e => exact iff_of_false nofun nofun
  | ok st₁ => exact ⟨fun h => ⟨st₁, rfl, h⟩, fun ⟨_, heq, h⟩ => Except.ok.inj heq ▸ h⟩

/-- A line reports an error where the ones before it have led. -/
def Reports (py : PyStr) (lineno : ℕ) (st : BodyState) (before : List (List Char)) (raw : List Char)
    (e : LineError) : Prop :=
  e.line = lineno + before.length ∧ ∃ mid mid', bodySteps py lineno before st = .ok mid ∧
    bodyStep py (lineno + before.length) raw mid = .ok mid' ∧ mid'.errors = mid.errors ++ [e]

/-- **What is reported** was reported before or is by one of the lines. -/
theorem errors_bodySteps {lines : List (List Char)} (h : bodySteps py lineno lines st = .ok st') :
    ∃ es, st'.errors = st.errors ++ es ∧
      ∀ e ∈ es, ∃ before raw behind, lines = before ++ raw :: behind ∧ Reports py lineno st before raw e := by
  induction lines generalizing lineno st with
  | nil =>
    cases h
    exact ⟨[], (List.append_nil _).symm, List.forall_mem_nil _⟩
  | cons first rest ih =>
    obtain ⟨st₁, hfirst, hrest⟩ := bodySteps_cons.mp h
    obtain ⟨es, hes, hall⟩ := ih hrest
    have hlater : ∀ e ∈ es, ∃ before raw behind, first :: rest = before ++ raw :: behind ∧
        Reports py lineno st before raw e := by
      intro e he
      obtain ⟨before, raw, behind, rfl, hline, mid, mid', hmid, hmid', herr⟩ := hall e he
      rw [Nat.add_right_comm, Nat.add_assoc] at hline hmid'
      exact ⟨first :: before, raw, behind, rfl, hline, mid, mid', bodySteps_cons.mpr ⟨st₁, hfirst, hmid⟩, hmid', herr⟩
    have hkeep (hsame : st₁.errors = st.errors) : ∃ es, st'.errors = st.errors ++ es ∧ ∀ e ∈ es, ∃ before raw behind,
        first :: rest = before ++ raw :: behind ∧ Reports py lineno st before raw e := by
      rw [hsame] at hes
      exact ⟨es, hes, hlater⟩
    cases bodyStep_cases hfirst with
    | skip hread => exact hkeep rfl
    | set key val value hread hnew hvalue => exact hkeep (see_errors key)
    | fail _ error hread heq =>
      rw [heq, List.append_assoc] at hes
      refine ⟨_, hes, List.forall_mem_cons.mpr ⟨?_, hlater⟩⟩
      exact ⟨[], first, rest, rfl, rfl, st, st₁, rfl, hfirst, heq⟩

/-- **Lines without an error** are added one after another. -/
theorem follow_of_bodySteps {lines : List (List Char)} (h : bodySteps py lineno lines st = .ok st')
    (herrors : st'.errors = []) (hst : Agrees st) : follow (addLine py) lines st.criteria = some st'.criteria := by
  induction lines generalizing lineno st with
  | nil =>
    cases h
    rfl
  | cons first rest ih =>
    obtain ⟨st₁, hfirst, hrest⟩ := bodySteps_cons.mp h
    obtain ⟨es, hes, -⟩ := errors_bodySteps hrest
    have hclean : st₁.errors = [] := (List.append_eq_nil_iff.mp (hes.symm.trans herrors)).1
    obtain ⟨hadd, hagrees⟩ := addLine_of_bodyStep hfirst hclean hst
    exact Option.bind_eq_some_iff.mpr ⟨_, hadd, ih hrest hagrees⟩

/-- Lines that are added have no error. -/
theorem bodySteps_of_follow {lines : List (List Char)} (lineno : ℕ)
    (h : follow (addLine py) lines st.criteria = some c) (hst : Agrees st) (herrors : st.errors = []) :
    ∃ st', bodySteps py lineno lines st = .ok st' ∧ st'.criteria = c ∧ st'.errors = [] := by
  induction lines generalizing lineno st with
  | nil =>
    cases h
    exact ⟨st, rfl, rfl, herrors⟩
  | cons first rest ih =>
    obtain ⟨c₁, hadd, hrest⟩ := Option.bind_eq_some_iff.mp h
    obtain ⟨st₁, hfirst, rfl, hagrees, hclean⟩ := bodyStep_of_addLine lineno hadd hst herrors
    obtain ⟨st', hst', hc, herrors'⟩ := ih (lineno + 1) hrest hagrees hclean
    exact ⟨st', bodySteps_cons.mpr ⟨st₁, hfirst, hst'⟩, hc, herrors'⟩

theorem agrees_empty : Agrees ⟨.empty, [], []⟩ := fun _ _ => iff_of_false List.not_mem_nil Bool.false_ne_true

/-- **A block is accepted** exactly if its lines are added one after another, and what it says is built from that. -/
theorem parseBody_some_iff {lines : List (List Char)} {r : ScreenCriteria} {es : List LineError} :
    parseBody py lines lineno = .ok (some r, es) ↔
      es = [] ∧ ∃ c, follow (addLine py) lines .empty = some c ∧ r = build c := by
  unfold parseBody
  constructor
  · intro h
    cases hsteps : bodySteps py lineno lines ⟨.empty, [], []⟩ with
    | error e => rw [hsteps] at h; cases h
    | ok st =>
      rw [hsteps] at h
      have hif : (if st.errors = [] then (some (build st.criteria), []) else (none, st.errors)) = (some r, es) :=
        Except.ok.inj h
      split_ifs at hif with herrors
      · cases hif
        exact ⟨rfl, _, follow_of_bodySteps hsteps herrors agrees_empty, rfl⟩
      · cases hif
  · rintro ⟨rfl, c, hfollow, rfl⟩
    obtain ⟨st, hsteps, rfl, herrors⟩ := bodySteps_of_follow lineno hfollow agrees_empty rfl
    rw [hsteps]
    change Except.ok (if st.errors = [] then _ else _) = _
    rw [if_pos herrors]

/-- The criteria of a text that is accepted. -/
def accepted : Except Raised Parsed → Option ScreenCriteria
  | .ok (some r, []) => some r
  | _ => none

theorem accepted_eq_some {x : Except Raised Parsed} {r : ScreenCriteria} (h : accepted x = some r) :
    x = .ok (some r, []) := by
  unfold accepted at h
  split at h
  · cases h
    rfl
  · cases h

/-- A text without lines to fold is not accepted. -/
theorem parse_not_some {text : List Char} {r : ScreenCriteria} {es : List LineError} (h : bodyLines text = none) :
    parse py text ≠ .ok (some r, es) := by
  unfold bodyLines at h
  unfold parse
  dsimp only
  split_ifs with hempty herrors
  · exact fun heq => nomatch heq
  · exact fun heq => nomatch heq
  · cases hbody : (extractBlock (stripBom text)).body with
    | none => exact fun heq => nomatch heq
    | some body =>
      rw [hbody, Option.bind_some] at h
      split_ifs at h with hcaps
      dsimp only
      split_ifs with hbytes hlines
      · exact fun heq => nomatch heq
      · exact fun heq => nomatch heq
      · exact absurd hcaps (not_or.mpr ⟨hbytes, hlines⟩)

/-- **A text is accepted** exactly if it has lines to fold and they are added one after another. -/
theorem parse_some_iff {text : List Char} {r : ScreenCriteria} {es : List LineError} :
    parse py text = .ok (some r, es) ↔ es = [] ∧
      ∃ lines c, bodyLines text = some lines ∧ follow (addLine py) lines .empty = some c ∧ r = build c := by
  cases hlines : bodyLines text with
  | none => exact iff_of_false (parse_not_some hlines) fun ⟨_, _, _, h, _⟩ => nomatch h
  | some lines =>
    rw [parse_of_some hlines, parseBody_some_iff]
    refine and_congr_right fun _ => ⟨fun ⟨c, h, hr⟩ => ⟨lines, c, rfl, h, hr⟩, ?_⟩
    rintro ⟨_, c, heq, h, hr⟩
    cases heq
    exact ⟨c, h, hr⟩

/-- A line keeps the criteria sane. -/
theorem sane_addLine (h : addLine py c raw = some c') (hc : c.Sane) : c'.Sane := by
  rcases addLine_cases h with ⟨-, rfl⟩ | ⟨key, val, value, -, -, hvalue, rfl⟩
  · exact hc
  · exact hc.set (sane_readKey (hc key) hvalue)

end

end StratTrader.Screener
