import StratTrader.Webhooks.View
import StratTrader.Webhooks.ProcessAlert

/-!
# When two alerts are the same

The view and the worker both start from the text `str` makes of the member `idempotency_key`. The
view makes it of the posted value, keeps its first 128 characters, and the table of alerts holds
one row for each user and kept text. The worker makes it of what the column `body_json` gives back,
takes the blanks off, and hashes what is left into the client order id. So there are two readings of
"the same alert", and they part in three ways: a key of blanks is a key for the view only; keys that
come back as one text, but for the blanks around it, are one key for the worker only when they are
posted with different texts; and keys posted with texts that differ after 128 characters, or with one
text that does not come back as one, are one key for the view only.

## What is proved

* `duplicates_agree_iff`: the readings agree on two alerts exactly if their keys are of none of the
  three kinds.
* `anchors_newAlert`: the alert that the view writes has its anchor of the posted body, and holds the
  body as the column gives it back.
* `canInsert_iff`, `processAlert_skips`: what the readings mean for the table of alerts and
  for a run of `process_alert`.
-/

namespace StratTrader.Webhooks

open StratTrader.Brokers StratTrader.Foundation StratTrader.Orders StratTrader.Risk

/-! ### The two readings -/

/-- The alert is one that a body has been posted for: the view has made its anchor of the posted body,
and the worker sees what the column gives back. -/
structure Anchors (rt : Runtime) (x : Body) (a : AlertMessage) : Prop where
  /-- The anchor is made of the posted body. -/
  idempotencyKey : a.idempotencyKey = idemOf (x.seen rt.printable)
  /-- The column gives back the body. -/
  bodyJson : a.bodyJson = rt.readBack x

theorem anchors_newAlert (rt : Runtime) (env : ViewEnv) (config : WebhookConfig) (x : Body) :
    Anchors rt x (newAlert rt env config x) := ⟨rfl, rfl⟩

/-- The digest of a user's key in a client order id. -/
def digestOf (rt : Runtime) (user : UserId) (key : String) : String :=
  truncate (rt.sha256 (user ++ ":" ++ key)) 32

/-- The view's reading: the alerts have one anchor, and it is a key. -/
def SameAnchor (a b : AlertMessage) : Prop := a.idempotencyKey ≠ "" ∧ a.idempotencyKey = b.idempotencyKey

/-- The worker's reading: both alerts have a key, and they get one client order id. -/
def SameClientOrderId (rt : Runtime) (a b : AlertMessage) : Prop :=
  idemKeyOf a.bodyJson ≠ "" ∧ idemKeyOf b.bodyJson ≠ "" ∧ clientOrderIdOf rt a = clientOrderIdOf rt b

/-! ### The texts the readings part on -/

/-- `body.get("idempotency_key", "")`. -/
def keyOf (x : Body) : Loaded := (x.lookup "idempotency_key").getD (.string "")

/-- The text of a posted key. -/
def postedText (rt : Runtime) (x : Body) : List Char := (keyOf x).text rt.printable

/-- The text of the key that comes back. -/
def storedText (rt : Runtime) (x : Body) : List Char := (keyOf x).column.text rt.printable

/-- One text that begins and ends with no blank, and blanks around it. -/
def PaddedAlike (cs ds : List Char) : Prop :=
  ∃ core, core ≠ [] ∧ Trimmed core ∧
    (∃ l r, Blank l ∧ Blank r ∧ cs = l ++ core ++ r) ∧ ∃ l r, Blank l ∧ Blank r ∧ ds = l ++ core ++ r

/-- The first `n` characters are the same. -/
def AgreeUpTo (n : ℕ) (cs ds : List Char) : Prop := ∀ i < n, cs[i]? = ds[i]?

/-- The keys that one side takes for one key and the other does not. -/
inductive KeysMisread (rt : Runtime) (x y : Body) : Prop where
  /-- A key of blanks, twice. -/
  | blank : postedText rt x = postedText rt y → postedText rt x ≠ [] → Blank (postedText rt x) → KeysMisread rt x y
  /-- The keys come back as one text, but for the blanks around it, and are posted with texts that
  differ among the first 128 characters. -/
  | padded : PaddedAlike (storedText rt x) (storedText rt y) →
      ¬ AgreeUpTo 128 (postedText rt x) (postedText rt y) → KeysMisread rt x y
  /-- The keys come back with texts that differ in more than the blanks around them, and are posted with
  texts that do not differ among the first 128 characters. -/
  | cut : AgreeUpTo 128 (postedText rt x) (postedText rt y) → storedText rt x ≠ storedText rt y →
      ¬ PaddedAlike (storedText rt x) (storedText rt y) → KeysMisread rt x y

theorem agreeUpTo_iff {n : ℕ} {cs ds : List Char} : AgreeUpTo n cs ds ↔ cs.take n = ds.take n := by
  constructor
  · intro h
    refine List.ext_getElem? fun i => ?_
    rw [List.getElem?_take, List.getElem?_take]
    split_ifs with hi
    · exact h i hi
    · rfl
  · intro h i hi
    rw [← List.getElem?_take_of_lt hi, h, List.getElem?_take_of_lt hi]

theorem paddedAlike_iff {cs ds : List Char} :
    PaddedAlike cs ds ↔ stripChars cs ≠ [] ∧ stripChars cs = stripChars ds := by
  constructor
  · rintro ⟨core, hne, hcore, ⟨l, r, hl, hr, rfl⟩, l', r', hl', hr', rfl⟩
    rw [stripChars_append hl hr hcore hne, stripChars_append hl' hr' hcore hne]
    exact ⟨hne, rfl⟩
  · rintro ⟨hne, heq⟩
    obtain ⟨l, r, hl, hr, hcs, hcore⟩ := stripChars_spec cs
    obtain ⟨l', r', hl', hr', hds, -⟩ := stripChars_spec ds
    rw [← heq] at hds
    exact ⟨stripChars cs, hne, hcore, ⟨l, r, hl, hr, hcs⟩, l', r', hl', hr', hds⟩

/-- A text is padded like itself exactly if it is not blank. -/
theorem paddedAlike_self {cs : List Char} : PaddedAlike cs cs ↔ ¬ Blank cs := by
  rw [paddedAlike_iff, ne_eq, stripChars_eq_nil]
  exact and_iff_left rfl

/-- Texts that begin alike are both empty or neither. -/
theorem AgreeUpTo.eq_nil {cs ds : List Char} (h : AgreeUpTo 128 cs ds) (hcs : cs = []) : ds = [] := by
  rw [hcs, agreeUpTo_iff, List.take_nil, eq_comm, List.take_eq_nil_iff] at h
  exact h.resolve_left (by decide)

/-- What is blank for one side is a string, and so it is posted as it comes back. -/
theorem postedText_eq_storedText {rt : Runtime} {x : Body} (h : Blank (postedText rt x) ∨ Blank (storedText rt x)) :
    postedText rt x = storedText rt x := by
  have hstring : (keyOf x).IsString := by
    rcases h with hposted | hstored
    · exact Loaded.isString_of_blank hposted
    · exact Loaded.isString_column.mp (Loaded.isString_of_blank hstored)
  obtain ⟨s, hs⟩ := hstring
  rw [postedText, storedText, hs, Loaded.column_string]

section

variable {rt : Runtime} {x y : Body} {a b : AlertMessage}

/-- The text the view makes of a key. -/
theorem getStr_posted : (x.seen rt.printable).getStr "idempotency_key" (.string "") = String.ofList (postedText rt x) := by
  have hseen := @Body.getStr_seen rt.printable x "idempotency_key" (.string "")
  exact hseen.trans String.ofList_toList.symm

/-- The text the worker makes of a key. -/
theorem getStr_stored : (rt.readBack x).getStr "idempotency_key" (.string "") = String.ofList (storedText rt x) := by
  have hseen := @Body.getStr_seen rt.printable x.column "idempotency_key" (.string "")
  have hkey : (x.column.lookup "idempotency_key").getD (.string "") = (keyOf x).column := by
    rw [Body.lookup_column, keyOf]
    cases x.lookup "idempotency_key" <;> rfl
  rw [hkey] at hseen
  exact hseen.trans String.ofList_toList.symm

/-- The view keeps the first 128 characters. -/
theorem sameAnchor_iff (ha : Anchors rt x a) (hb : Anchors rt y b) :
    SameAnchor a b ↔ postedText rt x ≠ [] ∧ AgreeUpTo 128 (postedText rt x) (postedText rt y) := by
  have hidem (z : Body) : idemOf (z.seen rt.printable) = String.ofList ((postedText rt z).take 128) := by
    rw [idemOf, getStr_posted, truncate, String.toList_ofList]
  have hempty : idemOf (x.seen rt.printable) = "" ↔ postedText rt x = [] := by
    show _ = String.ofList [] ↔ _
    rw [hidem, String.ofList_inj, List.take_eq_nil_iff]
    exact or_iff_right (by decide)
  rw [SameAnchor, ha.idempotencyKey, hb.idempotencyKey, ne_eq, hempty, hidem, hidem, String.ofList_inj, agreeUpTo_iff]

theorem idemKeyOf_anchored (ha : Anchors rt x a) : idemKeyOf a.bodyJson = String.ofList (stripChars (storedText rt x)) := by
  rw [ha.bodyJson, idemKeyOf, getStr_stored, strip, String.toList_ofList]

/-- The client order id of an alert with a key. -/
theorem clientOrderIdOf_of_key (h : idemKeyOf a.bodyJson ≠ "") :
    clientOrderIdOf rt a = "stp-" ++ digestOf rt a.user (idemKeyOf a.bodyJson) := if_pos h

/-- The worker takes the blanks off. -/
theorem sameClientOrderId_iff (ha : Anchors rt x a) (hb : Anchors rt y b) (huser : a.user = b.user)
    (hsha : digestOf rt a.user (idemKeyOf a.bodyJson) = digestOf rt b.user (idemKeyOf b.bodyJson) →
      idemKeyOf a.bodyJson = idemKeyOf b.bodyJson) :
    SameClientOrderId rt a b ↔ PaddedAlike (storedText rt x) (storedText rt y) := by
  have hempty : idemKeyOf a.bodyJson = "" ↔ stripChars (storedText rt x) = [] := by
    show _ = String.ofList [] ↔ _
    rw [idemKeyOf_anchored ha, String.ofList_inj]
  have hsame : idemKeyOf a.bodyJson = idemKeyOf b.bodyJson ↔
      stripChars (storedText rt x) = stripChars (storedText rt y) := by
    rw [idemKeyOf_anchored ha, idemKeyOf_anchored hb, String.ofList_inj]
  rw [paddedAlike_iff, ← hsame, ne_eq, ← hempty]
  constructor
  · rintro ⟨hkey, hkey', hid⟩
    rw [clientOrderIdOf_of_key hkey, clientOrderIdOf_of_key hkey', String.append_right_inj] at hid
    exact ⟨hkey, hsha hid⟩
  · rintro ⟨hkey, hkeys⟩
    have hkey' : idemKeyOf b.bodyJson ≠ "" := hkeys ▸ hkey
    refine ⟨hkey, hkey', ?_⟩
    rw [clientOrderIdOf_of_key hkey, clientOrderIdOf_of_key hkey', huser, hkeys]

/-! ### When the readings agree -/

/-- **The view and the worker agree on whether two alerts of a user are the same** exactly if their
keys are of none of the kinds they part on. -/
theorem duplicates_agree_iff (ha : Anchors rt x a) (hb : Anchors rt y b) (huser : a.user = b.user)
    (hsha : digestOf rt a.user (idemKeyOf a.bodyJson) = digestOf rt b.user (idemKeyOf b.bodyJson) →
      idemKeyOf a.bodyJson = idemKeyOf b.bodyJson) :
    (SameAnchor a b ↔ SameClientOrderId rt a b) ↔ ¬ KeysMisread rt x y := by
  rw [sameAnchor_iff ha hb, sameClientOrderId_iff ha hb huser hsha]
  constructor
  · rintro hagree (⟨hsame, hne, hblank⟩ | ⟨hpadded, hdiffer⟩ | ⟨hsame, hdiffer, hpadded⟩)
    · -- blanks come back as they are posted, and the worker takes them off
      have hpadded := hagree.mp ⟨hne, agreeUpTo_iff.mpr (by rw [hsame])⟩
      rw [← postedText_eq_storedText (.inl hblank), ← postedText_eq_storedText (.inl (hsame ▸ hblank)), ← hsame] at hpadded
      exact paddedAlike_self.mp hpadded hblank
    · exact hdiffer (hagree.mpr hpadded).2
    · refine hpadded (hagree.mp ⟨fun hnil => hdiffer ?_, hsame⟩)
      have hnil' := hsame.eq_nil hnil
      rw [← postedText_eq_storedText (.inl (hnil ▸ List.forall_mem_nil _)),
        ← postedText_eq_storedText (.inl (hnil' ▸ List.forall_mem_nil _)), hnil, hnil']
  · intro hnot
    constructor
    · rintro ⟨hne, hsame⟩
      by_contra hpadded
      by_cases heq : storedText rt x = storedText rt y
      · -- one text comes back that is not padded like itself: it is blank, and so is what was posted
        have hblank : Blank (storedText rt x) := not_not.mp (mt paddedAlike_self.mpr (heq ▸ hpadded))
        have hx := postedText_eq_storedText (.inr hblank)
        have hy := postedText_eq_storedText (.inr (heq ▸ hblank))
        exact hnot (.blank (hx.trans (heq.trans hy.symm)) hne (hx ▸ hblank))
      · exact hnot (.cut hsame heq hpadded)
    · intro hpadded
      refine ⟨fun hnil => ?_, by_contra fun hdiffer => hnot (.padded hpadded hdiffer)⟩
      rw [← postedText_eq_storedText (.inl (hnil ▸ List.forall_mem_nil _)), hnil] at hpadded
      exact (paddedAlike_iff.mp hpadded).1 rfl

end

/-- A body with a key. -/
def sampleBody (key : Loaded) : Body :=
  [("action", .string "buy"), ("symbol", .string "AAPL"), ("qty", .int 10), ("idempotency_key", key)]

theorem anchors_sampleAlert : Anchors sampleRuntime (sampleBody (.string "k")) (sampleAlert "a1" "k") ∧
    Anchors sampleRuntime (sampleBody (.string "l")) (sampleAlert "a2" "l") ∧
    Anchors sampleRuntime (sampleBody (.string " k")) (sampleAlert "a2" " k") :=
  ⟨⟨by decide +kernel, by decide +kernel⟩, ⟨by decide +kernel, by decide +kernel⟩,
    by decide +kernel, by decide +kernel⟩

/-- Two keys without blanks that differ at once: neither side takes one for the other. -/
theorem duplicates_agree_keys :
    (SameAnchor (sampleAlert "a1" "k") (sampleAlert "a2" "l") ↔
      SameClientOrderId sampleRuntime (sampleAlert "a1" "k") (sampleAlert "a2" "l")) ↔
      ¬ KeysMisread sampleRuntime (sampleBody (.string "k")) (sampleBody (.string "l")) :=
  duplicates_agree_iff anchors_sampleAlert.1 anchors_sampleAlert.2.1 rfl fun h => absurd h (by decide +kernel)

/-- The keys `k` and ` k`: two rows, and one client order id. -/
theorem not_duplicates_agree_blank :
    ¬ ∀ (rt : Runtime) (x y : Body) (a b : AlertMessage), Anchors rt x a → Anchors rt y b → a.user = b.user →
      (digestOf rt a.user (idemKeyOf a.bodyJson) = digestOf rt b.user (idemKeyOf b.bodyJson) →
        idemKeyOf a.bodyJson = idemKeyOf b.bodyJson) →
      (SameAnchor a b ↔ SameClientOrderId rt a b) := by
  intro h
  have hagree := h sampleRuntime _ _ _ _ anchors_sampleAlert.1 anchors_sampleAlert.2.2 rfl fun _ => by decide +kernel
  have hworker : SameClientOrderId sampleRuntime (sampleAlert "a1" "k") (sampleAlert "a2" " k") :=
    ⟨by decide +kernel, by decide +kernel, by decide +kernel⟩
  exact absurd (hagree.mpr hworker).2 (by decide +kernel)

-- `1e22` comes back as an integer, which is written otherwise
example : String.ofList (postedText sampleRuntime (sampleBody (.float sampleFloat))) = "1e+22" ∧
    String.ofList (storedText sampleRuntime (sampleBody (.float sampleFloat))) = "10000000000000000000000" := by
  decide +kernel

/-! ### What the readings decide -/

/-- The table lets an alert in unless it holds one with the same primary key or, for the same user,
the same anchor. -/
theorem canInsert_iff {s : State} {b : AlertMessage} :
    s.canInsert b = true ↔ ∀ a ∈ s.alerts.rows, a.id ≠ b.id ∧ ¬ (a.user = b.user ∧ SameAnchor a b) := by
  unfold State.canInsert
  rw [List.all_eq_true]
  refine forall₂_congr fun a _ => ?_
  rw [Bool.and_eq_true, decide_eq_true_iff]
  refine and_congr_right fun _ => ?_
  rw [Bool.or_eq_true, decide_eq_true_iff, decide_eq_true_iff]
  constructor
  · rintro (hempty | hdiffer) ⟨huser, hne, hsame⟩
    · exact hne (hsame.trans hempty)
    · exact hdiffer ⟨huser, hsame⟩
  · intro h
    by_cases hempty : b.idempotencyKey = ""
    · exact .inl hempty
    · exact .inr fun ⟨huser, hsame⟩ => h ⟨huser, hsame ▸ hempty, hsame⟩

/-- An admitted alert is skipped when the order of an alert that the worker takes for the same one is
there. -/
theorem processAlert_skips {rt : Runtime} {env : WorkerEnv} {s : State} {a b : AlertMessage}
    {strategy : Strategy} {account : BrokerAccount} (h : s.loadAlert b.id = some (b, strategy))
    (hreceived : b.status = .received) (hadmitted : admitted rt s b strategy = .ok account) {order : Order}
    (horder : s.db.orders.find? (clientOrderIdOf rt a) = some order) (hsame : SameClientOrderId rt a b) :
    (processAlert rt env b.id).run s = (s, some (.duplicateClientOrderId (clientOrderIdOf rt a))) := by
  rw [hsame.2.2] at horder ⊢
  exact processAlert_duplicate h hreceived hadmitted horder

-- both alerts of `sampleState` have a row, and the second is skipped
example : ((processAlert sampleRuntime sampleWorkerEnv "a2").run
    ((processAlert sampleRuntime sampleWorkerEnv "a1").run sampleState).1).2 =
      some (.duplicateClientOrderId "stp-ed1c5fb31de7acab679ea707ff093f8b") := by decide +kernel

end StratTrader.Webhooks
