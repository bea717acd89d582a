import StratTrader.Foundation.Interrupted
import Mathlib.Data.List.Basic

/-!
# The upload of a strategy

`StrategiesListCreateView.post` of `strategies/views.py`, from a bundle on that is valid: a strategy is inserted, then
its three files, and at last the answer is made. There is no transaction around the inserts, so that each one is
committed by itself.

## What is proved

* `uploads_allOrNothing_iff`: an upload is all or nothing where nothing fails, or already the first insert does.

## Honest scope

An insert that fails writes nothing. The slug, the name and the id of the strategy are free, and so are the digests of
the files.
-/

namespace StratTrader.Strategies

open Foundation (writeAll writeAll_of_none writeAll_of_some exists_first_failure)

/-- `StrategyFile.Kind`. -/
inductive Kind where
  /-- `PINE`. -/
  | pine
  /-- `DESC`. -/
  | desc
  /-- `WEBHOOK_TEMPLATE`. -/
  | webhookTemplate
  deriving DecidableEq

/-- `Strategy`. -/
structure Strategy where
  /-- `id`. -/
  id : ℕ
  /-- `owner`. -/
  owner : Option ℕ
  /-- `name`. -/
  name : String
  /-- `slug`. -/
  slug : String
  /-- `description_short`. -/
  descriptionShort : String := ""
  /-- `is_system`. -/
  isSystem : Bool := false
  /-- `is_enabled`. -/
  isEnabled : Bool := true
  /-- `is_community_tested`. -/
  isCommunityTested : Bool := false

/-- `StrategyFile`. -/
structure StrategyFile where
  /-- `strategy`. -/
  strategy : ℕ
  /-- `kind`. -/
  kind : Kind
  /-- `filename`. -/
  filename : String
  /-- `sha256`. -/
  sha256 : String
  /-- `content`. -/
  content : List UInt8
  /-- `size_bytes`. -/
  sizeBytes : ℕ

/-- The tables. -/
structure Tables where
  /-- The strategies. -/
  strategies : List Strategy
  /-- Their files. -/
  files : List StrategyFile

/-- `ParsedBundle`. -/
structure ParsedBundle where
  /-- `pine_filename`. -/
  pineFilename : String
  /-- `pine_bytes`. -/
  pineBytes : List UInt8
  /-- `pine_sha256`. -/
  pineSha256 : String
  /-- `desc_filename`. -/
  descFilename : String
  /-- `desc_bytes`. -/
  descBytes : List UInt8
  /-- `desc_sha256`. -/
  descSha256 : String
  /-- `webhook_filename`. -/
  webhookFilename : String
  /-- `webhook_bytes`. -/
  webhookBytes : List UInt8
  /-- `webhook_sha256`. -/
  webhookSha256 : String

/-- An upload that is valid. -/
structure Upload where
  /-- The id of the strategy. -/
  id : ℕ
  /-- Who uploads it. -/
  user : ℕ
  /-- `slug`. -/
  slug : String
  /-- `display_name`. -/
  displayName : String
  /-- `parsed`. -/
  parsed : ParsedBundle

/-- How a step fails. -/
inductive Failure where
  /-- It raises. -/
  | raises
  /-- The process is gone. -/
  | gone
  deriving DecidableEq

/-- How a request ends. -/
inductive Response where
  /-- 201. -/
  | created
  /-- 500, `Failed to persist strategy.` -/
  | failedToPersist
  /-- 500, from an exception that is not caught. -/
  | serverError
  /-- No response. -/
  | nothing
  deriving DecidableEq

/-- An insert. -/
inductive Insert where
  /-- Of a strategy. -/
  | strategy (row : Strategy)
  /-- Of a file. -/
  | file (row : StrategyFile)

/-- What an insert writes. -/
def Tables.insert (t : Tables) : Insert → Tables
  | .strategy row => { t with strategies := t.strategies ++ [row] }
  | .file row => { t with files := t.files ++ [row] }

/-- `s[:n]`. -/
def cut (n : ℕ) (s : String) : String := String.ofList (s.toList.take n)

/-- The strategy of an upload. -/
def Upload.strategy (u : Upload) : Strategy where
  id := u.id
  owner := some u.user
  name := cut 64 u.displayName
  slug := u.slug
  descriptionShort := "User-uploaded strategy. Untested."

/-- A file of an upload. -/
def Upload.file (u : Upload) (kind : Kind) (filename : String) (blob : List UInt8) (digest : String) : StrategyFile where
  strategy := u.id
  kind := kind
  filename := cut 128 filename
  sha256 := digest
  content := blob
  sizeBytes := blob.length

/-- The files of an upload. -/
def Upload.files (u : Upload) : List StrategyFile :=
  [u.file .pine u.parsed.pineFilename u.parsed.pineBytes u.parsed.pineSha256,
    u.file .desc u.parsed.descFilename u.parsed.descBytes u.parsed.descSha256,
    u.file .webhookTemplate u.parsed.webhookFilename u.parsed.webhookBytes u.parsed.webhookSha256]

/-- The inserts of an upload. -/
def Upload.inserts (u : Upload) : List Insert := .strategy u.strategy :: u.files.map .file

/-- The step behind the inserts: the gauge, the audit event and the answer. -/
def tailStep : ℕ := 4

/-- `post`, where a plan says which of its steps fail. -/
def post (plan : ℕ → Option Failure) (u : Upload) (t : Tables) : Tables × Response :=
  match writeAll Tables.insert plan 0 u.inserts t with
  | (t, some .raises) => (t, .failedToPersist)
  | (t, some .gone) => (t, .nothing)
  | (t, none) =>
    match plan tailStep with
    | some .raises => (t, .serverError)
    | some .gone => (t, .nothing)
    | none => (t, .created)

/-! ### What is stored -/

/-- A strategy has all three files. -/
def Complete (t : Tables) (id : ℕ) : Prop := ∀ kind, ∃ file ∈ t.files, file.strategy = id ∧ file.kind = kind

/-- An upload that does not succeed leaves no row, and one that leaves a strategy leaves its files. -/
def AllOrNothing (plan : ℕ → Option Failure) (u : Upload) (t : Tables) : Prop :=
  ((post plan u t).2 ≠ .created → (post plan u t).1 = t) ∧
    ∀ row ∈ (post plan u t).1.strategies, row ∈ t.strategies ∨ Complete (post plan u t).1 row.id

theorem foldl_insert_files (files : List StrategyFile) (t : Tables) :
    (files.map Insert.file).foldl Tables.insert t = { t with files := t.files ++ files } := by
  induction files generalizing t with
  | nil => rw [List.append_nil]; rfl
  | cons file files ih =>
    rw [List.map_cons, List.foldl_cons, ih]
    simp only [Tables.insert, List.append_assoc, List.singleton_append]

/-- Everything that an upload writes. -/
theorem foldl_inserts (u : Upload) (t : Tables) :
    u.inserts.foldl Tables.insert t = ⟨t.strategies ++ [u.strategy], t.files ++ u.files⟩ :=
  foldl_insert_files u.files _

/-- A file of each kind is uploaded. -/
theorem complete_files (u : Upload) (t : Tables) : Complete ⟨t.strategies ++ [u.strategy], t.files ++ u.files⟩ u.id := by
  intro kind
  cases kind with
  | pine => exact ⟨_, List.mem_append_right _ (.head _), rfl, rfl⟩
  | desc => exact ⟨_, List.mem_append_right _ (.tail _ (.head _)), rfl, rfl⟩
  | webhookTemplate => exact ⟨_, List.mem_append_right _ (.tail _ (.tail _ (.head _))), rfl, rfl⟩

/-- What is written before a failure behind the first insert. -/
theorem foldl_take_inserts (u : Upload) (t : Tables) (k : ℕ) :
    (u.inserts.take (k + 1)).foldl Tables.insert t = ⟨t.strategies ++ [u.strategy], t.files ++ u.files.take k⟩ := by
  rw [Upload.inserts, List.take_succ_cons, ← List.map_take]
  exact foldl_insert_files (u.files.take k) _

/-- A table with one strategy more is another one. -/
theorem insert_strategy_ne (t : Tables) (row : Strategy) (files : List StrategyFile) :
    (⟨t.strategies ++ [row], files⟩ : Tables) ≠ t := by
  intro h
  have hlen := congrArg (fun t : Tables => t.strategies.length) h
  simp only [List.length_append, List.length_singleton] at hlen
  omega

/-- How a request ends that does not get through. -/
def Failure.response : Failure → Response
  | raises => .failedToPersist
  | gone => .nothing

section
variable {plan : ℕ → Option Failure}

/-- All the inserts succeed. -/
theorem writeAll_inserts (h : ∀ k < 4, plan k = none) (u : Upload) (t : Tables) :
    writeAll Tables.insert plan 0 u.inserts t = (⟨t.strategies ++ [u.strategy], t.files ++ u.files⟩, none) := by
  rw [← foldl_inserts]
  refine writeAll_of_none (fun k hk => ?_) t
  rw [Nat.zero_add]
  exact h k hk

/-- Nothing fails. -/
theorem post_of_none (h : ∀ k < 5, plan k = none) (u : Upload) (t : Tables) :
    post plan u t = (⟨t.strategies ++ [u.strategy], t.files ++ u.files⟩, .created) := by
  have hwritten := writeAll_inserts (fun k hk => h k (Nat.lt_succ_of_lt hk)) u t
  have htail : plan tailStep = none := h 4 (by decide)
  rw [post, hwritten, htail]

/-- An insert fails. -/
theorem post_of_insert_fails {k : ℕ} {failure : Failure} (hk : k < 4) (hfails : plan k = some failure)
    (hbefore : ∀ j < k, plan j = none) (u : Upload) (t : Tables) :
    post plan u t = ((u.inserts.take k).foldl Tables.insert t, failure.response) := by
  have hwritten : writeAll Tables.insert plan 0 u.inserts t = ((u.inserts.take k).foldl Tables.insert t, some failure) :=
    writeAll_of_some hk (fun j hj => (Nat.zero_add j).symm ▸ hbefore j hj) ((Nat.zero_add k).symm ▸ hfails) t
  rw [post, hwritten]
  cases failure <;> rfl

/-- The step behind the inserts fails. -/
theorem post_of_tail_fails {failure : Failure} (hfails : plan 4 = some failure) (hbefore : ∀ j < 4, plan j = none)
    (u : Upload) (t : Tables) :
    (post plan u t).1 = ⟨t.strategies ++ [u.strategy], t.files ++ u.files⟩ ∧ (post plan u t).2 ≠ .created := by
  have hwritten := writeAll_inserts hbefore u t
  have htail : plan tailStep = some failure := hfails
  rw [post, hwritten, htail]
  cases failure <;> exact ⟨rfl, nofun⟩

/-- A strategy that is left behind without success. -/
theorem not_allOrNothing {u : Upload} {t : Tables} {files : List StrategyFile}
    (htables : (post plan u t).1 = ⟨t.strategies ++ [u.strategy], files⟩) (hresponse : (post plan u t).2 ≠ .created) :
    ¬ AllOrNothing plan u t := by
  intro h
  exact insert_strategy_ne t u.strategy files (htables.symm.trans (h.1 hresponse))

/-- An upload is all or nothing where nothing fails, or already the first insert does. -/
theorem allOrNothing_iff (u : Upload) (t : Tables) :
    AllOrNothing plan u t ↔ (∀ k < 5, plan k = none) ∨ plan 0 ≠ none := by
  obtain hnone | ⟨k, hk, failure, hfails, hbefore⟩ := exists_first_failure plan 5
  · refine iff_of_true ?_ (.inl hnone)
    unfold AllOrNothing
    rw [post_of_none hnone]
    refine ⟨fun h => absurd rfl h, fun row hrow => ?_⟩
    obtain hold | hnew := List.mem_append.mp hrow
    · exact .inl hold
    · rw [List.mem_singleton.mp hnew]
      exact .inr (complete_files u t)
  · have hsome : ¬ ∀ k < 5, plan k = none := by
      intro h
      rw [h k hk] at hfails
      cases hfails
    rw [or_iff_right hsome]
    cases k with
    | zero =>
      have hfirst : plan 0 ≠ none := by
        rw [hfails]
        exact Option.some_ne_none _
      refine iff_of_true ?_ hfirst
      unfold AllOrNothing
      rw [post_of_insert_fails (by decide) hfails hbefore]
      exact ⟨fun _ => rfl, fun row hrow => .inl hrow⟩
    | succ k =>
      have hfirst : ¬ plan 0 ≠ none := fun h => h (hbefore 0 (Nat.succ_pos _))
      refine iff_of_false ?_ hfirst
      by_cases htail : k + 1 = 4
      · rw [htail] at hfails hbefore
        obtain ⟨htables, hresponse⟩ := post_of_tail_fails hfails hbefore u t
        exact not_allOrNothing htables hresponse
      · have hpost := post_of_insert_fails (by omega) hfails hbefore u t
        have htables := (congrArg Prod.fst hpost).trans (foldl_take_inserts u t k)
        refine not_allOrNothing htables ?_
        rw [hpost]
        cases failure <;> exact nofun

/-- Where an upload is all or nothing, it writes all or nothing. -/
theorem post_of_harmless (h : (∀ k < 5, plan k = none) ∨ plan 0 ≠ none) (u : Upload) (t : Tables) :
    (post plan u t).1 = t ∨ (post plan u t).1 = ⟨t.strategies ++ [u.strategy], t.files ++ u.files⟩ := by
  obtain hnone | hfirst := h
  · exact .inr (congrArg Prod.fst (post_of_none hnone u t))
  · obtain ⟨failure, hfails⟩ := Option.ne_none_iff_exists'.mp hfirst
    have hpost := post_of_insert_fails (by decide) hfails (fun j hj => absurd hj (Nat.not_lt_zero j)) u t
    exact .inl (congrArg Prod.fst hpost)

end

/-- A strategy keeps its files. -/
theorem Complete.mono {t t' : Tables} {id : ℕ} (h : Complete t id) (hsub : t.files ⊆ t'.files) : Complete t' id := by
  intro kind
  obtain ⟨file, hfile, hkind⟩ := h kind
  exact ⟨file, hsub hfile, hkind⟩

/-- Every strategy that is new has its files. -/
def NewComplete (t t' : Tables) : Prop := ∀ row ∈ t'.strategies, row ∈ t.strategies ∨ Complete t' row.id

theorem NewComplete.post {t₀ t : Tables} (h : NewComplete t₀ t) {plan : ℕ → Option Failure}
    (hplan : (∀ k < 5, plan k = none) ∨ plan 0 ≠ none) (u : Upload) : NewComplete t₀ (post plan u t).1 := by
  obtain hsame | hall := post_of_harmless hplan u t
  · rw [hsame]
    exact h
  · rw [hall]
    intro row hrow
    obtain hold | hnew := List.mem_append.mp hrow
    · exact (h row hold).imp_right fun hcomplete => hcomplete.mono (List.subset_append_left _ _)
    · rw [List.mem_singleton.mp hnew]
      exact .inr (complete_files u t)

/-- Some uploads, each with its plan. -/
def postAll (uploads : List ((ℕ → Option Failure) × Upload)) (t : Tables) : Tables :=
  uploads.foldl (fun t p => (post p.1 p.2 t).1) t

theorem NewComplete.postAll {t₀ t : Tables} (h : NewComplete t₀ t) {uploads : List ((ℕ → Option Failure) × Upload)}
    (huploads : ∀ p ∈ uploads, (∀ k < 5, p.1 k = none) ∨ p.1 0 ≠ none) : NewComplete t₀ (postAll uploads t) := by
  induction uploads generalizing t with
  | nil => exact h
  | cons p uploads ih => exact ih (h.post (huploads p (.head _)) p.2) fun q hq => huploads q (.tail _ hq)

/-- **An upload is all or nothing exactly where nothing fails, or already the first insert does**, and behind uploads
like that every strategy that is new has its files. -/
theorem uploads_allOrNothing_iff (t : Tables) :
    (∀ (plan : ℕ → Option Failure) (u : Upload),
      AllOrNothing plan u t ↔ (∀ k < 5, plan k = none) ∨ plan 0 ≠ none) ∧
      ∀ uploads : List ((ℕ → Option Failure) × Upload),
        (∀ p ∈ uploads, (∀ k < 5, p.1 k = none) ∨ p.1 0 ≠ none) → NewComplete t (postAll uploads t) := by
  refine ⟨fun plan u => allOrNothing_iff u t, fun uploads huploads => ?_⟩
  have hstart : NewComplete t t := fun row hrow => .inl hrow
  exact hstart.postAll huploads

/-- An upload of empty files. -/
def emptyUpload : Upload :=
  ⟨1, 7, "alpha", "alpha", "alpha.pine", [], "", "alpha_Description.txt", [], "", "alpha_Webhook.json", [], ""⟩

/-- **A description that is not inserted leaves half of a strategy.** -/
theorem not_uploads_allOrNothing : ¬ ∀ (plan : ℕ → Option Failure) (u : Upload) (t : Tables), AllOrNothing plan u t := by
  intro h
  have hhalf := (h (fun k => if k = 2 then some .raises else none) emptyUpload ⟨[], []⟩).1 (by decide)
  exact absurd (congrArg (fun t => t.strategies.length) hhalf) (by decide)

end StratTrader.Strategies
