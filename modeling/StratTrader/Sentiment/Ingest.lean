import StratTrader.Foundation.Python
import StratTrader.Foundation.Table
import Mathlib.Data.Char
import Mathlib.Data.List.Dedup
import Mathlib.Data.List.Lex
import Mathlib.Data.List.Sort
import Mathlib.Logic.Equiv.Basic

/-!
# Ingesting news

`sentiment/services.py`: a raw article is cut, stripped and tagged, and stored unless the table has a row with its
hash already. The table is one with a unique `dedup_hash`.

## What is proved

* `ingestArticle_of_found`, `ingestArticle_of_new`: an article is stored, or the row of its hash is given back.
* `rows_ingestAll`: articles that are ingested leave the rows before them where they are.
* `symbolsText_of_mem`: the text of every row is that of its symbols.

## Honest scope

What the code has of libraries and of other tables is a parameter: what a text is in upper and in lower case, the
hash, the HTML parser, the patterns, the symbols that the registry and the aliases find in a text. So is whether the
columns are wide enough for a row: one that they do not hold is not stored, and the insert raises.
-/

namespace StratTrader.Sentiment

open StratTrader.Foundation

/-- `NewsArticle.Source`. -/
inductive Source where
  /-- `FMP`. -/
  | fmp
  /-- `EDGAR`. -/
  | edgar
  /-- `BENZINGA`. -/
  | benzinga
  /-- `NASDAQ_HALTS`. -/
  | nasdaqHalts
  /-- `FINNHUB`. -/
  | finnhub
  /-- `ALPACA`. -/
  | alpaca
  deriving DecidableEq

/-- `RawArticle`. -/
structure RawArticle where
  /-- `source`. -/
  source : Source
  /-- `title`. -/
  title : Option (List Char)
  /-- `url`. -/
  url : Option (List Char)
  /-- `body`. -/
  body : Option (List Char)
  /-- `published_at`. -/
  publishedAt : Option (List Char)
  /-- `symbols`. -/
  symbols : List (List Char)

/-- `NewsArticle`. -/
structure NewsArticle where
  /-- `source`. -/
  source : Source
  /-- `url`. -/
  url : List Char
  /-- `title`. -/
  title : List Char
  /-- `body`. -/
  body : List Char
  /-- `dedup_hash`. -/
  dedupHash : List Char
  /-- `symbols`. -/
  symbols : List (List Char)
  /-- `symbols_text`. -/
  symbolsText : List Char
  /-- `material`. -/
  material : Bool
  /-- `published_at`. -/
  publishedAt : Option ℤ
  /-- `fetched_at`, in microseconds. -/
  fetchedAt : ℤ
  deriving DecidableEq

/-- What the code has of libraries and of other tables. -/
structure Runtime where
  /-- `str.upper`. -/
  upper : List Char → List Char
  /-- `str.lower`. -/
  lower : List Char → List Char
  /-- Blanks behind a text are not changed, and change nothing. -/
  lower_blanks : ∀ cs blanks, Blank blanks → lower (cs ++ blanks) = lower cs ++ blanks
  /-- What begins and ends with no blank does so in lower case. -/
  lower_trimmed : ∀ cs, Trimmed cs → Trimmed (lower cs)
  /-- `hashlib.sha256(s.encode()).hexdigest()`. -/
  sha256 : List Char → List Char
  /-- `strip_html` of a text that is not empty. -/
  stripHtml : List Char → List Char
  /-- The symbols of the registry and of the aliases that are found in a text. -/
  found : List Char → List (List Char)
  /-- `_MATERIAL_RE.search`. -/
  mentions : List Char → Bool
  /-- `_parse_published`. -/
  parsePublished : List Char → Option ℤ
  /-- The columns are wide enough for a row. -/
  holds : NewsArticle → Bool

section
variable (rt : Runtime)

/-! ### The parts of a row -/

/-- The text that is hashed for an address and a title. -/
def dedupText (url title : List Char) : List Char := stripChars url ++ '|' :: rt.lower (stripChars title)

/-- `dedup_hash`. -/
def dedupHash (url title : Option (List Char)) : List Char := rt.sha256 (dedupText rt (url.getD []) (title.getD []))

/-- `symbols_text`. -/
def symbolsText (symbols : List (List Char)) : List Char :=
  if symbols = [] then [] else ' ' :: ([' '].intercalate (symbols.take 24) ++ [' '])

/-- `is_material`. -/
def isMaterial (source : Source) (title body : List Char) : Bool :=
  if source = .edgar ∨ source = .nasdaqHalts then true else rt.mentions (title ++ ' ' :: body.take 400)

/-- `tag_symbols`. -/
def tagSymbols (text : List Char) (hintSymbols : List (List Char)) : List (List Char) :=
  let hints := (hintSymbols.filter fun s => decide (s ≠ [])).map fun s => stripChars (rt.upper s)
  (hints ++ rt.found text).dedup.insertionSort fun a b => a ≤ b

/-- The title of a raw article as it is stored. -/
def RawArticle.cutTitle (raw : RawArticle) : List Char := (stripChars (raw.title.getD [])).take 512

/-- The body of a raw article as it is stored. -/
def RawArticle.cutBody (raw : RawArticle) : List Char :=
  let body := raw.body.getD []
  (if body = [] then [] else rt.stripHtml body).take 20000

/-- The row of a raw article that is new. -/
def RawArticle.row (now : ℤ) (raw : RawArticle) : NewsArticle :=
  let title := raw.cutTitle
  let body := raw.cutBody rt
  let symbols := tagSymbols rt (title ++ '.' :: ' ' :: body.take 600) raw.symbols
  { source := raw.source
    url := (raw.url.getD []).take 1000
    title := title
    body := body
    dedupHash := dedupHash rt raw.url (some title)
    symbols := symbols
    symbolsText := symbolsText symbols
    material := isMaterial rt raw.source title body
    publishedAt := raw.publishedAt.bind rt.parsePublished
    fetchedAt := now }

/-! ### Storing -/

/-- The table. -/
abbrev Articles := Table NewsArticle.dedupHash

/-- A row that a column is too narrow for. -/
inductive DataError where
  /-- It is too long. -/
  | tooLong
  deriving DecidableEq

/-- `ingest_article`: the row, whether it is new, and the table. -/
def ingestArticle (now : ℤ) (raw : RawArticle) (t : Articles) :
    Except DataError (Option (NewsArticle × Bool) × Articles) :=
  if raw.cutTitle = [] then .ok (none, t)
  else
    let row := raw.row rt now
    match t.find? (dedupHash rt raw.url (some raw.cutTitle)) with
    | some row => .ok (some (row, false), t)
    | none => if rt.holds row then .ok (some (row, true), t.put row) else .error .tooLong

/-- The table behind an article, whether it was stored or not. -/
def ingestStep (t : Articles) (raw : ℤ × RawArticle) : Articles :=
  match ingestArticle rt raw.1 raw.2 t with
  | .ok (_, t') => t'
  | .error _ => t

/-- The table behind some articles, each with the time at which it is ingested. -/
def ingestAll (raws : List (ℤ × RawArticle)) (t : Articles) : Articles := raws.foldl (ingestStep rt) t

/-! ### What is stored -/

variable {rt} {now : ℤ} {raw : RawArticle} {t : Articles} {row : NewsArticle}

theorem ingestArticle_of_found (htitle : raw.cutTitle ≠ [])
    (h : t.find? (dedupHash rt raw.url (some raw.cutTitle)) = some row) :
    ingestArticle rt now raw t = .ok (some (row, false), t) := by
  rw [ingestArticle, if_neg htitle, h]

theorem ingestArticle_of_new (htitle : raw.cutTitle ≠ []) (hholds : rt.holds (raw.row rt now) = true)
    (h : t.find? (dedupHash rt raw.url (some raw.cutTitle)) = none) :
    ingestArticle rt now raw t = .ok (some (raw.row rt now, true), t.put (raw.row rt now)) := by
  rw [ingestArticle, if_neg htitle, h]
  exact if_pos hholds

/-- **An article is stored, or the row of its hash is given back**, or nothing becomes of it. -/
inductive Ingests (rt : Runtime) (now : ℤ) (raw : RawArticle) (t : Articles) :
    Except DataError (Option (NewsArticle × Bool) × Articles) → Prop where
  /-- It has no title. -/
  | untitled (htitle : raw.cutTitle = []) : Ingests rt now raw t (.ok (none, t))
  /-- The row of its hash is given back. -/
  | found {row : NewsArticle} (htitle : raw.cutTitle ≠ [])
      (hfound : t.find? (dedupHash rt raw.url (some raw.cutTitle)) = some row) :
      Ingests rt now raw t (.ok (some (row, false), t))
  /-- It is stored. -/
  | stored (htitle : raw.cutTitle ≠ []) (hnone : t.find? (dedupHash rt raw.url (some raw.cutTitle)) = none) :
      Ingests rt now raw t (.ok (some (raw.row rt now, true), t.put (raw.row rt now)))
  /-- A column is too narrow. -/
  | tooLong : Ingests rt now raw t (.error .tooLong)

theorem ingestArticle_ingests : Ingests rt now raw t (ingestArticle rt now raw t) := by
  by_cases htitle : raw.cutTitle = []
  · rw [ingestArticle, if_pos htitle]
    exact .untitled htitle
  · cases hfind : t.find? (dedupHash rt raw.url (some raw.cutTitle)) with
    | some row =>
      rw [ingestArticle_of_found htitle hfind]
      exact .found htitle hfind
    | none =>
      by_cases hholds : rt.holds (raw.row rt now) = true
      · rw [ingestArticle_of_new htitle hholds hfind]
        exact .stored htitle hfind
      · rw [ingestArticle, if_neg htitle, hfind]
        dsimp only
        rw [if_neg hholds]
        exact .tooLong

/-- The row that is given back is one of the table, under the hash of the article. -/
theorem find?_of_ingestArticle {created : Bool} {t' : Articles}
    (h : ingestArticle rt now raw t = .ok (some (row, created), t')) :
    raw.cutTitle ≠ [] ∧ t'.find? (dedupHash rt raw.url (some raw.cutTitle)) = some row := by
  have hingests := @ingestArticle_ingests rt now raw t
  rw [h] at hingests
  cases hingests with
  | found htitle hfound => exact ⟨htitle, hfound⟩
  | stored htitle _ => exact ⟨htitle, Table.find?_put_self _ _⟩

/-- An article leaves the table as it is, or is stored under a hash that is new. -/
theorem ingestStep_cases (rt : Runtime) (t : Articles) (raw : ℤ × RawArticle) :
    ingestStep rt t raw = t ∨
      t.find? (dedupHash rt raw.2.url (some raw.2.cutTitle)) = none ∧
        ingestStep rt t raw = t.put (raw.2.row rt raw.1) := by
  have hingests := @ingestArticle_ingests rt raw.1 raw.2 t
  unfold ingestStep
  generalize ingestArticle rt raw.1 raw.2 t = result at hingests ⊢
  cases hingests with
  | untitled htitle => exact .inl rfl
  | found htitle hfound => exact .inl rfl
  | stored htitle hnone => exact .inr ⟨hnone, rfl⟩
  | tooLong => exact .inl rfl

/-- What holds of the table, and of every row that is new, holds of the rows in the end. -/
theorem rows_ingestAll {p : NewsArticle → Prop} (hnew : ∀ now raw, p (RawArticle.row rt now raw))
    (raws : List (ℤ × RawArticle)) (h : ∀ row ∈ t.rows, p row) : ∀ row ∈ (ingestAll rt raws t).rows, p row := by
  induction raws generalizing t with
  | nil => exact h
  | cons raw raws ih =>
    refine ih ?_
    rcases ingestStep_cases rt t raw with hsame | ⟨-, hput⟩
    · rwa [hsame]
    · rw [hput]
      intro row hrow
      rcases Table.mem_put.mp hrow with rfl | ⟨hold, -⟩
      · exact hnew _ _
      · exact h row hold

/-- A row that is stored stays. -/
theorem find?_ingestAll (raws : List (ℤ × RawArticle)) {hash : List Char} (h : t.find? hash = some row) :
    (ingestAll rt raws t).find? hash = some row := by
  induction raws generalizing t with
  | nil => exact h
  | cons raw raws ih =>
    refine ih ?_
    rcases ingestStep_cases rt t raw with hsame | ⟨hnone, hput⟩
    · rwa [hsame]
    · rw [hput, Table.find?_put, if_neg]
      · exact h
      · rintro rfl
        exact absurd (hnone.symm.trans h) nofun

/-- **The text of every row is that of its symbols.** -/
theorem symbolsText_of_mem {raws : List (ℤ × RawArticle)} (hrow : row ∈ (ingestAll rt raws .empty).rows) :
    row.symbolsText = symbolsText row.symbols :=
  rows_ingestAll (p := fun row => row.symbolsText = symbolsText row.symbols) (fun _ _ => rfl) raws
    (fun _ hrow => absurd hrow List.not_mem_nil) row hrow

end

/-! ### ASCII texts -/

theorem toLower_of_isSpace {c : Char} (h : isSpace c = true) : c.toLower = c := by
  have hspace := of_decide_eq_true h
  unfold Char.toLower
  split_ifs with hupper
  · have hlow : 65 ≤ c.toNat := hupper.1
    have hhigh : c.toNat ≤ 90 := hupper.2
    omega
  · rfl

theorem isSpace_of_letter {c : Char} (hlow : 65 ≤ c.toNat) (hhigh : c.toNat ≤ 122) : isSpace c = false :=
  decide_eq_false (by omega)

theorem isSpace_toLower (c : Char) : isSpace c.toLower = isSpace c := by
  unfold Char.toLower
  split_ifs with hupper
  · have hlow : 65 ≤ c.val.toNat := hupper.1
    have hhigh : c.val.toNat ≤ 90 := hupper.2
    have hval : (c.val + 32).toNat = c.val.toNat + 32 := by
      rw [UInt32.toNat_add]
      have hthirtytwo : (32 : UInt32).toNat = 32 := rfl
      omega
    refine (isSpace_of_letter ?_ ?_).trans (isSpace_of_letter hlow (Nat.le_trans hhigh (by decide))).symm
    · change 65 ≤ (c.val + 32).toNat
      omega
    · change (c.val + 32).toNat ≤ 122
      omega
  · rfl

theorem map_toLower_blanks {blanks : List Char} (h : Blank blanks) : blanks.map Char.toLower = blanks := by
  rw [List.map_congr_left fun c hc => toLower_of_isSpace (h c hc), List.map_id']

/-- The text of an article that is ingested twice. -/
def sampleText : List Char := "http://x/1|apple beats earnings".toList

/-- Its digest. -/
def sampleDigest : List Char := "698a6752e88b636996cba04b2dbf389c3592b7a99e16a1246d225f3bc0997b5f".toList

/-- A runtime for ASCII texts, in which one text has its digest. -/
def asciiRuntime : Runtime where
  upper cs := cs.map Char.toUpper
  lower cs := cs.map Char.toLower
  lower_blanks cs blanks h := by rw [List.map_append, map_toLower_blanks h]
  lower_trimmed cs h := by
    constructor
    · intro c hc
      rw [List.head?_map] at hc
      obtain ⟨d, hd, rfl⟩ := Option.map_eq_some_iff.mp hc
      rw [isSpace_toLower]
      exact h.1 d hd
    · intro c hc
      rw [List.getLast?_map] at hc
      obtain ⟨d, hd, rfl⟩ := Option.map_eq_some_iff.mp hc
      rw [isSpace_toLower]
      exact h.2 d hd
  sha256 := Equiv.swap sampleText sampleDigest
  stripHtml cs := cs
  found _ := []
  mentions _ := false
  parsePublished _ := none
  holds _ := true

/-- An article with an address and a title only. -/
def articleOf (url title : String) : RawArticle := ⟨.fmp, some title.toList, some url.toList, none, none, []⟩

theorem ingestArticle_articleOf {url title : String} (now : ℤ) (htitle : (articleOf url title).cutTitle ≠ []) :
    ingestArticle asciiRuntime now (articleOf url title) .empty =
      .ok (some ((articleOf url title).row asciiRuntime now, true),
        Table.empty.put ((articleOf url title).row asciiRuntime now)) :=
  ingestArticle_of_new htitle rfl rfl

end StratTrader.Sentiment
