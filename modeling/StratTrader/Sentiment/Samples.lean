import StratTrader.Foundation.Lines
import StratTrader.Sentiment.Ingest

/-!
# The articles of a symbol

`_symbol_samples` of `sentiment/aggregator.py` looks for a symbol in the text of an article, which is padded with
blanks; the symbols of the text are the first of the list only. `aggregate_market` takes the symbols from the lists.

## What is proved

* `mem_symbolsText_iff`: a symbol is found in the text exactly if its words stand in a row in those of the first
  24 symbols.
* `used_eq_listed_iff`: the articles that are used are those that list the symbol exactly if the text misses none and
  mistakes none.
* `market_misses_none_iff`: the market misses no pair of an article and a symbol exactly if the texts miss none.

## Honest scope

A score is of any type, and so is the age of an article. A text is searched in upper and lower case as it is, as the
production database does.
-/

namespace StratTrader.Sentiment

open StratTrader.Foundation

/-- `ArticleScore.Model`. -/
inductive ScoreModel where
  /-- `FINBERT`. -/
  | finbert
  /-- `LLAMA`. -/
  | llama
  /-- `FALLBACK`. -/
  | fallback
  deriving DecidableEq

/-- `ArticleScore`. -/
structure ArticleScore (φ : Type) where
  /-- `model`. -/
  model : ScoreModel
  /-- `polarity`. -/
  polarity : φ
  /-- `impact`. -/
  impact : Option ℤ

/-- `WINDOW_MINUTES`. -/
def windowMinutes : ℤ := 1440

/-- The article was fetched within the window. -/
def InWindow (now : ℤ) (a : NewsArticle) : Prop := now - windowMinutes * 60 * 1000000 ≤ a.fetchedAt

instance instDecidableInWindow (now : ℤ) (a : NewsArticle) : Decidable (InWindow now a) :=
  inferInstanceAs (Decidable (_ ≤ _))

section
variable {φ : Type} (scores : NewsArticle → List (ArticleScore φ)) (ageHours : ℤ → φ)

/-- `by_model.get(model)`. -/
def byModel (model : ScoreModel) (a : NewsArticle) : Option (ArticleScore φ) :=
  (scores a).reverse.find? fun s => decide (s.model = model)

/-- The score that is chosen of an article. -/
def chosen (a : NewsArticle) : Option (ArticleScore φ) :=
  (byModel scores .llama a).orElse fun _ => byModel scores .finbert a

/-- The query of `_symbol_samples`. -/
def queried (symbol : List Char) (now : ℤ) (articles : List NewsArticle) : List NewsArticle :=
  articles.filter fun a => decide (' ' :: (symbol ++ [' ']) <:+: a.symbolsText) && decide (InWindow now a)

/-- The articles that its loop uses. -/
def used (symbol : List Char) (now : ℤ) (articles : List NewsArticle) : List NewsArticle :=
  (queried symbol now articles).filter fun a => (chosen scores a).isSome

/-- `_symbol_samples`. -/
def symbolSamples (symbol : List Char) (now : ℤ) (articles : List NewsArticle) : List (φ × φ) × List ℤ :=
  let articles := used scores symbol now articles
  (articles.filterMap fun a => (chosen scores a).map fun s => (s.polarity, ageHours (now - a.fetchedAt)),
    articles.filterMap fun a => (byModel scores .llama a).bind ArticleScore.impact)

/-- The symbols of `aggregate_market`. -/
def marketSymbols (now : ℤ) (articles : List NewsArticle) : List (List Char) :=
  ((articles.filter fun a => decide (InWindow now a)).flatMap NewsArticle.symbols).dedup

/-- The pairs of an article and a symbol that `aggregate_market` takes a sample of. -/
def marketPairs (now : ℤ) (articles : List NewsArticle) : List (NewsArticle × List Char) :=
  (marketSymbols now articles).flatMap fun symbol => (used scores symbol now articles).map fun a => (a, symbol)

/-! ### The text of the symbols -/

/-- The words of a symbol. -/
def wordsOf (symbol : List Char) : List (List Char) := symbol.splitOn ' '

/-- The words of a symbol stand in a row in those of the first symbols. -/
def InARow (symbol : List Char) (symbols : List (List Char)) : Prop :=
  wordsOf symbol <:+: (symbols.take 24).flatMap wordsOf

/-- A symbol of the list that the text does not have. -/
def Missed (symbol : List Char) (symbols : List (List Char)) : Prop :=
  symbol ∈ symbols.drop 24 ∧ ¬ InARow symbol symbols

/-- A symbol that the text has, and the list has not. -/
def Mistaken (symbol : List Char) (symbols : List (List Char)) : Prop := symbol ∉ symbols ∧ InARow symbol symbols

theorem padded_eq (symbol : List Char) : ' ' :: (symbol ++ [' ']) = ' ' :: ended ' ' (wordsOf symbol) := by
  rw [wordsOf, ended_splitOn]

theorem intercalate_append_blank {symbols : List (List Char)} (h : symbols ≠ []) :
    [' '].intercalate symbols ++ [' '] = ended ' ' (symbols.flatMap wordsOf) := by
  induction symbols with
  | nil => exact absurd rfl h
  | cons s symbols ih =>
    rw [List.flatMap_cons, ended_append, wordsOf, ended_splitOn]
    cases symbols with
    | nil => simp [ended]
    | cons s' symbols =>
      rw [← ih (List.cons_ne_nil _ _), List.intercalate_cons_cons, List.append_assoc]

theorem symbolsText_eq {symbols : List (List Char)} (h : symbols ≠ []) :
    symbolsText symbols = ' ' :: ended ' ' ((symbols.take 24).flatMap wordsOf) := by
  have hfirst : symbols.take 24 ≠ [] := by simpa using h
  rw [symbolsText, if_neg h, intercalate_append_blank hfirst]

/-- **A symbol is found in the text** exactly if its words stand in a row there. -/
theorem mem_symbolsText_iff (symbol : List Char) (symbols : List (List Char)) :
    ' ' :: (symbol ++ [' ']) <:+: symbolsText symbols ↔ InARow symbol symbols := by
  have hwords : ∀ s : List Char, ∀ w ∈ wordsOf s, ' ' ∉ w := not_mem_of_mem_splitOn
  by_cases hempty : symbols = []
  · subst hempty
    refine iff_of_false (fun h => ?_) fun h => ?_
    · exact absurd (List.infix_nil.mp h) (List.cons_ne_nil _ _)
    · exact List.splitOn_ne_nil ' ' symbol (List.infix_nil.mp h)
  · rw [symbolsText_eq hempty, padded_eq]
    refine cons_ended_isInfix_iff (hwords symbol) fun w hw => ?_
    obtain ⟨s, -, hs⟩ := List.mem_flatMap.mp hw
    exact hwords s w hs

/-- The first symbols are found. -/
theorem inARow_of_mem_take {symbol : List Char} {symbols : List (List Char)} (h : symbol ∈ symbols.take 24) :
    InARow symbol symbols := by
  obtain ⟨before, after, heq⟩ := List.append_of_mem h
  rw [InARow, heq, List.flatMap_append, List.flatMap_cons]
  exact ⟨before.flatMap wordsOf, after.flatMap wordsOf, List.append_assoc _ _ _⟩

/-- The text says of a symbol what the list says, if it neither misses it nor mistakes it. -/
theorem inARow_iff_mem_iff (symbol : List Char) (symbols : List (List Char)) :
    (InARow symbol symbols ↔ symbol ∈ symbols) ↔ ¬ Missed symbol symbols ∧ ¬ Mistaken symbol symbols := by
  constructor
  · intro h
    refine ⟨fun hmissed => ?_, fun hmistaken => hmistaken.1 (h.mp hmistaken.2)⟩
    exact hmissed.2 (h.mpr (List.mem_of_mem_drop hmissed.1))
  · rintro ⟨hmissed, hmistaken⟩
    constructor
    · intro hrow
      by_contra hnot
      exact hmistaken ⟨hnot, hrow⟩
    · intro hmem
      by_contra hrow
      rw [← List.take_append_drop 24 symbols] at hmem
      rcases List.mem_append.mp hmem with hfirst | hlater
      · exact hrow (inARow_of_mem_take hfirst)
      · exact hmissed ⟨hlater, hrow⟩

/-! ### The articles that are used -/

/-- The articles within the window that list a symbol and have a score. -/
def listed (symbol : List Char) (now : ℤ) (articles : List NewsArticle) : List NewsArticle :=
  articles.filter fun a => a.symbols.contains symbol && decide (InWindow now a) && (chosen scores a).isSome

variable {scores} {rt : Runtime} {raws : List (ℤ × RawArticle)}

theorem filter_eq_filter_iff {α : Type} {p q : α → Bool} {l : List α} :
    l.filter p = l.filter q ↔ ∀ a ∈ l, (p a = true ↔ q a = true) := by
  constructor
  · intro h a ha
    have hmem : a ∈ l.filter p ↔ a ∈ l.filter q := by rw [h]
    rwa [List.mem_filter, List.mem_filter, and_iff_right ha, and_iff_right ha] at hmem
  · intro h
    exact List.filter_congr fun a ha => Bool.eq_iff_iff.mpr (h a ha)

/-- An article is used if it has the symbol's words in a row, was fetched within the window, and has a score. -/
theorem mem_used_iff {symbol : List Char} {now : ℤ} {a : NewsArticle} (ha : a ∈ (ingestAll rt raws .empty).rows) :
    a ∈ used scores symbol now (ingestAll rt raws .empty).rows ↔
      (InARow symbol a.symbols ∧ InWindow now a) ∧ (chosen scores a).isSome = true := by
  rw [used, queried, List.mem_filter, List.mem_filter, and_iff_right ha, Bool.and_eq_true, decide_eq_true_iff,
    decide_eq_true_iff, symbolsText_of_mem ha, mem_symbolsText_iff]

/-- **The articles that are used are those that list the symbol**, exactly if no text of an article in the window with a
score misses the symbol or mistakes it. -/
theorem used_eq_listed_iff (rt : Runtime) (raws : List (ℤ × RawArticle)) (scores : NewsArticle → List (ArticleScore φ))
    (now : ℤ) (symbol : List Char) :
    used scores symbol now (ingestAll rt raws .empty).rows = listed scores symbol now (ingestAll rt raws .empty).rows ↔
      ∀ a ∈ (ingestAll rt raws .empty).rows, InWindow now a → (chosen scores a).isSome = true →
        ¬ Missed symbol a.symbols ∧ ¬ Mistaken symbol a.symbols := by
  rw [used, queried, List.filter_filter, listed, filter_eq_filter_iff]
  refine forall₂_congr fun a ha => ?_
  rw [← inARow_iff_mem_iff, ← mem_symbolsText_iff, ← symbolsText_of_mem ha]
  simp only [Bool.and_eq_true, decide_eq_true_eq, List.contains_iff_mem]
  tauto

/-- The market takes a pair of an article and a symbol of its list exactly if the symbol is found in the text. -/
theorem mem_marketPairs_iff {now : ℤ} {a : NewsArticle} (ha : a ∈ (ingestAll rt raws .empty).rows)
    (hwindow : InWindow now a) (hscored : (chosen scores a).isSome = true) {symbol : List Char}
    (hsymbol : symbol ∈ a.symbols) :
    (a, symbol) ∈ marketPairs scores now (ingestAll rt raws .empty).rows ↔ InARow symbol a.symbols := by
  have hlisted : symbol ∈ marketSymbols now (ingestAll rt raws .empty).rows :=
    List.mem_dedup.mpr (List.mem_flatMap.mpr ⟨a, List.mem_filter.mpr ⟨ha, decide_eq_true hwindow⟩, hsymbol⟩)
  have hpair : (a, symbol) ∈ marketPairs scores now (ingestAll rt raws .empty).rows ↔
      a ∈ used scores symbol now (ingestAll rt raws .empty).rows := by
    rw [marketPairs, List.mem_flatMap]
    constructor
    · rintro ⟨symbol', -, hmem⟩
      obtain ⟨a', ha', heq⟩ := List.mem_map.mp hmem
      cases heq
      exact ha'
    · intro hused
      exact ⟨symbol, hlisted, List.mem_map.mpr ⟨a, hused, rfl⟩⟩
  rw [hpair, mem_used_iff ha, and_iff_left hscored, and_iff_left hwindow]

/-- **The market misses no pair** of an article and a symbol of its list exactly if no text misses one. -/
theorem market_misses_none_iff (rt : Runtime) (raws : List (ℤ × RawArticle))
    (scores : NewsArticle → List (ArticleScore φ)) (now : ℤ) :
    (∀ a ∈ (ingestAll rt raws .empty).rows, InWindow now a → (chosen scores a).isSome = true → ∀ symbol ∈ a.symbols,
        (a, symbol) ∈ marketPairs scores now (ingestAll rt raws .empty).rows) ↔
      ∀ a ∈ (ingestAll rt raws .empty).rows, InWindow now a → (chosen scores a).isSome = true → ∀ symbol ∈ a.symbols,
        ¬ Missed symbol a.symbols := by
  refine forall₂_congr fun a ha => forall₂_congr fun hwindow hscored => forall₂_congr fun symbol hsymbol => ?_
  have hmistaken : ¬ Mistaken symbol a.symbols := fun h => h.1 hsymbol
  rw [mem_marketPairs_iff ha hwindow hscored hsymbol, ← and_iff_left hmistaken (a := ¬ Missed symbol a.symbols),
    ← inARow_iff_mem_iff, iff_true_right hsymbol]

/-! ### Symbols without blanks -/

theorem wordsOf_of_not_mem {symbol : List Char} (h : ' ' ∉ symbol) : wordsOf symbol = [symbol] :=
  List.splitOn_eq_singleton h

theorem flatMap_wordsOf {symbols : List (List Char)} (h : ∀ s ∈ symbols, ' ' ∉ s) :
    symbols.flatMap wordsOf = symbols := by
  induction symbols with
  | nil => rfl
  | cons s symbols ih =>
    obtain ⟨hs, hrest⟩ := List.forall_mem_cons.mp h
    rw [List.flatMap_cons, wordsOf_of_not_mem hs, ih hrest, List.singleton_append]

/-- Without blanks, the text has the first symbols, and no others. -/
theorem inARow_iff_mem_take {symbol : List Char} {symbols : List (List Char)} (hsymbol : ' ' ∉ symbol)
    (h : ∀ s ∈ symbols, ' ' ∉ s) : InARow symbol symbols ↔ symbol ∈ symbols.take 24 := by
  rw [InARow, wordsOf_of_not_mem hsymbol, flatMap_wordsOf fun s hs => h s (List.mem_of_mem_take hs),
    List.singleton_infix_iff]

/-- **The articles that are used** are those within the window that have a score and the symbol among the first 24 of
their list, and these are the pairs that the market takes, where no symbol has a blank. -/
theorem used_eq_firstListed (rt : Runtime) (raws : List (ℤ × RawArticle)) (scores : NewsArticle → List (ArticleScore φ))
    (now : ℤ) (symbol : List Char) (hsymbol : ' ' ∉ symbol)
    (hblanks : ∀ a ∈ (ingestAll rt raws .empty).rows, ∀ s ∈ a.symbols, ' ' ∉ s) :
    (used scores symbol now (ingestAll rt raws .empty).rows = (ingestAll rt raws .empty).rows.filter fun a =>
        decide (symbol ∈ a.symbols.take 24) && decide (InWindow now a) && (chosen scores a).isSome) ∧
      ∀ a ∈ (ingestAll rt raws .empty).rows, InWindow now a → (chosen scores a).isSome = true → ∀ s ∈ a.symbols,
        ((a, s) ∈ marketPairs scores now (ingestAll rt raws .empty).rows ↔ s ∈ a.symbols.take 24) := by
  constructor
  · rw [used, queried, List.filter_filter, filter_eq_filter_iff]
    intro a ha
    have htext : ' ' :: (symbol ++ [' ']) <:+: a.symbolsText ↔ symbol ∈ a.symbols.take 24 := by
      rw [symbolsText_of_mem ha, mem_symbolsText_iff]
      exact inARow_iff_mem_take hsymbol (hblanks a ha)
    simp only [Bool.and_eq_true, decide_eq_true_eq]
    rw [htext, and_comm]
  · intro a ha hwindow hscored s hs
    rw [mem_marketPairs_iff ha hwindow hscored hs, inARow_iff_mem_take (hblanks a ha s hs) (hblanks a ha)]

end

/-! ### Runs of one article -/

theorem rows_ingestAll_single {raw : RawArticle} (now : ℤ) (htitle : raw.cutTitle ≠ []) :
    (ingestAll asciiRuntime [(now, raw)] .empty).rows = [raw.row asciiRuntime now] := by
  have hingest : ingestArticle asciiRuntime now raw .empty = _ := ingestArticle_of_new htitle rfl rfl
  rw [ingestAll, List.foldl_cons, List.foldl_nil, ingestStep, hingest]
  exact Table.rows_put_new rfl

/-- An article with a symbol. -/
def appleArticle : RawArticle := ⟨.fmp, some "AAPL surges".toList, some "http://x/1".toList, none, none, ["AAPL".toList]⟩

theorem used_eq_firstListed_apple :
    (used (fun _ => [⟨.finbert, (4 / 5 : ℚ), none⟩]) "AAPL".toList 10
        (ingestAll asciiRuntime [(5, appleArticle)] .empty).rows =
      (ingestAll asciiRuntime [(5, appleArticle)] .empty).rows.filter fun a =>
        decide ("AAPL".toList ∈ a.symbols.take 24) && decide (InWindow 10 a) &&
          (chosen (fun _ => [⟨.finbert, (4 / 5 : ℚ), none⟩]) a).isSome) ∧
      ∀ a ∈ (ingestAll asciiRuntime [(5, appleArticle)] .empty).rows, InWindow 10 a →
        (chosen (fun _ => [⟨.finbert, (4 / 5 : ℚ), none⟩]) a).isSome = true → ∀ s ∈ a.symbols,
          ((a, s) ∈ marketPairs (fun _ => [⟨.finbert, (4 / 5 : ℚ), none⟩]) 10
            (ingestAll asciiRuntime [(5, appleArticle)] .empty).rows ↔ s ∈ a.symbols.take 24) := by
  refine used_eq_firstListed asciiRuntime [(5, appleArticle)] _ 10 "AAPL".toList (by decide) ?_
  rw [rows_ingestAll_single 5 (by decide), List.forall_mem_singleton]
  decide +kernel

/-! ### An article of many symbols -/

/-- The symbols of an article: the letters up to `Y`. -/
def manySymbols : List (List Char) := "ABCDEFGHIJKLMNOPQRSTUVWXY".toList.map fun c => [c]

/-- An article with many symbols. -/
def manySymbolsArticle : RawArticle := ⟨.fmp, some "markets".toList, none, none, none, manySymbols⟩

/-- **The symbol behind the others is missed.** -/
theorem not_used_eq_listed : ¬ ∀ (rt : Runtime) (raws : List (ℤ × RawArticle))
    (scores : NewsArticle → List (ArticleScore ℚ)) (now : ℤ) (symbol : List Char),
    used scores symbol now (ingestAll rt raws .empty).rows = listed scores symbol now (ingestAll rt raws .empty).rows := by
  intro h
  have hsymbols : (manySymbolsArticle.row asciiRuntime 5).symbols = manySymbols := by decide +kernel
  have hrow : manySymbolsArticle.row asciiRuntime 5 ∈ (ingestAll asciiRuntime [(5, manySymbolsArticle)] .empty).rows := by
    rw [rows_ingestAll_single 5 (by decide)]
    exact List.mem_singleton.mpr rfl
  have hwindow : InWindow 10 (manySymbolsArticle.row asciiRuntime 5) := by
    change (10 : ℤ) - 1440 * 60 * 1000000 ≤ 5
    decide
  have hlisted : manySymbolsArticle.row asciiRuntime 5 ∈
      listed (fun _ => [⟨.finbert, (0 : ℚ), none⟩]) ['Y'] 10
        (ingestAll asciiRuntime [(5, manySymbolsArticle)] .empty).rows := by
    rw [listed, List.mem_filter, hsymbols, decide_eq_true hwindow]
    exact ⟨hrow, by decide⟩
  rw [← h, mem_used_iff hrow, hsymbols] at hlisted
  have hnot : ¬ wordsOf ['Y'] <:+: (manySymbols.take 24).flatMap wordsOf := by decide +kernel
  exact hnot hlisted.1.1

end StratTrader.Sentiment
