import StratTrader.Sentiment.Ingest

/-!
# When two articles are one

`dedup_hash` of `sentiment/services.py` joins an address and a title to one text, with a bar between them. The address
may have a bar itself, and so may the title; and a title that was cut is stripped once more.

## What is proved

* `dedupText_eq_iff`: two articles are hashed alike where their addresses and titles are, or where one runs into the
  other at a bar.
* `treatedAsDuplicate_iff`: in every run, an article is treated as a duplicate of one that was ingested exactly if they
  are hashed alike.
* `dedup_identity_iff`: that is so for articles of one address and one title exactly if neither runs into the other,
  and no title was cut within blanks that the other has not.
-/

namespace StratTrader.Sentiment

open StratTrader.Foundation

/-- The address as it is compared. -/
def RawArticle.urlKey (raw : RawArticle) : List Char := stripChars (raw.url.getD [])

/-- The title as it is hashed. -/
def RawArticle.titleKey (rt : Runtime) (raw : RawArticle) : List Char := rt.lower (stripChars raw.cutTitle)

/-- The blanks at the end of a text. -/
def endBlanks (cs : List Char) : List Char := (cs.reverse.takeWhile isSpace).reverse

/-- Two raw articles have one address and, but for upper and lower case, one title. -/
def SameArticle (rt : Runtime) (a b : RawArticle) : Prop :=
  a.urlKey = b.urlKey ∧ rt.lower a.cutTitle = rt.lower b.cutTitle

/-- The address of the second is that of the first, a bar and a text with which, and a bar, the first title begins. -/
def RunsInto (rt : Runtime) (a b : RawArticle) : Prop :=
  ∃ w, b.urlKey = a.urlKey ++ '|' :: w ∧ a.titleKey rt = w ++ '|' :: b.titleKey rt

/-- One of two articles runs into the other. -/
def RunTogether (rt : Runtime) (a b : RawArticle) : Prop := RunsInto rt a b ∨ RunsInto rt b a

/-- Two articles differ in the blanks only that their titles were cut at. -/
def CutApart (rt : Runtime) (a b : RawArticle) : Prop :=
  a.urlKey = b.urlKey ∧ a.titleKey rt = b.titleKey rt ∧ endBlanks a.cutTitle ≠ endBlanks b.cutTitle

/-- Behind some articles, one is found to be the article of a row. -/
def TreatedAsDuplicate (rt : Runtime) (now : ℤ) (raw : RawArticle) (row : NewsArticle) (t : Articles) : Prop :=
  ingestArticle rt now raw t = .ok (some (row, false), t)

section
variable {rt : Runtime} {a b : RawArticle}

/-! ### Blanks at the end -/

theorem blank_endBlanks (cs : List Char) : Blank (endBlanks cs) :=
  fun _ hc => List.mem_takeWhile_imp (List.mem_reverse.mp hc)

theorem cutTitle_split (raw : RawArticle) : raw.cutTitle = stripChars raw.cutTitle ++ endBlanks raw.cutTitle := by
  have hhead : ∀ c ∈ raw.cutTitle.head?, isSpace c = false := by
    obtain ⟨-, -, -, -, -, htrimmed⟩ := stripChars_spec (raw.title.getD [])
    intro c hc
    refine htrimmed.1 c ?_
    rw [RawArticle.cutTitle, List.head?_take, if_neg (by decide)] at hc
    exact hc
  rw [stripChars, endBlanks, dropWhile_isSpace_of_head hhead, ← List.reverse_append, List.takeWhile_append_dropWhile,
    List.reverse_reverse]

theorem lower_cutTitle (raw : RawArticle) : rt.lower raw.cutTitle = raw.titleKey rt ++ endBlanks raw.cutTitle := by
  conv_lhs => rw [cutTitle_split raw]
  exact rt.lower_blanks _ _ (blank_endBlanks _)

theorem trimmed_titleKey (raw : RawArticle) : Trimmed (raw.titleKey rt) := by
  obtain ⟨-, -, -, -, -, htrimmed⟩ := stripChars_spec raw.cutTitle
  exact rt.lower_trimmed _ htrimmed

/-- What ends with no blank is told from the blanks behind it. -/
theorem nil_of_blank_end {cs c : List Char} (htrimmed : Trimmed (cs ++ c)) (hblank : Blank c) : c = [] := by
  by_contra hne
  have hlast : (cs ++ c).getLast? = some (c.getLast hne) := by
    rw [List.getLast?_append, List.getLast?_eq_some_getLast hne]
    rfl
  have hspace := hblank _ (List.getLast_mem hne)
  rw [htrimmed.2 _ hlast] at hspace
  cases hspace

theorem blanks_unique {cs ds e f : List Char} (hcs : Trimmed cs) (hds : Trimmed ds) (he : Blank e) (hf : Blank f)
    (h : cs ++ e = ds ++ f) : cs = ds ∧ e = f := by
  rcases List.append_eq_append_iff.mp h with ⟨c, rfl, hrest⟩ | ⟨c, rfl, hrest⟩
  · have hc : c = [] := nil_of_blank_end hds fun x hx => he x (hrest ▸ List.mem_append_left f hx)
    subst hc
    exact ⟨(List.append_nil cs).symm, hrest⟩
  · have hc : c = [] := nil_of_blank_end hcs fun x hx => hf x (hrest ▸ List.mem_append_left e hx)
    subst hc
    exact ⟨List.append_nil ds, hrest.symm⟩

theorem sameArticle_iff : SameArticle rt a b ↔
    a.urlKey = b.urlKey ∧ a.titleKey rt = b.titleKey rt ∧ endBlanks a.cutTitle = endBlanks b.cutTitle := by
  refine and_congr_right fun _ => ?_
  rw [lower_cutTitle, lower_cutTitle]
  constructor
  · exact blanks_unique (trimmed_titleKey a) (trimmed_titleKey b) (blank_endBlanks _) (blank_endBlanks _)
  · rintro ⟨htitle, hblanks⟩
    rw [htitle, hblanks]

/-! ### The text that is hashed -/

theorem dedupHash_eq (raw : RawArticle) :
    dedupHash rt raw.url (some raw.cutTitle) = rt.sha256 (raw.urlKey ++ '|' :: raw.titleKey rt) := rfl

/-- **Two articles are hashed alike** where they have one address and one title, or run together. -/
theorem dedupText_eq_iff : a.urlKey ++ '|' :: a.titleKey rt = b.urlKey ++ '|' :: b.titleKey rt ↔
    (a.urlKey = b.urlKey ∧ a.titleKey rt = b.titleKey rt) ∨ RunTogether rt a b := by
  constructor
  · intro h
    rcases List.append_eq_append_iff.mp h with ⟨c, hurl, hrest⟩ | ⟨c, hurl, hrest⟩
    all_goals
      cases c with
      | nil =>
        rw [List.append_nil] at hurl
        have htitles := (List.cons.inj hrest).2
        first
          | exact Or.inl ⟨hurl.symm, htitles⟩
          | exact Or.inl ⟨hurl, htitles.symm⟩
      | cons d w =>
        obtain ⟨rfl, htitle⟩ := List.cons.inj hrest
        first
          | exact Or.inr (Or.inl ⟨w, hurl, htitle⟩)
          | exact Or.inr (Or.inr ⟨w, hurl, htitle⟩)
  · rintro (⟨hurl, htitle⟩ | ⟨w, hurl, htitle⟩ | ⟨w, hurl, htitle⟩)
    · rw [hurl, htitle]
    · rw [hurl, htitle, List.append_assoc, List.cons_append]
    · rw [hurl, htitle, List.append_assoc, List.cons_append]

theorem RunsInto.urlKey_ne (h : RunsInto rt a b) : a.urlKey ≠ b.urlKey := by
  obtain ⟨w, hurl, -⟩ := h
  intro heq
  have hlength := congrArg List.length (heq.trans hurl)
  rw [List.length_append, List.length_cons] at hlength
  omega

theorem RunTogether.urlKey_ne (h : RunTogether rt a b) : a.urlKey ≠ b.urlKey :=
  h.elim RunsInto.urlKey_ne fun h => h.urlKey_ne.symm

/-! ### Runs -/

/-- **An article is treated as a duplicate** of one that was ingested exactly if they are hashed alike, whatever was
ingested in between. -/
theorem treatedAsDuplicate_iff (hsha : Function.Injective rt.sha256) {t t' : Articles} {now now' : ℤ} {row : NewsArticle}
    {created : Bool} (hfirst : ingestArticle rt now a t = .ok (some (row, created), t')) (hsecond : b.cutTitle ≠ [])
    (between : List (ℤ × RawArticle)) : TreatedAsDuplicate rt now' b row (ingestAll rt between t') ↔
      a.urlKey ++ '|' :: a.titleKey rt = b.urlKey ++ '|' :: b.titleKey rt := by
  obtain ⟨-, hstored⟩ := find?_of_ingestArticle hfirst
  have hstays : (ingestAll rt between t').find? (dedupHash rt a.url (some a.cutTitle)) = some row :=
    find?_ingestAll between hstored
  have hkey := Table.key_of_find? hstays
  constructor
  · intro hsame
    obtain ⟨-, hfound⟩ := find?_of_ingestArticle hsame
    have hhashes : rt.sha256 (a.urlKey ++ '|' :: a.titleKey rt) = rt.sha256 (b.urlKey ++ '|' :: b.titleKey rt) :=
      hkey.symm.trans (Table.key_of_find? hfound)
    exact hsha hhashes
  · intro htexts
    refine ingestArticle_of_found hsecond ?_
    rw [dedupHash_eq, ← htexts]
    exact hstays

/-- **Articles of one address and one title are taken for one, and no others**, exactly if they do not run together and
were not cut apart. -/
theorem dedup_identity_iff (rt : Runtime) (hsha : Function.Injective rt.sha256) (a b : RawArticle)
    (before between : List (ℤ × RawArticle)) {now now' : ℤ} {row : NewsArticle} {created : Bool} {t : Articles}
    (hfirst : ingestArticle rt now a (ingestAll rt before .empty) = .ok (some (row, created), t))
    (hsecond : b.cutTitle ≠ []) :
    (TreatedAsDuplicate rt now' b row (ingestAll rt between t) ↔ SameArticle rt a b) ↔
      ¬ RunTogether rt a b ∧ ¬ CutApart rt a b := by
  rw [treatedAsDuplicate_iff hsha hfirst hsecond, dedupText_eq_iff, sameArticle_iff]
  constructor
  · intro h
    constructor
    · intro hruns
      exact hruns.urlKey_ne (h.mp (Or.inr hruns)).1
    · rintro ⟨hurl, htitle, hblanks⟩
      exact hblanks (h.mp (Or.inl ⟨hurl, htitle⟩)).2.2
  · rintro ⟨hruns, hcut⟩
    constructor
    · rintro (⟨hurl, htitle⟩ | htogether)
      · exact ⟨hurl, htitle, by_contra fun hblanks => hcut ⟨hurl, htitle, hblanks⟩⟩
      · exact absurd htogether hruns
    · rintro ⟨hurl, htitle, -⟩
      exact Or.inl ⟨hurl, htitle⟩

end

/-- An article that is ingested twice. -/
theorem dedup_identity_twice :
    (TreatedAsDuplicate asciiRuntime 9 (articleOf "http://x/1" "Apple beats earnings")
        ((articleOf "http://x/1" "Apple beats earnings").row asciiRuntime 5)
        (ingestAll asciiRuntime [] (Table.empty.put ((articleOf "http://x/1" "Apple beats earnings").row asciiRuntime 5))) ↔
      SameArticle asciiRuntime (articleOf "http://x/1" "Apple beats earnings") (articleOf "http://x/1" "Apple beats earnings")) ↔
    ¬ RunTogether asciiRuntime (articleOf "http://x/1" "Apple beats earnings") (articleOf "http://x/1" "Apple beats earnings") ∧
      ¬ CutApart asciiRuntime (articleOf "http://x/1" "Apple beats earnings") (articleOf "http://x/1" "Apple beats earnings") :=
  dedup_identity_iff asciiRuntime (Equiv.injective _) _ _ [] [] (ingestArticle_articleOf 5 (by decide)) (by decide)

/-- **A bar moves from the title to the address.** -/
theorem not_dedup_identity : ¬ ∀ (rt : Runtime), Function.Injective rt.sha256 → ∀ (a b : RawArticle)
    (before between : List (ℤ × RawArticle)) (now now' : ℤ) (row : NewsArticle) (created : Bool) (t : Articles),
    ingestArticle rt now a (ingestAll rt before .empty) = .ok (some (row, created), t) → b.cutTitle ≠ [] →
      (TreatedAsDuplicate rt now' b row (ingestAll rt between t) ↔ SameArticle rt a b) := by
  intro h
  have hsha : Function.Injective asciiRuntime.sha256 := Equiv.injective _
  have hfirst : ingestArticle asciiRuntime 5 (articleOf "http://x" "a|b") .empty = _ :=
    ingestArticle_articleOf 5 (by decide)
  have hsecond : (articleOf "http://x|a" "b").cutTitle ≠ [] := by decide
  have hsame := h asciiRuntime hsha _ _ [] [] 5 9 _ _ _ hfirst hsecond
  have htexts : (articleOf "http://x" "a|b").urlKey ++ '|' :: (articleOf "http://x" "a|b").titleKey asciiRuntime =
      (articleOf "http://x|a" "b").urlKey ++ '|' :: (articleOf "http://x|a" "b").titleKey asciiRuntime := by decide
  have hdup : TreatedAsDuplicate asciiRuntime 9 (articleOf "http://x|a" "b") _ _ :=
    (treatedAsDuplicate_iff hsha hfirst hsecond []).mpr htexts
  exact absurd (hsame.mp hdup).1 (by decide)

end StratTrader.Sentiment
