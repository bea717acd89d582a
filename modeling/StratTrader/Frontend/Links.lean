import StratTrader.Frontend.Reading

/-!
# Where the links of a description lead

`safeUrl` of `core/util/tradingview-description.ts` looks at an address as it stands in the escaped text. A browser
reads the references of the attribute first and prepares the address then: it trims it and takes tabs and line ends
out of it. What `safeUrl` accepts may be another address after that.

## What is proved

* `places_render_iff`: the addresses in the output are those that `safeUrl` accepts of the items that are read.
* `references_of_places`: every ampersand of an address is of a reference that escaping made.
* `links_allowed_iff`: every address in the output leads to http, to https or to the site itself if and only if no
  item brings one that is a slash, tabs or line ends, and another slash or a backslash.

## Honest scope

The scheme of an address is told in upper and in lower case, as a browser tells it.
-/

namespace StratTrader.Frontend

open StratTrader.Foundation

/-! ### What a browser makes of an address -/

/-- The reference that a text begins with, and the character that it is of. -/
def readReference : Rewrite Char := fun s =>
  escapeMap.findSome? fun e => (eatExactly e.2 s).map fun rest => ([e.1], rest)

/-- The text of an attribute, its references read. -/
def unescapeHtml (s : List Char) : List Char := replaceAll readReference s

/-- A control character or a space. -/
def isControlOrSpace (c : Char) : Bool := decide (c.toNat ≤ 32)

/-- A tab, or the end of a line. -/
def isTabOrNewline (c : Char) : Bool := decide (c = '\t') || decide (c = '\n') || decide (c = '\r')

/-- An address as it is prepared before it is read. -/
def preprocess (u : List Char) : List Char := (trimBy isControlOrSpace u).filter fun c => !isTabOrNewline c

/-- A slash of either kind. -/
def isSlash (c : Char) : Bool := decide (c = '/') || decide (c = '\\')

/-- An address of http or https. -/
def OverHttp (u : List Char) : Prop :=
  "http://".toList <+: u.map Char.toLower ∨ "https://".toList <+: u.map Char.toLower

/-- An address of the site itself: one slash, and no other one behind it. -/
def OnSite (u : List Char) : Prop := ∃ s, u = '/' :: s ∧ ∀ c ∈ s.head?, isSlash c = false

/-- Where a link may lead. -/
def Allowed (u : List Char) : Prop := OverHttp u ∨ OnSite u

/-- A fragment has an address in the `href` of a link or the `src` of an image. -/
def Places (html u : List Char) : Prop :=
  '"' ∉ u ∧ ∃ t ∈ tagsOf html, ∃ opening ∈ ["a href=\"".toList, "img src=\"".toList], opening ++ (u ++ ['"']) <+: t

/-- An address that is a slash, tabs or line ends, and another slash. -/
def Slips (a : List Char) : Prop :=
  ∃ gap e rest, trim a = '/' :: (gap ++ e :: rest) ∧ gap ≠ [] ∧ (∀ g ∈ gap, isTabOrNewline g = true) ∧ isSlash e = true

/-! ### References -/

theorem escapeMap_starts : ∀ e ∈ escapeMap, ∃ code, e.2 = '&' :: code := by
  intro e he
  exact ⟨e.2.tail, (by decide : ∀ e ∈ escapeMap, e.2 = '&' :: e.2.tail) e he⟩

theorem readReference_eq_none {c : Char} {s : List Char} (hc : c ≠ '&') : readReference (c :: s) = none := by
  refine List.findSome?_eq_none_iff.mpr fun e he => ?_
  obtain ⟨code, hcode⟩ := escapeMap_starts e he
  rw [hcode, eatExactly_cons_ne hc]
  rfl

/-- A character that begins no reference is kept. -/
theorem unescapeHtml_cons {c : Char} (hc : c ≠ '&') (s : List Char) : unescapeHtml (c :: s) = c :: unescapeHtml s := by
  rw [unescapeHtml, replaceAll, List.length_cons, replaceFor, readReference_eq_none hc]
  rfl

theorem unescapeHtml_append {m : List Char} (hm : '&' ∉ m) (s : List Char) :
    unescapeHtml (m ++ s) = m ++ unescapeHtml s := by
  induction m with
  | nil => rfl
  | cons c m ih =>
    obtain ⟨hc, hrest⟩ := not_or.mp (mt List.mem_cons.mpr hm)
    rw [List.cons_append, unescapeHtml_cons (Ne.symm hc), ih hrest, List.cons_append]

/-- At an ampersand an escaped character is read. -/
theorem unescapeHtml_ampersand (s : List Char) :
    ∃ c t, unescapeHtml ('&' :: s) = c :: t ∧ c ∈ escapeMap.map Prod.fst := by
  rw [unescapeHtml, replaceAll, List.length_cons, replaceFor]
  cases hread : readReference ('&' :: s) with
  | none => exact ⟨'&', _, rfl, by decide⟩
  | some found =>
    obtain ⟨e, he, hfound⟩ := List.exists_of_findSome?_eq_some hread
    obtain ⟨rest, -, rfl⟩ := Option.map_eq_some_iff.mp hfound
    exact ⟨e.1, _, rfl, List.mem_map_of_mem he⟩

/-- A character that is not escaped is read where it stands. -/
theorem unescapeHtml_eq_cons {c : Char} {s t : List Char} (hc : c ∉ escapeMap.map Prod.fst) :
    unescapeHtml s = c :: t ↔ ∃ t', s = c :: t' ∧ unescapeHtml t' = t := by
  have hampersand : c ≠ '&' := fun heq => hc (heq ▸ by decide)
  constructor
  · intro h
    cases s with
    | nil => cases h
    | cons d s =>
      by_cases hd : d = '&'
      · subst hd
        obtain ⟨c', t', heq, hmem⟩ := unescapeHtml_ampersand s
        rw [heq] at h
        cases h
        exact absurd hmem hc
      · rw [unescapeHtml_cons hd] at h
        cases h
        exact ⟨s, rfl, rfl⟩
  · rintro ⟨t', rfl, rfl⟩
    exact unescapeHtml_cons hampersand t'

/-- Where a text without escaped characters stands, it was before. -/
theorem unescapeHtml_eq_append {m : List Char} (hm : ∀ c ∈ m, c ∉ escapeMap.map Prod.fst) {s t : List Char} :
    unescapeHtml s = m ++ t ↔ ∃ t', s = m ++ t' ∧ unescapeHtml t' = t := by
  induction m generalizing s with
  | nil => exact ⟨fun h => ⟨s, rfl, h⟩, by rintro ⟨t', rfl, h⟩; exact h⟩
  | cons c m ih =>
    obtain ⟨hc, hrest⟩ := List.forall_mem_cons.mp hm
    rw [List.cons_append, unescapeHtml_eq_cons hc]
    constructor
    · rintro ⟨s', rfl, h⟩
      obtain ⟨t', rfl, ht⟩ := (ih hrest).mp h
      exact ⟨t', rfl, ht⟩
    · rintro ⟨t', rfl, ht⟩
      exact ⟨m ++ t', rfl, (ih hrest).mpr ⟨t', rfl, ht⟩⟩

/-! ### Preparing -/

/-- What is no blank, and all before it, is not trimmed from the end. -/
theorem rdropWhile_append_cons {p : Char → Bool} {e : Char} (he : p e = false) (x y : List Char) :
    (x ++ e :: y).rdropWhile p = x ++ e :: y.rdropWhile p := by
  induction y using List.reverseRecOn with
  | nil =>
    rw [List.rdropWhile_nil]
    exact List.rdropWhile_concat_neg _ _ _ (Bool.eq_false_iff.mp he)
  | append_singleton y d ih =>
    rw [← List.cons_append, ← List.append_assoc, List.rdropWhile_concat, List.rdropWhile_concat]
    split_ifs
    · exact ih
    · rw [List.append_assoc, List.cons_append]

theorem trimBy_cons {p : Char → Bool} {c : Char} (hc : p c = false) (s : List Char) :
    trimBy p (c :: s) = c :: s.rdropWhile p := by
  rw [trimBy, List.dropWhile_cons, hc, if_neg Bool.false_ne_true]
  exact rdropWhile_append_cons hc [] s

theorem control_of_tabOrNewline {c : Char} (h : isTabOrNewline c = true) : isControlOrSpace c = true := by
  rcases Bool.or_eq_true_iff.mp h with h | h
  · rcases Bool.or_eq_true_iff.mp h with h | h
    · rw [of_decide_eq_true h]
      decide
    · rw [of_decide_eq_true h]
      decide
  · rw [of_decide_eq_true h]
    decide

theorem kept_of_visible {c : Char} (h : isControlOrSpace c = false) : isTabOrNewline c = false := by
  by_contra hne
  rw [control_of_tabOrNewline (eq_true_of_ne_false hne)] at h
  cases h

theorem preprocess_cons {c : Char} (hc : isControlOrSpace c = false) (s : List Char) :
    preprocess (c :: s) = c :: (s.rdropWhile isControlOrSpace).filter fun d => !isTabOrNewline d := by
  rw [preprocess, trimBy_cons hc, List.filter_cons_of_pos (by rw [kept_of_visible hc]; rfl)]

/-- The first character that is kept, where it is a visible one. -/
theorem head?_prepared {e : Char} (he : isControlOrSpace e = false) (s : List Char) :
    ((s.rdropWhile isControlOrSpace).filter fun d => !isTabOrNewline d).head? = some e ↔
      ∃ gap rest, s = gap ++ e :: rest ∧ ∀ g ∈ gap, isTabOrNewline g = true := by
  have hgap (gap : List Char) :
      (∀ g ∈ gap, (!!isTabOrNewline g) = true) ↔ ∀ g ∈ gap, isTabOrNewline g = true := by
    simp only [Bool.not_not]
  rw [List.head?_filter, List.find?_eq_some_iff_append]
  constructor
  · rintro ⟨-, gap, rest, heq, hall⟩
    obtain ⟨t, ht⟩ := List.rdropWhile_prefix isControlOrSpace s
    refine ⟨gap, rest ++ t, ?_, (hgap gap).mp hall⟩
    rw [← ht, heq, List.append_assoc, List.cons_append]
  · rintro ⟨gap, rest, rfl, hall⟩
    exact ⟨by rw [kept_of_visible he]; rfl, gap, _, rdropWhile_append_cons he gap rest, (hgap gap).mpr hall⟩

theorem slash_visible {e : Char} (he : isSlash e = true) :
    isControlOrSpace e = false ∧ e ∉ escapeMap.map Prod.fst := by
  rcases Bool.or_eq_true_iff.mp he with h | h
  · rw [of_decide_eq_true h]
    decide
  · rw [of_decide_eq_true h]
    decide

theorem tabOrNewline_not_escaped {c : Char} (h : isTabOrNewline c = true) : c ∉ escapeMap.map Prod.fst := by
  rcases Bool.or_eq_true_iff.mp h with h | h
  · rcases Bool.or_eq_true_iff.mp h with h | h
    · rw [of_decide_eq_true h]
      decide
    · rw [of_decide_eq_true h]
      decide
  · rw [of_decide_eq_true h]
    decide

/-- What a slash behind a slash is read from. -/
theorem head?_read {e : Char} (he : isSlash e = true) (s : List Char) :
    (((unescapeHtml s).rdropWhile isControlOrSpace).filter fun d => !isTabOrNewline d).head? = some e ↔
      ∃ gap rest, s = gap ++ e :: rest ∧ ∀ g ∈ gap, isTabOrNewline g = true := by
  obtain ⟨hvisible, hplain⟩ := slash_visible he
  rw [head?_prepared hvisible]
  constructor
  · rintro ⟨gap, rest, heq, hall⟩
    obtain ⟨t, rfl, ht⟩ := (unescapeHtml_eq_append fun g hg => tabOrNewline_not_escaped (hall g hg)).mp heq
    obtain ⟨t', rfl, -⟩ := (unescapeHtml_eq_cons hplain).mp ht
    exact ⟨gap, t', rfl, hall⟩
  · rintro ⟨gap, rest, rfl, hall⟩
    refine ⟨gap, unescapeHtml rest, ?_, hall⟩
    refine (unescapeHtml_eq_append fun g hg => tabOrNewline_not_escaped (hall g hg)).mpr ⟨e :: rest, rfl, ?_⟩
    exact (unescapeHtml_eq_cons hplain).mpr ⟨rest, rfl, rfl⟩

/-! ### Accepted addresses -/

theorem safeUrl_eq_some {a u : List Char} (h : safeUrl a = some u) :
    u = trim a ∧ (isHttp u = true ∨ isSitePath u = true) := by
  unfold safeUrl at h
  dsimp only at h
  split_ifs at h with hempty hhttp hsite
  · cases h
    exact ⟨rfl, Or.inl hhttp⟩
  · cases h
    exact ⟨rfl, Or.inr hsite⟩

theorem safeUrl_of_site {a s : List Char} (htrim : trim a = '/' :: s) (hs : ∀ c ∈ s.head?, isSlash c = false) :
    safeUrl a = some ('/' :: s) := by
  have hsite : isSitePath ('/' :: s) = true := by
    cases s with
    | nil => rfl
    | cons c s =>
      obtain ⟨hslash, hback⟩ := Bool.or_eq_false_iff.mp (hs c rfl)
      rw [isSitePath, Bool.and_eq_true]
      exact ⟨decide_eq_true (of_decide_eq_false hslash), decide_eq_true (of_decide_eq_false hback)⟩
  unfold safeUrl
  dsimp only
  rw [htrim, if_neg (List.cons_ne_nil _ _), hsite, if_pos rfl, ite_self]

theorem toLower_of_control {c : Char} (h : isControlOrSpace c = true) : c.toLower = c := by
  have hle : c.toNat ≤ 32 := of_decide_eq_true h
  unfold Char.toLower
  split_ifs with hupper
  · have hlow : 65 ≤ c.toNat := hupper.1
    omega
  · rfl

/-- A beginning that is visible stays. -/
theorem prepared_append {m : List Char} (hm : ∀ c ∈ m, isControlOrSpace c = false) (s : List Char) :
    ∃ t, (((m ++ s).rdropWhile isControlOrSpace).filter fun d => !isTabOrNewline d) = m ++ t := by
  induction m with
  | nil => exact ⟨_, rfl⟩
  | cons c m ih =>
    obtain ⟨hc, hrest⟩ := List.forall_mem_cons.mp hm
    obtain ⟨t, ht⟩ := ih hrest
    refine ⟨t, ?_⟩
    have hfirst : (c :: (m ++ s)).rdropWhile isControlOrSpace = c :: (m ++ s).rdropWhile isControlOrSpace :=
      rdropWhile_append_cons hc [] (m ++ s)
    rw [List.cons_append, hfirst, List.filter_cons_of_pos (by rw [kept_of_visible hc]; rfl), ht, List.cons_append]

/-- What begins with a scheme begins with it when it was read and prepared. -/
theorem scheme_kept {p u : List Char} (hp : ∀ q ∈ p, isControlOrSpace q = false ∧ ignoreCase q '&' = false)
    (hne : p ≠ []) (h : (eat ignoreCase p u).isSome = true) : p <+: (preprocess (unescapeHtml u)).map Char.toLower := by
  obtain ⟨r, hr⟩ := Option.isSome_iff_exists.mp h
  obtain ⟨m, hm, rfl⟩ := eat_eq_some.mp hr
  have hlower : m.map Char.toLower = p := by
    have heq : List.Forall₂ (fun a b => a = Char.toLower b) p m := hm.imp fun _ _ h => (of_decide_eq_true h).symm
    rw [← List.forall₂_map_right_iff, List.forall₂_eq_eq_eq] at heq
    exact heq.symm
  have hvisible : ∀ c ∈ m, isControlOrSpace c = false := by
    intro c hc
    by_contra hcontrol
    have hcontrol := eq_true_of_ne_false hcontrol
    refine Spells.not_mem hm (fun q hq => decide_eq_false fun heq => ?_) hc
    rw [toLower_of_control hcontrol] at heq
    rw [← heq] at hq
    rw [(hp c hq).1] at hcontrol
    cases hcontrol
  have hampersand : '&' ∉ m := Spells.not_mem hm fun q hq => (hp q hq).2
  rw [unescapeHtml_append hampersand]
  cases m with
  | nil =>
    rw [← hlower] at hne
    exact absurd rfl hne
  | cons c m =>
    obtain ⟨hc, hrest⟩ := List.forall_mem_cons.mp hvisible
    obtain ⟨t, ht⟩ := prepared_append hrest (unescapeHtml r)
    rw [List.cons_append, preprocess_cons hc, ht, ← List.cons_append, List.map_append, hlower]
    exact List.prefix_append _ _

theorem overHttp_of_isHttp {u : List Char} (h : isHttp u = true) : OverHttp (preprocess (unescapeHtml u)) := by
  rcases Bool.or_eq_true_iff.mp h with h | h
  · exact Or.inl (scheme_kept (by decide) (by decide) h)
  · exact Or.inr (scheme_kept (by decide) (by decide) h)

theorem not_overHttp_of_slash (s : List Char) : ¬ OverHttp ('/' :: s) := by
  have hslash : Char.toLower '/' ≠ 'h' := by decide
  rintro (⟨t, ht⟩ | ⟨t, ht⟩)
  · exact hslash (List.cons.inj ht).1.symm
  · exact hslash (List.cons.inj ht).1.symm

/-- **Where an accepted address leads.** -/
theorem allowed_iff {a u : List Char} (h : safeUrl a = some u) :
    Allowed (preprocess (unescapeHtml u)) ↔ ¬ Slips a := by
  obtain ⟨rfl, hhttp | hsite⟩ := safeUrl_eq_some h
  · refine iff_of_true (Or.inl (overHttp_of_isHttp hhttp)) ?_
    rintro ⟨gap, e, rest, htrim, -⟩
    rw [htrim] at hhttp
    cases hhttp
  · obtain ⟨s, hs, hfirst⟩ : ∃ s, trim a = '/' :: s ∧ ∀ c ∈ s.head?, isSlash c = false := by
      unfold isSitePath at hsite
      split at hsite
      · rename_i c s heq
        obtain ⟨hslash, hback⟩ := (Bool.and_eq_true _ _).mp hsite
        refine ⟨c :: s, heq, ?_⟩
        rintro d ⟨⟩
        exact Bool.or_eq_false_iff.mpr
          ⟨decide_eq_false (of_decide_eq_true hslash), decide_eq_false (of_decide_eq_true hback)⟩
      · rename_i heq
        exact ⟨[], heq, fun c hc => nomatch hc⟩
      · cases hsite
    have hprepared : preprocess (unescapeHtml (trim a)) =
        '/' :: ((unescapeHtml s).rdropWhile isControlOrSpace).filter fun d => !isTabOrNewline d := by
      rw [hs, unescapeHtml_cons (by decide), preprocess_cons (by decide)]
    have hslips : Slips a ↔ ∃ e, isSlash e = true ∧
        (((unescapeHtml s).rdropWhile isControlOrSpace).filter fun d => !isTabOrNewline d).head? = some e := by
      constructor
      · rintro ⟨gap, e, rest, htrim, -, hall, he⟩
        refine ⟨e, he, (head?_read he s).mpr ⟨gap, rest, ?_, hall⟩⟩
        rw [hs] at htrim
        exact (List.cons.inj htrim).2
      · rintro ⟨e, he, hhead⟩
        obtain ⟨gap, rest, rfl, hall⟩ := (head?_read he s).mp hhead
        refine ⟨gap, e, rest, hs, ?_, hall, he⟩
        rintro rfl
        rw [hfirst e rfl] at he
        cases he
    rw [hprepared, hslips]
    constructor
    · rintro (hover | ⟨t, heq, hhead⟩)
      · exact absurd hover (not_overHttp_of_slash _)
      · rintro ⟨e, he, hfound⟩
        rw [← (List.cons.inj heq).2, hfound] at hhead
        rw [hhead e rfl] at he
        cases he
    · intro hno
      refine Or.inr ⟨_, rfl, fun e he => ?_⟩
      by_contra hslash
      exact hno ⟨e, eq_true_of_ne_false hslash, he⟩

theorem safeUrl_of_slips {a : List Char} (h : Slips a) : ∃ u, safeUrl a = some u := by
  obtain ⟨gap, e, rest, htrim, hne, hall, -⟩ := h
  refine ⟨_, safeUrl_of_site htrim ?_⟩
  cases gap with
  | nil => exact absurd rfl hne
  | cons g gap =>
    rintro c ⟨⟩
    by_contra hslash
    have hg := hall g List.mem_cons_self
    rw [kept_of_visible (slash_visible (eq_true_of_ne_false hslash)).1] at hg
    cases hg

/-! ### The addresses of the output -/

theorem fixedTags_no_address :
    ∀ t ∈ fixedTags, ∀ opening ∈ ["a href=\"".toList, "img src=\"".toList], ¬ '<' :: opening <+: t := by
  decide

/-- Tags without an attribute have no address. -/
theorem not_places_of_fixed {x u : List Char} (h : Tagged (markup []) x) : ¬ Places x u := by
  rintro ⟨-, t, ht, opening, hopening, hprefix⟩
  have hbuilt : Built [] ('<' :: (t ++ ['>'])) := Tagged.isTag_of_mem_tags h ht
  have hwhole : '<' :: opening <+: '<' :: (t ++ ['>']) :=
    List.cons_prefix_cons.mpr ⟨rfl, ((List.prefix_append _ _).trans hprefix).trans (List.prefix_append _ _)⟩
  generalize '<' :: (t ++ ['>']) = tag at hbuilt hwhole
  cases hbuilt with
  | fixed hfixed => exact fixedTags_no_address _ hfixed _ hopening hwhole
  | link hu =>
    have hsafe := hu.safe
    rw [List.infix_nil.mp hu.part] at hsafe
    cases hsafe
  | image hu =>
    have hsafe := hu.safe
    rw [List.infix_nil.mp hu.part] at hsafe
    cases hsafe

/-- A value is told from the quotes around it. -/
theorem value_unique {opening u a rest : List Char} (hu : '"' ∉ u) (ha : '"' ∉ a)
    (h : opening ++ (u ++ ['"']) <+: opening ++ (a ++ '"' :: rest)) : u = a := by
  obtain ⟨t, ht⟩ := (List.prefix_append_right_inj opening).mp h
  rw [List.append_assoc] at ht
  exact (append_cons_unique hu ha ht).1

/-- What stands behind the address of a link. -/
def linkEnd : List Char := " target=\"_blank\" rel=\"nofollow noopener noreferrer\"".toList

/-- What stands behind the address of an image. -/
def imageEnd : List Char := " alt=\"chart image\"".toList

/-- What an attribute begins with tells which one it is. -/
theorem opening_unique :
    ∀ o ∈ ["a href=\"".toList, "img src=\"".toList], ∀ o' ∈ ["a href=\"".toList, "img src=\"".toList],
      o.head? = o'.head? → o = o' := by
  decide

theorem openings_ne_nil : ∀ o ∈ ["a href=\"".toList, "img src=\"".toList], o ≠ [] := by decide

/-- The address of a tag is the one it was built with. -/
theorem places_tag {tag opening a closing u : List Char}
    (hopening : opening ∈ ["a href=\"".toList, "img src=\"".toList])
    (htag : tag = '<' :: (opening ++ (a ++ '"' :: closing) ++ ['>'])) (hstop : '>' ∉ opening ++ (a ++ '"' :: closing))
    (ha : '"' ∉ a) : Places tag u ↔ u = a := by
  have htags : tagsOf tag = [opening ++ (a ++ '"' :: closing)] := by
    rw [htag]
    exact Tagged.tags_of_tag (M := markup []) hstop
  rw [Places, htags]
  constructor
  · rintro ⟨hu, t, ht, o, ho, hprefix⟩
    cases List.mem_singleton.mp ht
    have hhead : o.head? = opening.head? := by
      obtain ⟨rest, hrest⟩ := hprefix
      have heads := congrArg List.head? hrest
      rwa [List.append_assoc, List.head?_append_of_ne_nil _ (openings_ne_nil o ho),
        List.head?_append_of_ne_nil _ (openings_ne_nil opening hopening)] at heads
    cases opening_unique o ho opening hopening hhead
    exact value_unique hu ha hprefix
  · rintro rfl
    refine ⟨ha, _, List.mem_singleton.mpr rfl, opening, hopening, ?_⟩
    rw [List.prefix_append_right_inj, List.prefix_append_right_inj]
    exact ⟨closing, rfl⟩

section
variable {a u : List Char}

theorem no_stop_around (ha : ∀ c ∈ a, c ∉ marks) {opening closing : List Char} (hopen : '>' ∉ opening)
    (hclose : '>' ∉ closing) : '>' ∉ opening ++ (a ++ closing) := by
  intro h
  rcases List.mem_append.mp h with h | h
  · exact hopen h
  · rcases List.mem_append.mp h with h | h
    · exact ha _ h (by decide)
    · exact hclose h

theorem around_eq {opening closing o c : List Char} (hopen : opening = '<' :: o) (hclose : closing = '"' :: c ++ ['>'])
    (a : List Char) : opening ++ a ++ closing = '<' :: (o ++ (a ++ '"' :: c) ++ ['>']) := by
  rw [hopen, hclose, List.cons_append, List.cons_append, List.append_assoc, List.append_assoc, List.append_assoc]

theorem linkTag_eq (a : List Char) : linkTag a = '<' :: ("a href=\"".toList ++ (a ++ '"' :: linkEnd) ++ ['>']) :=
  around_eq (by decide) (by decide) a

theorem imageTag_eq (a : List Char) : imageTag a = '<' :: ("img src=\"".toList ++ (a ++ '"' :: imageEnd) ++ ['>']) :=
  around_eq (by decide) (by decide) a

theorem places_linkTag (ha : ∀ c ∈ a, c ∉ marks) : Places (linkTag a) u ↔ u = a := by
  have hend : '>' ∉ '"' :: linkEnd := by decide
  have hopen : '>' ∉ "a href=\"".toList := by decide
  exact places_tag List.mem_cons_self (linkTag_eq a) (no_stop_around ha hopen hend) fun h => ha _ h (by decide)

theorem places_imageTag (ha : ∀ c ∈ a, c ∉ marks) : Places (imageTag a) u ↔ u = a := by
  have hend : '>' ∉ '"' :: imageEnd := by decide
  have hopen : '>' ∉ "img src=\"".toList := by decide
  exact places_tag (List.mem_cons_of_mem _ List.mem_cons_self) (imageTag_eq a) (no_stop_around ha hopen hend)
    fun h => ha _ h (by decide)

end

theorem places_append {src x y u : List Char} (hx : Tagged (markup src) x) :
    Places (x ++ y) u ↔ Places x u ∨ Places y u := by
  have happend : tagsOf (x ++ y) = tagsOf x ++ tagsOf y := hx.tags_append
  unfold Places
  rw [happend]
  constructor
  · rintro ⟨hu, t, ht, hrest⟩
    rcases List.mem_append.mp ht with ht | ht
    · exact Or.inl ⟨hu, t, ht, hrest⟩
    · exact Or.inr ⟨hu, t, ht, hrest⟩
  · rintro (⟨hu, t, ht, hrest⟩ | ⟨hu, t, ht, hrest⟩)
    · exact ⟨hu, t, List.mem_append_left _ ht, hrest⟩
    · exact ⟨hu, t, List.mem_append_right _ ht, hrest⟩

/-- What a turn leaves: frames that close with fixed tags, and the address that was accepted, if one was. -/
structure Emits (found : Option (List Char)) (result : List Char × List Frame) : Prop where
  /-- The frames close with fixed tags. -/
  framed : Framed [] result.2
  /-- What was emitted is made of tags. -/
  tagged : ∃ src, Tagged (markup src) result.1
  /-- It has the address, and no other. -/
  places : ∀ u, Places result.1 u ↔ found = some u

/-- A turn that emits fixed tags only has no address. -/
theorem Emits.of_keeps {result : List Char × List Frame} (h : Keeps [] result) : Emits none result :=
  ⟨h.2, ⟨[], h.1⟩, fun _ => iff_of_false (not_places_of_fixed h.1) nofun⟩

section
variable {stack : List Frame}

theorem onTag_emits (hstack : Framed [] stack) {attr : Option (List Char)} (hattr : ∀ a ∈ attr, ∀ c ∈ a, c ∉ marks)
    (closing : Bool) (name : List Char) :
    Emits ((Item.tag closing name attr).address.bind safeUrl) (onTag closing name attr stack) := by
  have hstep := onTag_step closing name attr stack
  generalize hfound : (Item.tag closing name attr).address.bind safeUrl = found at hstep ⊢
  generalize onTag closing name attr stack = result at hstep ⊢
  cases hstep with
  | skip => exact .of_keeps ⟨.nil, hstack⟩
  | close p => exact .of_keeps (closeUntil_keeps hstack p)
  | item => exact .of_keeps (listItem_keeps hstack)
  | inline htag =>
    obtain ⟨hopen, hclose⟩ := inlineTags_tagged _ htag
    exact .of_keeps ⟨tagged_of_nil_or_fixed hopen, hstack.cons (tagged_of_nil_or_fixed hclose)⟩
  | link u =>
    obtain ⟨a, ha, hu⟩ := Option.bind_eq_some_iff.mp hfound
    have haddress : Address a u := address_of_safeUrl (hattr a (attr_of_address ha)) List.infix_rfl hu
    have hclose : "</a>".toList ∈ fixedTags := by decide
    refine ⟨hstack.cons (tagged_of_fixed hclose), ⟨a, .of_tag (.link haddress)⟩, fun u' => ?_⟩
    rw [places_linkTag haddress.clean, Option.some.injEq, eq_comm]
  | unlinked => exact .of_keeps ⟨.nil, hstack.cons .nil⟩
  | block hblock =>
    obtain ⟨hopen, hclose⟩ := blockTags_fixed _ hblock
    exact .of_keeps (openBlock_keeps hstack _ hopen hclose)

theorem image_emits (hstack : Framed [] stack) {content : List Char} (hcontent : ∀ c ∈ content, c ∉ marks) :
    Emits (safeUrl content) (((safeUrl content).map imageTag).getD [], stack) := by
  generalize hsafe : safeUrl content = found
  cases found with
  | none => exact .of_keeps ⟨.nil, hstack⟩
  | some u =>
    have haddress : Address content u := address_of_safeUrl hcontent List.infix_rfl hsafe
    refine ⟨hstack, ⟨content, .of_tag (.image haddress)⟩, fun u' => ?_⟩
    rw [Option.map_some, Option.getD_some, places_imageTag haddress.clean, Option.some.injEq, eq_comm]

theorem onItem_emits (hstack : Framed [] stack) {item : Item} (hparts : ∀ p ∈ item.parts, ∀ c ∈ p, c ∉ marks) :
    Emits (item.address.bind safeUrl) (onItem item stack) := by
  cases item with
  | text cs => exact .of_keeps ⟨textToHtml_tagged (hparts cs (List.mem_singleton.mpr rfl)), hstack⟩
  | pine code => exact .of_keeps ⟨pine_tagged (hparts code (List.mem_singleton.mpr rfl)), hstack⟩
  | screen => exact .of_keeps ⟨.nil, hstack⟩
  | bracket =>
    have hclean : ∀ c ∈ ['['], c ∉ marks := by decide
    exact .of_keeps ⟨.of_plain hclean, hstack⟩
  | tag closing name attr => exact onTag_emits hstack (fun a ha => hparts a (Option.mem_toList.mpr ha)) closing name
  | image content =>
    have hcontent := hparts content (List.mem_singleton.mpr rfl)
    exact image_emits hstack hcontent

/-- The addresses of what is built are those of the items. -/
theorem places_build {items : List Item} (hitems : ∀ item ∈ items, ∀ p ∈ item.parts, ∀ c ∈ p, c ∉ marks)
    (hstack : Framed [] stack) {u : List Char} :
    Places (build items stack) u ↔ ∃ item ∈ items, item.address.bind safeUrl = some u := by
  induction items generalizing stack with
  | nil =>
    refine iff_of_false (not_places_of_fixed (closes_tagged hstack)) ?_
    rintro ⟨item, hitem, -⟩
    cases hitem
  | cons item items ih =>
    obtain ⟨hfirst, hrest⟩ := List.forall_mem_cons.mp hitems
    have hemits := onItem_emits hstack hfirst
    obtain ⟨src, htagged⟩ := hemits.tagged
    rw [build, places_append htagged, hemits.places, ih hrest hemits.framed, List.exists_mem_cons_iff]

end

/-- Addresses are looked for in the tags that are kept. -/
theorem places_iff_keptTags {html u : List Char} : Places html u ↔ '"' ∉ u ∧ ∃ t ∈ keptTags html,
    ∃ opening ∈ ["a href=\"".toList, "img src=\"".toList], opening ++ (u ++ ['"']) <+: t := by
  refine and_congr_right fun _ => exists_congr fun t => ?_
  rw [keptTags, List.mem_filter, and_assoc]
  refine and_congr_right fun _ => (and_iff_right_of_imp ?_).symm
  rintro ⟨opening, hopening, hprefix⟩
  refine decide_eq_true ?_
  rintro rfl
  have hno : ∀ o ∈ ["a href=\"".toList, "img src=\"".toList], ¬ o <+: "br".toList := by decide
  exact hno opening hopening ((List.prefix_append _ _).trans hprefix)

theorem parts_clean {raw : List Char} {item : Item} (hitem : item ∈ itemsOf (escapeHtml raw)) :
    ∀ p ∈ item.parts, ∀ c ∈ p, c ∉ marks :=
  fun p hp _ hc => escapeHtml_clean ((parts_of_mem_itemsOf hitem p hp).subset hc)

/-- **The addresses of the output** are those that are accepted of the items. -/
theorem places_render_iff {raw u : List Char} :
    Places (renderTradingViewDescription raw) u ↔
      ∃ item ∈ itemsOf (escapeHtml raw), item.address.bind safeUrl = some u := by
  have hframes : Framed [] [] := fun f hf => nomatch hf
  rw [places_iff_keptTags, keptTags_render, ← places_iff_keptTags]
  exact places_build (fun _ hitem => parts_clean hitem) hframes

/-! ### Whole references -/

theorem codes_shape :
    ∀ e ∈ escapeMap, e.2 = '&' :: e.2.tail ∧ '&' ∉ e.2.tail ∧ ∀ c ∈ e.2, isWhite c = false ∧ c ≠ '[' ∧ c ≠ ']' := by
  decide

/-- Every ampersand of an escaped text begins a reference. -/
theorem references_of_escapeHtml {raw x y : List Char} (h : escapeHtml raw = x ++ '&' :: y) :
    ∃ e ∈ escapeMap, e.2 <+: '&' :: y := by
  induction raw generalizing x with
  | nil =>
    cases x with
    | nil => cases h
    | cons c x => cases h
  | cons c raw ih =>
    have hcons : escapeChar c ++ escapeHtml raw = x ++ '&' :: y := h
    rcases List.append_eq_append_iff.mp hcons with ⟨rest, -, hraw⟩ | ⟨rest, hcode, hrest⟩
    · exact ih hraw
    · cases rest with
      | nil => exact ih (x := []) hrest.symm
      | cons d rest =>
        obtain ⟨rfl, htail⟩ := List.cons.inj hrest
        unfold escapeChar at hcode
        cases hlookup : escapeMap.lookup c with
        | none =>
          rw [hlookup] at hcode
          rw [Option.getD_none] at hcode
          have hc : '&' ∈ [c] := hcode ▸ List.mem_append_right x List.mem_cons_self
          rw [← List.mem_singleton.mp hc] at hlookup
          cases hlookup
        | some code =>
          rw [hlookup] at hcode
          obtain ⟨before, after, heq, -⟩ := List.lookup_eq_some_iff.mp hlookup
          have hmem : (c, code) ∈ escapeMap := heq ▸ List.mem_append_right _ List.mem_cons_self
          obtain ⟨hstart, honce, -⟩ := codes_shape _ hmem
          dsimp only [Option.getD_some] at hcode hstart honce
          refine ⟨_, hmem, ?_⟩
          cases x with
          | nil => exact ⟨escapeHtml raw, by rw [hcode, hrest, List.nil_append]⟩
          | cons d x =>
            rw [hstart] at hcode
            rw [(List.cons.inj hcode).2] at honce
            exact absurd (List.mem_append_right x List.mem_cons_self) honce

/-- A text without a character ends before it. -/
theorem prefix_before {code t b : List Char} {c : Char} (hc : c ∉ code) (h : code <+: t ++ c :: b) : code <+: t := by
  have hwhole : t ++ [c] <+: t ++ c :: b := ⟨b, by rw [List.append_assoc, List.singleton_append]⟩
  rcases List.prefix_or_prefix_of_prefix h hwhole with hcode | hlong
  · rcases List.prefix_concat_iff.mp hcode with rfl | hshort
    · exact absurd (List.mem_append_right t List.mem_cons_self) hc
    · exact hshort
  · exact absurd (hlong.subset (List.mem_append_right t List.mem_cons_self)) hc

theorem tagAttr_delimited {s a behind : List Char} (h : tagAttr s = some (some a, behind)) :
    ∃ x, s = x ++ a ++ ']' :: behind := by
  unfold tagAttr at h
  split at h
  · cases h
  · rename_i cs
    split at h
    · rename_i c rest hdrop
      cases h
      have hc : c = ']' := by
        have hhead := List.head?_dropWhile_not (fun d => decide (d ≠ ']')) cs
        rw [hdrop] at hhead
        simpa using hhead
      refine ⟨['='], ?_⟩
      have hcs : cs = cs.takeWhile (fun d => decide (d ≠ ']')) ++ ']' :: behind := by
        rw [← hc, ← hdrop, hc, List.takeWhile_append_dropWhile]
      exact congrArg ('=' :: ·) hcs
    · cases h
  · cases h

theorem genericTag_delimited {s a behind : List Char} {item : Item} (h : genericTag s = some (item, behind))
    (ha : item.address = some a) : ∃ x, s = x ++ a ++ ']' :: behind := by
  have hslash : (tagSlash s).2 <:+ s := by
    unfold tagSlash
    split
    · exact List.suffix_cons _ _
    · exact List.suffix_rfl
  obtain ⟨⟨name, rest⟩, hname, hattr⟩ := Option.bind_eq_some_iff.mp h
  obtain ⟨⟨attr, behind'⟩, hread, heq⟩ := Option.map_eq_some_iff.mp hattr
  cases heq
  rw [attr_of_address ha] at hread
  obtain ⟨x, rfl⟩ := tagAttr_delimited hread
  have hrest : x ++ a ++ ']' :: behind <:+ (tagSlash s).2 := by
    unfold tagName at hname
    split at hname
    · cases hname
    · rename_i c cs heq
      split_ifs at hname
      rw [← (Prod.mk.inj (Option.some.inj hname)).2, heq]
      exact (List.dropWhile_suffix _).trans (List.suffix_cons _ _)
  obtain ⟨before, hbefore⟩ := hrest.trans hslash
  exact ⟨before ++ x, by rw [← hbefore, List.append_assoc, List.append_assoc, List.append_assoc]⟩

/-- Behind an address a bracket is read. -/
theorem nextItem_delimited {before s a : List Char} (ha : (nextItem before s).1.address = some a) :
    ∃ x c y, s = x ++ a ++ c :: y ∧ (c = '[' ∨ c = ']') := by
  unfold nextItem at ha
  split_ifs at ha with hhead
  · unfold bracketItem at ha
    cases hpine : between "[pine]" "[/pine]" s with
    | some found => rw [hpine] at ha; cases ha
    | none =>
    cases hopen : eat ignoreCase "[pine]".toList s with
    | some code => rw [hpine, hopen] at ha; cases ha
    | none =>
    rw [hpine, hopen] at ha
    dsimp only at ha
    cases hscreen : if atLineStart before then between "[screen]" "[/screen]" s else none with
    | some found => rw [hscreen] at ha; cases ha
    | none =>
    rw [hscreen] at ha
    cases himage : between "[image]" "[/image]" s with
    | some found =>
      rw [himage] at ha
      cases ha
      obtain ⟨r, heat, hup⟩ := Option.bind_eq_some_iff.mp himage
      obtain ⟨x, rfl⟩ := suffix_of_eat heat
      obtain ⟨m, hm, rfl⟩ := upTo_eq_some hup
      cases hm with
      | cons hbracket hrest =>
        rw [ignoreCase_bracket hbracket]
        exact ⟨x, '[', _, by rw [List.append_assoc, List.append_assoc]; rfl, Or.inl rfl⟩
    | none =>
    rw [himage] at ha
    dsimp only at ha
    cases htag : genericTag s.tail with
    | none => rw [htag] at ha; cases ha
    | some found =>
      rw [htag] at ha
      obtain ⟨item, behind⟩ := found
      obtain ⟨x, hx⟩ := genericTag_delimited htag ha
      obtain ⟨l, hl⟩ := List.tail_suffix s
      refine ⟨l ++ x, ']', behind, ?_, Or.inr rfl⟩
      rw [← hl, hx, List.append_assoc, List.append_assoc, List.append_assoc]
  · cases ha

/-- Behind a text that was trimmed a blank is, or its end. -/
theorem trim_followed (p : List Char) : ∃ l r, p = l ++ trim p ++ r ∧ ∀ c ∈ r.head?, isWhite c = true := by
  refine ⟨p.takeWhile isWhite, (p.dropWhile isWhite).rtakeWhile isWhite, ?_, fun c hc => ?_⟩
  · rw [trim, trimBy, List.append_assoc, List.rdropWhile_append_rtakeWhile, List.takeWhile_append_dropWhile]
  · exact List.mem_rtakeWhile_imp (List.mem_of_mem_head? hc)

/-- **Every ampersand of an address is of a reference**: none is cut. -/
theorem references_of_places {raw u x y : List Char} (hu : Places (renderTradingViewDescription raw) u)
    (h : u = x ++ '&' :: y) : ∃ e ∈ escapeMap, e.2 <+: '&' :: y := by
  obtain ⟨item, hitem, hfound⟩ := places_render_iff.mp hu
  obtain ⟨a, ha, hsafe⟩ := Option.bind_eq_some_iff.mp hfound
  have hdelimited : ∃ l c r, escapeHtml raw = l ++ a ++ c :: r ∧ (c = '[' ∨ c = ']') := by
    refine of_mem_itemsFor
      (p := fun item => item.address = some a → ∃ l c r, escapeHtml raw = l ++ a ++ c :: r ∧ (c = '[' ∨ c = ']'))
      (fun before s _ hs ha => ?_) List.suffix_rfl item hitem ha
    obtain ⟨l, hl⟩ := hs
    obtain ⟨x, c, y, hx, hc⟩ := nextItem_delimited ha
    exact ⟨l ++ x, c, y, by rw [← hl, hx, List.append_assoc, List.append_assoc, List.append_assoc], hc⟩
  obtain ⟨l, c, r, hsrc, hc⟩ := hdelimited
  obtain ⟨l', r', ha', hwhite⟩ := trim_followed a
  rw [← (safeUrl_eq_some hsafe).1] at ha'
  -- the character behind the address, which no reference has
  obtain ⟨d, rest, hd, hnot⟩ : ∃ d rest, r' ++ c :: r = d :: rest ∧ ∀ e ∈ escapeMap, d ∉ e.2 := by
    cases r' with
    | nil =>
      refine ⟨c, r, rfl, fun e he hmem => ?_⟩
      obtain ⟨-, hopen, hclose⟩ := (codes_shape e he).2.2 c hmem
      exact hc.elim hopen hclose
    | cons d r' =>
      refine ⟨d, r' ++ c :: r, rfl, fun e he hmem => ?_⟩
      have hplain := ((codes_shape e he).2.2 d hmem).1
      rw [hwhite d rfl] at hplain
      cases hplain
  have hall : escapeHtml raw = (l ++ l' ++ x) ++ '&' :: (y ++ d :: rest) := by
    rw [hsrc, ha', ← hd, h]
    simp only [List.append_assoc, List.cons_append]
  obtain ⟨e, he, hprefix⟩ := references_of_escapeHtml hall
  exact ⟨e, he, prefix_before (t := '&' :: y) (hnot e he) hprefix⟩

/-! ### Where the links lead -/

/-- **Every address of the output leads to http, to https or to the site**, if and only if no item brings one that is a
slash, tabs or line ends, and another slash. -/
theorem links_allowed_iff (raw : List Char) :
    (∀ u, Places (renderTradingViewDescription raw) u → Allowed (preprocess (unescapeHtml u))) ↔
      ∀ item ∈ itemsOf (escapeHtml raw), ∀ a ∈ item.address, ¬ Slips a := by
  constructor
  · intro h item hitem a ha hslips
    obtain ⟨u, hu⟩ := safeUrl_of_slips hslips
    have hfound : item.address.bind safeUrl = some u := Option.bind_eq_some_iff.mpr ⟨a, ha, hu⟩
    exact (allowed_iff hu).mp (h u (places_render_iff.mpr ⟨item, hitem, hfound⟩)) hslips
  · intro h u hu
    obtain ⟨item, hitem, hfound⟩ := places_render_iff.mp hu
    obtain ⟨a, ha, hsafe⟩ := Option.bind_eq_some_iff.mp hfound
    exact (allowed_iff hsafe).mpr (h item hitem a ha)

/-- A tab behind the slash hides another one. -/
theorem not_links_allowed :
    ¬ ∀ raw u, Places (renderTradingViewDescription raw) u → Allowed (preprocess (unescapeHtml u)) := by
  intro h
  have hplaces : Places (renderTradingViewDescription "[url=/\t/evil.com]x[/url]".toList) "/\t/evil.com".toList := by
    refine ⟨by decide, "a href=\"/\t/evil.com\" target=\"_blank\" rel=\"nofollow noopener noreferrer\"".toList, by decide,
      "a href=\"".toList, by decide, by decide⟩
  have hprepared : preprocess (unescapeHtml "/\t/evil.com".toList) = '/' :: "/evil.com".toList := by decide
  rcases h _ _ hplaces with hover | ⟨s, hs, hhead⟩
  · rw [hprepared] at hover
    exact not_overHttp_of_slash _ hover
  · rw [hprepared] at hs
    have hslash := hhead '/' (by rw [← (List.cons.inj hs).2]; rfl)
    cases hslash

end StratTrader.Frontend
