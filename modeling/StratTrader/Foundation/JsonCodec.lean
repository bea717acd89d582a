import StratTrader.Foundation.CodePoints
import StratTrader.Foundation.Objects
import StratTrader.Foundation.Python

/-!
# Writing and reading JSON

`json.dumps(value)` as it is called without options: `, ` and `: ` between the values, and every
character that is not printable ASCII escaped. `json.loads(text)` reads any JSON text.

## What is proved

* `loads_dumps`: what is read from the text of a value is the value, but for its texts: a surrogate
  is escaped alone, and an escaped high surrogate is read together with the low one behind it.

## Honest scope

A number is the numeral that is written for it, and keys are texts. The text that is read is one of
Unicode scalar values, as what a stream delivers is. Python refuses integers of very many digits and
values that are nested too deeply, which are read here.
-/

namespace StratTrader.Foundation

/-- Whether the text is what `NUMBER_RE` matches behind the digits: `(\.\d+)?([eE][-+]?\d+)?`. -/
def isFraction : List Char → Bool
  | '.' :: cs => !(cs.takeWhile Char.isDigit).isEmpty && (Decimal.exponentOf (cs.dropWhile Char.isDigit)).isSome
  | cs => (Decimal.exponentOf cs).isSome

/-- Whether the text is what `NUMBER_RE` matches behind the sign: `(?:0|[1-9]\d*)` and what follows it. -/
def isUnsigned (cs : List Char) : Bool :=
  let whole := cs.takeWhile Char.isDigit
  decide (whole ≠ [] ∧ (whole.head? = some '0' → whole = ['0'])) && isFraction (cs.dropWhile Char.isDigit)

/-- Whether `NUMBER_RE` matches the whole text. -/
def isNumeral : List Char → Bool
  | '-' :: cs => isUnsigned cs
  | cs => isUnsigned cs

/-- An `int` or a finite `float`, by the numeral that is written for it. -/
structure JsonNumeral where
  /-- The numeral. -/
  text : List Char
  /-- It is one. -/
  valid : isNumeral text = true
  deriving DecidableEq

/-- A value that is written as one word. -/
inductive JsonAtom where
  /-- `None`. -/
  | null
  /-- `True` or `False`. -/
  | bool (b : Bool)
  /-- `float("nan")`. -/
  | nan
  /-- `float("inf")` or `float("-inf")`. -/
  | infinity (negative : Bool)
  /-- A number. -/
  | number (n : JsonNumeral)
  deriving DecidableEq

/-- A value that JSON can write. -/
inductive PyJson where
  /-- A value that is written as one word. -/
  | atom (a : JsonAtom)
  /-- A `str`. -/
  | str (t : PyText)
  /-- A `list`. -/
  | list (vs : List PyJson)
  /-- A `dict`: its entries in order. -/
  | dict (ms : List (PyText × PyJson))

/-- `bool` of a number: a `float` that is nearer to zero than to the least there is is zero. -/
def JsonNumeral.truthy (n : JsonNumeral) : Bool :=
  match Decimal.numeralOf (Decimal.signOf n.text).2 with
  | some q => decide (1 / 2 ^ 1075 < q)
  | none => true

/-- `bool` of a word. -/
def JsonAtom.truthy : JsonAtom → Bool
  | null => false
  | bool b => b
  | nan => true
  | infinity _ => true
  | number n => n.truthy

namespace PyJson

open CodePoint (chr)

/-- `bool`. -/
def truthy : PyJson → Bool
  | atom a => a.truthy
  | str t => !t.isEmpty
  | list vs => !vs.isEmpty
  | dict ms => !ms.isEmpty

/-- `v or other`. -/
def orElse (v other : PyJson) : PyJson := if v.truthy then v else other

/-! ### Writing -/

/-- The word. -/
def word : JsonAtom → List Char
  | .null => ['n', 'u', 'l', 'l']
  | .bool true => ['t', 'r', 'u', 'e']
  | .bool false => ['f', 'a', 'l', 's', 'e']
  | .nan => ['N', 'a', 'N']
  | .infinity false => ['I', 'n', 'f', 'i', 'n', 'i', 't', 'y']
  | .infinity true => ['-', 'I', 'n', 'f', 'i', 'n', 'i', 't', 'y']
  | .number n => n.text

/-- `ESCAPE_DCT`. -/
def escapes : List (ℕ × Char) :=
  [(0x5C, '\\'), (0x22, '"'), (0x08, 'b'), (0x0C, 'f'), (0x0A, 'n'), (0x0D, 'r'), (0x09, 't')]

/-- `"\\u{0:04x}"`. -/
def unitEscape (u : CodePoint) : List Char :=
  ['\\', 'u', Nat.digitChar (u.val / 0x1000), Nat.digitChar (u.val / 0x100 % 0x10), Nat.digitChar (u.val / 0x10 % 0x10),
    Nat.digitChar (u.val % 0x10)]

/-- What is written for a character of a text. -/
def escapePoint (p : CodePoint) : List Char :=
  match escapes.lookup p.val with
  | some c => ['\\', c]
  | none => if 0x20 ≤ p.val ∧ p.val ≤ 0x7E then [Char.ofNat p.val] else (CodePoint.units p).flatMap unitEscape

/-- A text in quotation marks. -/
def quoteText (t : PyText) : List Char := '"' :: (t.flatMap escapePoint ++ ['"'])

/-- What follows a value in a list. -/
def encodeMore (close : Char) (texts : List (List Char)) : List Char :=
  texts.flatMap (fun text => ',' :: ' ' :: text) ++ [close]

/-- What follows the opening mark of a list. -/
def encodeAll (close : Char) : List (List Char) → List Char
  | [] => [close]
  | text :: texts => text ++ encodeMore close texts

mutual

/-- The text of a value. -/
def encode : PyJson → List Char
  | .atom a => word a
  | .str t => quoteText t
  | .list vs => '[' :: encodeAll ']' (itemTexts vs)
  | .dict ms => '{' :: encodeAll '}' (memberTexts ms)

/-- The texts of items. -/
def itemTexts : List PyJson → List (List Char)
  | [] => []
  | v :: vs => encode v :: itemTexts vs

/-- The texts of members. -/
def memberTexts : List (PyText × PyJson) → List (List Char)
  | [] => []
  | (k, v) :: ms => (quoteText k ++ ':' :: ' ' :: encode v) :: memberTexts ms

end

/-- `json.dumps`. -/
def dumps (v : PyJson) : String := String.ofList (encode v)

/-! ### Reading -/

/-- A blank of JSON. -/
def isBlank (c : Char) : Bool := decide (c = ' ' ∨ c = '\t' ∨ c = '\n' ∨ c = '\r')

/-- Without the blanks at the front. -/
def skipBlanks (cs : List Char) : List Char := cs.dropWhile isBlank

/-- The value of a hexadecimal digit. -/
def hexDigit? (c : Char) : Option ℕ :=
  if c.isDigit then some (c.toNat - '0'.toNat)
  else if 'a'.toNat ≤ c.toNat ∧ c.toNat ≤ 'f'.toNat then some (c.toNat - 'a'.toNat + 10)
  else if 'A'.toNat ≤ c.toNat ∧ c.toNat ≤ 'F'.toNat then some (c.toNat - 'A'.toNat + 10)
  else none

/-- The code unit of four hexadecimal digits. -/
def unit? (a b c d : Char) : Option CodePoint := do
  let a ← hexDigit? a
  let b ← hexDigit? b
  let c ← hexDigit? c
  let d ← hexDigit? d
  return chr (0x1000 * a + 0x100 * b + 0x10 * c + d)

/-- `BACKSLASH`. -/
def backslash : List (Char × CodePoint) :=
  [('"', chr 0x22), ('\\', chr 0x5C), ('/', chr 0x2F), ('b', chr 0x08), ('f', chr 0x0C), ('n', chr 0x0A),
    ('r', chr 0x0D), ('t', chr 0x09)]

/-- The characters of a text up to the closing quotation mark, an escaped code unit at a time. -/
def scanUnits : List Char → Option (PyText × List Char)
  | [] => none
  | '"' :: cs => some ([], cs)
  | '\\' :: 'u' :: a :: b :: c :: d :: cs =>
    (unit? a b c d).bind fun u => (scanUnits cs).map fun p => (u :: p.1, p.2)
  | '\\' :: c :: cs => (backslash.lookup c).bind fun u => (scanUnits cs).map fun p => (u :: p.1, p.2)
  | c :: cs => if c.toNat < 0x20 then none else (scanUnits cs).map fun p => (CodePoint.ofChar c :: p.1, p.2)

/-- `scanstring`. No character of the text that is read is a surrogate, so that only escaped ones are joined. -/
def scanString (cs : List Char) : Option (PyText × List Char) := (scanUnits cs).map fun p => (p.1.join, p.2)

/-- What a word stands for. -/
def atom? (w : List Char) : Option JsonAtom :=
  if w = word .null then some .null
  else if w = word (.bool true) then some (.bool true)
  else if w = word (.bool false) then some (.bool false)
  else if w = word .nan then some .nan
  else if w = word (.infinity false) then some (.infinity false)
  else if w = word (.infinity true) then some (.infinity true)
  else if h : isNumeral w = true then some (.number ⟨w, h⟩)
  else none

/-- Reads a word. Nothing that may follow one is a character of a word, so that the word is read whole. -/
def scanAtom (cs : List Char) : Option (PyJson × List Char) :=
  (atom? (cs.takeWhile isWord)).map fun a => (.atom a, cs.dropWhile isWord)

section
variable {α : Type*} (close : Char) (item : List Char → Option (α × List Char))

/-- What follows an item: the closing mark, or a comma and an item and what follows that. -/
def scanMore : ℕ → List Char → Option (List α × List Char)
  | 0, _ => none
  | fuel + 1, cs =>
    match skipBlanks cs with
    | [] => none
    | c :: cs =>
      if c = close then some ([], cs)
      else if c = ',' then
        (item (skipBlanks cs)).bind fun p => (scanMore fuel p.2).map fun q => (p.1 :: q.1, q.2)
      else none

/-- What follows an opening mark. -/
def scanAll (cs : List Char) : Option (List α × List Char) :=
  match skipBlanks cs with
  | [] => none
  | c :: cs =>
    if c = close then some ([], cs)
    else (item (c :: cs)).bind fun p => (scanMore close item (p.2.length + 1) p.2).map fun q => (p.1 :: q.1, q.2)

end

/-- Reads a member, where `value` reads its value. -/
def scanMember (value : List Char → Option (PyJson × List Char)) : List Char → Option ((PyText × PyJson) × List Char)
  | [] => none
  | c :: cs =>
    if c = '"' then
      (scanString cs).bind fun p =>
        match skipBlanks p.2 with
        | [] => none
        | c :: rest => if c = ':' then (value (skipBlanks rest)).map fun q => ((p.1, q.1), q.2) else none
    else none

/-- `scan_once`, of a value that is not nested more than `fuel` deep. -/
def scanOnce : ℕ → List Char → Option (PyJson × List Char)
  | 0, _ => none
  | _ + 1, [] => none
  | fuel + 1, c :: cs =>
    if c = '"' then (scanString cs).map fun p => (.str p.1, p.2)
    else if c = '[' then (scanAll ']' (scanOnce fuel) cs).map fun p => (.list p.1, p.2)
    else if c = '{' then (scanAll '}' (scanMember (scanOnce fuel)) cs).map fun p => (.dict (mergeEntries [] p.1), p.2)
    else scanAtom (c :: cs)

/-- `json.loads`: `none` is `JSONDecodeError`. -/
def loads (s : String) : Option PyJson :=
  (scanOnce (s.toList.length + 1) (skipBlanks s.toList)).bind fun p => if skipBlanks p.2 = [] then some p.1 else none

/-! ### Words -/

theorem mem_dropWhile {cs : List Char} {p : Char → Bool} {c : Char} (h : c ∈ cs) : p c = true ∨ c ∈ cs.dropWhile p := by
  rw [← List.takeWhile_append_dropWhile (p := p) (l := cs)] at h
  exact (List.mem_append.mp h).imp List.mem_takeWhile_imp id

theorem mem_signOf {cs : List Char} {c : Char} (h : c ∈ cs) : isWord c = true ∨ c ∈ (Decimal.signOf cs).2 := by
  unfold Decimal.signOf
  split
  · rcases List.mem_cons.mp h with rfl | h
    · exact .inl (by decide)
    · exact .inr h
  · rcases List.mem_cons.mp h with rfl | h
    · exact .inl (by decide)
    · exact .inr h
  · exact .inr h

theorem isWord_of_exponentOf {cs : List Char} (h : (Decimal.exponentOf cs).isSome = true) :
    ∀ c ∈ cs, isWord c = true := by
  cases cs with
  | nil => exact nofun
  | cons e cs =>
    unfold Decimal.exponentOf at h
    dsimp only at h
    by_cases hvalid : (e = 'e' ∨ e = 'E') ∧ (Decimal.signOf cs).2 ≠ [] ∧ (Decimal.signOf cs).2.all Char.isDigit = true
    · obtain ⟨hmark, -, hdigits⟩ := hvalid
      intro c hc
      rcases List.mem_cons.mp hc with rfl | hc
      · rcases hmark with rfl | rfl
        · decide
        · decide
      · exact (mem_signOf hc).elim id fun hc => isWord_of_isDigit (List.all_eq_true.mp hdigits c hc)
    · rw [if_neg hvalid] at h
      cases h

theorem isWord_of_isFraction {cs : List Char} (h : isFraction cs = true) : ∀ c ∈ cs, isWord c = true := by
  unfold isFraction at h
  split at h
  · intro c hc
    rcases List.mem_cons.mp hc with rfl | hc
    · decide
    · exact (mem_dropWhile hc).elim isWord_of_isDigit (isWord_of_exponentOf (Bool.and_eq_true_iff.mp h).2 c)
  · exact isWord_of_exponentOf h

theorem isWord_of_isUnsigned {cs : List Char} (h : isUnsigned cs = true) : ∀ c ∈ cs, isWord c = true := fun c hc =>
  (mem_dropWhile hc).elim isWord_of_isDigit (isWord_of_isFraction (Bool.and_eq_true_iff.mp h).2 c)

/-- A numeral is a word. -/
theorem isWord_of_isNumeral {cs : List Char} (h : isNumeral cs = true) : ∀ c ∈ cs, isWord c = true := by
  unfold isNumeral at h
  split at h
  · intro c hc
    rcases List.mem_cons.mp hc with rfl | hc
    · decide
    · exact isWord_of_isUnsigned h c hc
  · exact isWord_of_isUnsigned h

theorem isWord_of_mem_word {a : JsonAtom} {c : Char} (h : c ∈ word a) : isWord c = true := by
  have hbool : ∀ b, (word (.bool b)).all isWord = true := by decide
  have hinfinity : ∀ b, (word (.infinity b)).all isWord = true := by decide
  cases a with
  | null => exact List.all_eq_true.mp (show (word .null).all isWord = true by decide) c h
  | bool b => exact List.all_eq_true.mp (hbool b) c h
  | nan => exact List.all_eq_true.mp (show (word .nan).all isWord = true by decide) c h
  | infinity negative => exact List.all_eq_true.mp (hinfinity negative) c h
  | number n => exact isWord_of_isNumeral n.valid c h

theorem word_ne_nil (a : JsonAtom) : word a ≠ [] := by
  cases a with
  | null => decide
  | bool b => cases b <;> decide
  | nan => decide
  | infinity negative => cases negative <;> decide
  | number n =>
    intro h
    have hvalid := n.valid
    rw [show n.text = [] from h] at hvalid
    exact absurd hvalid (by decide)

/-- A word begins with a character of words, and so with no other. -/
theorem word_head (a : JsonAtom) : ∃ c cs, word a = c :: cs ∧ ∀ d, isWord d = false → c ≠ d := by
  obtain ⟨c, cs, hcs⟩ := List.exists_cons_of_ne_nil (word_ne_nil a)
  have hc : isWord c = true := isWord_of_mem_word (hcs ▸ List.mem_cons_self)
  exact ⟨c, cs, hcs, fun d hd h => Bool.false_ne_true (hd.symm.trans (h ▸ hc))⟩

/-- **A word is read as what it is written for.** -/
theorem atom?_word (a : JsonAtom) : atom? (word a) = some a := by
  cases a with
  | null => rfl
  | bool b => cases b <;> rfl
  | nan => rfl
  | infinity negative => cases negative <;> rfl
  | number n =>
    -- the other words are no numerals
    have hvalid : isNumeral (word (.number n)) = true := n.valid
    have hne : ∀ a, isNumeral (word a) = false → word (.number n) ≠ word a := fun a ha h => by
      rw [h, ha] at hvalid
      cases hvalid
    unfold atom?
    rw [if_neg (hne .null (by decide)), if_neg (hne (.bool true) (by decide)), if_neg (hne (.bool false) (by decide)),
      if_neg (hne .nan (by decide)), if_neg (hne (.infinity false) (by decide)),
      if_neg (hne (.infinity true) (by decide)), dif_pos hvalid]
    rfl

theorem dropWhile_isWord {w r : List Char} (hw : ∀ c ∈ w, isWord c = true) (hr : Delimited r) :
    (w ++ r).dropWhile isWord = r := by
  rw [List.dropWhile_append_of_pos hw]
  cases r with
  | nil => rfl
  | cons c r => exact List.dropWhile_cons_of_neg (by rw [hr c rfl]; decide)

theorem scanAtom_word (a : JsonAtom) {r : List Char} (hr : Delimited r) :
    scanAtom (word a ++ r) = some (.atom a, r) := by
  unfold scanAtom
  rw [takeWhile_isWord (fun _ => isWord_of_mem_word) hr, dropWhile_isWord (fun _ => isWord_of_mem_word) hr, atom?_word]
  rfl

/-! ### Texts -/

theorem hexDigit?_digitChar : ∀ d < 16, hexDigit? (Nat.digitChar d) = some d := by decide

/-- An escaped code unit is read. -/
theorem scanUnits_unitEscape {u : CodePoint} (hu : u.val < 0x10000) (cs : List Char) :
    scanUnits (unitEscape u ++ cs) = (scanUnits cs).map fun p => (u :: p.1, p.2) := by
  have hunit : unit? (Nat.digitChar (u.val / 0x1000)) (Nat.digitChar (u.val / 0x100 % 0x10))
      (Nat.digitChar (u.val / 0x10 % 0x10)) (Nat.digitChar (u.val % 0x10)) = some u := by
    unfold unit?
    rw [hexDigit?_digitChar _ (by omega), hexDigit?_digitChar _ (by omega), hexDigit?_digitChar _ (by omega),
      hexDigit?_digitChar _ (by omega)]
    refine congrArg some (Fin.ext ?_)
    rw [CodePoint.chr_val (by omega)]
    omega
  change scanUnits ('\\' :: 'u' :: _ :: _ :: _ :: _ :: cs) = _
  rw [scanUnits, hunit]
  rfl

/-- The code units of a text are read from their escapes. -/
theorem scanUnits_unitEscapes {t : PyText} (ht : ∀ u ∈ t, u.val < 0x10000) (cs : List Char) :
    scanUnits (t.flatMap unitEscape ++ cs) = (scanUnits cs).map fun p => (t ++ p.1, p.2) := by
  induction t with
  | nil => exact Option.map_id'.symm
  | cons u t ih =>
    rw [List.flatMap_cons, List.append_assoc, scanUnits_unitEscape (ht u List.mem_cons_self),
      ih fun v hv => ht v (List.mem_cons_of_mem _ hv), Option.map_map]
    rfl

/-- A character that is written as it is. -/
theorem scanUnits_raw {c : Char} (hlow : 0x20 ≤ c.toNat) (hquote : c ≠ '"') (hback : c ≠ '\\') (cs : List Char) :
    scanUnits (c :: cs) = (scanUnits cs).map fun p => (CodePoint.ofChar c :: p.1, p.2) := by
  rw [scanUnits]
  · exact if_neg (by omega)
  · exact hquote
  · exact fun a b c d rest h _ => hback h
  · exact fun a rest h _ => hback h

/-- A short escape is read as what it is written for. -/
theorem backslash_of_escapes {n : ℕ} {c : Char} (h : escapes.lookup n = some c) :
    n < 0x10000 ∧ c ≠ 'u' ∧ backslash.lookup c = some (chr n) := by
  have hall : ∀ e ∈ escapes, e.1 < 0x10000 ∧ e.2 ≠ 'u' ∧ backslash.lookup e.2 = some (chr e.1) := by
    decide
  obtain ⟨before, after, hsplit, -⟩ := List.lookup_eq_some_iff.mp h
  exact hall (n, c) (hsplit ▸ List.mem_append_right before List.mem_cons_self)

/-- **What is written for a character is read as its code units.** -/
theorem scanUnits_escapePoint (p : CodePoint) (cs : List Char) :
    scanUnits (escapePoint p ++ cs) = (scanUnits cs).map fun q => (CodePoint.units p ++ q.1, q.2) := by
  unfold escapePoint
  split
  · next c hescape =>
    obtain ⟨hlt, hu, hback⟩ := backslash_of_escapes hescape
    have hread : scanUnits ('\\' :: c :: cs) =
        (backslash.lookup c).bind fun u => (scanUnits cs).map fun q => (u :: q.1, q.2) := by
      rw [scanUnits]
      exact fun _ _ _ _ _ h _ => hu h
    have hvalue : chr p.val = p := Fin.ofNat_val_eq_self p
    rw [CodePoint.units_of_lt hlt]
    change scanUnits ('\\' :: c :: cs) = _
    rw [hread, hback, hvalue]
    rfl
  · next hplain =>
    split_ifs with hprintable
    · have hall : ∀ n < 0x7F, (Char.ofNat n).toNat = n := by decide
      have hnat : (Char.ofNat p.val).toNat = p.val := hall _ (by omega)
      have hchar : CodePoint.ofChar (Char.ofNat p.val) = p := Fin.ext ((CodePoint.ofChar_val _).trans hnat)
      have hne : ∀ c : Char, escapes.lookup c.toNat ≠ none → Char.ofNat p.val ≠ c := fun c hc h => by
        rw [← h, hnat] at hc
        exact hc hplain
      rw [CodePoint.units_of_lt (by omega)]
      change scanUnits (Char.ofNat p.val :: cs) = _
      rw [scanUnits_raw (by omega) (hne '"' (by decide)) (hne '\\' (by decide)), hchar]
      rfl
    · exact scanUnits_unitEscapes (fun _ hu => CodePoint.units_lt hu) cs

/-- **A text is read up to its closing quotation mark**, with its surrogates joined. -/
theorem scanString_quoteText (t : PyText) (r : List Char) :
    scanString (t.flatMap escapePoint ++ '"' :: r) = some (t.join, r) := by
  have hunits : ∀ t : PyText, scanUnits (t.flatMap escapePoint ++ '"' :: r) = some (t.flatMap CodePoint.units, r) := by
    intro t
    induction t with
    | nil => rfl
    | cons p t ih =>
      rw [List.flatMap_cons, List.append_assoc, scanUnits_escapePoint, ih]
      rfl
  unfold scanString
  rw [hunits, Option.map_some, PyText.join_flatMap_units]

/-! ### Lists -/

/-- A mark that ends a list is no blank, no comma and no character of a word. -/
structure Closes (close : Char) : Prop where
  /-- It is not skipped. -/
  blank : isBlank close = false
  /-- It does not go on with the list. -/
  comma : close ≠ ','
  /-- It does not go on with a word. -/
  word : isWord close = false

theorem closes_bracket : Closes ']' := ⟨by decide, by decide, by decide⟩

theorem closes_brace : Closes '}' := ⟨by decide, by decide, by decide⟩

/-- The text of an item, before which a blank is skipped and which does not end the list. -/
def Begins (close : Char) (text : List Char) : Prop :=
  ∃ c cs, text = c :: cs ∧ isBlank c = false ∧ c ≠ close

theorem skipBlanks_cons {c : Char} (hc : isBlank c = false) (cs : List Char) : skipBlanks (c :: cs) = c :: cs :=
  List.dropWhile_cons_of_neg (by rw [hc]; decide)

theorem Begins.skipBlanks {close : Char} {text : List Char} (h : Begins close text) (r : List Char) :
    skipBlanks (text ++ r) = text ++ r := by
  obtain ⟨c, cs, rfl, hc, -⟩ := h
  exact skipBlanks_cons hc _

section
variable {α β : Type*} {close : Char} {item : List Char → Option (α × List Char)} {text : β → List Char} {value : β → α}

theorem delimited_encodeMore (hclose : Closes close) (texts : List (List Char)) (r : List Char) :
    Delimited (encodeMore close texts ++ r) := by
  cases texts with
  | nil => exact Delimited.cons hclose.word _
  | cons text texts => exact Delimited.cons (by decide) _

/-- What follows an item is read, where every item is. -/
theorem scanMore_encodeMore (hclose : Closes close) {vs : List β} (hbegins : ∀ v ∈ vs, Begins close (text v))
    (hitem : ∀ v ∈ vs, ∀ r, Delimited r → item (text v ++ r) = some (value v, r)) {n : ℕ} (hn : vs.length < n)
    (r : List Char) : scanMore close item n (encodeMore close (vs.map text) ++ r) = some (vs.map value, r) := by
  induction vs generalizing n with
  | nil =>
    obtain ⟨n, rfl⟩ := Nat.exists_eq_succ_of_ne_zero (Nat.ne_of_gt hn)
    change scanMore close item (n + 1) (close :: r) = _
    rw [scanMore, skipBlanks_cons hclose.blank]
    exact if_pos rfl
  | cons v vs ih =>
    obtain ⟨n, rfl⟩ := Nat.exists_eq_succ_of_ne_zero (Nat.ne_of_gt (Nat.zero_lt_of_lt hn))
    have hfirst := hitem v List.mem_cons_self _ (delimited_encodeMore hclose (vs.map text) r)
    have hrest := ih (fun w hw => hbegins w (List.mem_cons_of_mem _ hw))
      (fun w hw => hitem w (List.mem_cons_of_mem _ hw)) (Nat.lt_of_succ_lt_succ hn)
    have hskip : skipBlanks (' ' :: (text v ++ (encodeMore close (vs.map text) ++ r))) =
        text v ++ (encodeMore close (vs.map text) ++ r) := (hbegins v List.mem_cons_self).skipBlanks _
    have hcs : encodeMore close ((v :: vs).map text) ++ r =
        ',' :: ' ' :: (text v ++ (encodeMore close (vs.map text) ++ r)) := by
      simp only [encodeMore, List.map_cons, List.flatMap_cons, List.cons_append, List.append_assoc]
    rw [hcs, scanMore, skipBlanks_cons (by decide)]
    dsimp only
    rw [if_neg hclose.comma.symm, if_pos rfl, hskip, hfirst, Option.bind_some, hrest]
    rfl

theorem length_le_encodeMore (close : Char) (texts : List (List Char)) :
    texts.length ≤ (encodeMore close texts).length := by
  induction texts with
  | nil => exact Nat.zero_le _
  | cons text texts ih =>
    simp only [encodeMore, List.flatMap_cons, List.length_append, List.length_cons] at ih ⊢
    omega

/-- **What follows the opening mark of a list is read**, where every item is. -/
theorem scanAll_encodeAll (hclose : Closes close) {vs : List β} (hbegins : ∀ v ∈ vs, Begins close (text v))
    (hitem : ∀ v ∈ vs, ∀ r, Delimited r → item (text v ++ r) = some (value v, r)) (r : List Char) :
    scanAll close item (encodeAll close (vs.map text) ++ r) = some (vs.map value, r) := by
  cases vs with
  | nil =>
    change scanAll close item (close :: r) = _
    rw [scanAll, skipBlanks_cons hclose.blank]
    exact if_pos rfl
  | cons v vs =>
    obtain ⟨c, cs, htext, hc, hne⟩ := hbegins v List.mem_cons_self
    have hfirst := hitem v List.mem_cons_self _ (delimited_encodeMore hclose (vs.map text) r)
    have hlength := length_le_encodeMore close (vs.map text)
    rw [List.length_map] at hlength
    have hrest := scanMore_encodeMore hclose (fun w hw => hbegins w (List.mem_cons_of_mem _ hw))
      (fun w hw => hitem w (List.mem_cons_of_mem _ hw))
      (n := (encodeMore close (vs.map text) ++ r).length + 1) (by rw [List.length_append]; omega) r
    rw [htext, List.cons_append] at hfirst
    change scanAll close item (text v ++ encodeMore close (vs.map text) ++ r) = _
    rw [List.append_assoc, htext, List.cons_append, scanAll, skipBlanks_cons hc]
    dsimp only
    rw [if_neg hne, hfirst, Option.bind_some, hrest]
    rfl

/-- An item is no longer than the list. -/
theorem length_le_encodeAll {close : Char} {texts : List (List Char)} {text : List Char} (h : text ∈ texts) :
    text.length ≤ (encodeAll close texts).length := by
  have hmore : ∀ texts : List (List Char), text ∈ texts → text.length ≤ (encodeMore close texts).length := by
    intro texts h
    have hsub := List.sublist_flatten_of_mem (List.mem_map_of_mem (f := fun text => ',' :: ' ' :: text) h)
    have hle := hsub.length_le
    simp only [encodeMore, List.length_append, List.flatMap_def, List.length_cons] at hle ⊢
    omega
  cases texts with
  | nil => exact nomatch h
  | cons first texts =>
    change text.length ≤ (first ++ encodeMore close texts).length
    rw [List.length_append]
    rcases List.mem_cons.mp h with rfl | h
    · exact Nat.le_add_right _ _
    · exact (hmore texts h).trans (Nat.le_add_left _ _)

end

/-! ### Values -/

mutual

/-- What is read from the text of a value: texts have their surrogates joined. -/
def joined : PyJson → PyJson
  | .atom a => .atom a
  | .str t => .str t.join
  | .list vs => .list (joinedItems vs)
  | .dict ms => .dict (mergeEntries [] (joinedMembers ms))

/-- `joined` of every item. -/
def joinedItems : List PyJson → List PyJson
  | [] => []
  | v :: vs => joined v :: joinedItems vs

/-- `joined` of every member and its key. -/
def joinedMembers : List (PyText × PyJson) → List (PyText × PyJson)
  | [] => []
  | (k, v) :: ms => (k.join, joined v) :: joinedMembers ms

end

/-- The text of a member. -/
def memberText (m : PyText × PyJson) : List Char := quoteText m.1 ++ ':' :: ' ' :: encode m.2

theorem itemTexts_eq (vs : List PyJson) : itemTexts vs = vs.map encode := by
  induction vs with
  | nil => rfl
  | cons v vs ih => rw [itemTexts, ih, List.map_cons]

theorem memberTexts_eq (ms : List (PyText × PyJson)) : memberTexts ms = ms.map memberText := by
  induction ms with
  | nil => rfl
  | cons m ms ih => rw [memberTexts, ih, List.map_cons, memberText]

theorem joinedItems_eq (vs : List PyJson) : joinedItems vs = vs.map joined := by
  induction vs with
  | nil => rfl
  | cons v vs ih => rw [joinedItems, ih, List.map_cons]

theorem joinedMembers_eq (ms : List (PyText × PyJson)) :
    joinedMembers ms = ms.map fun m => (m.1.join, joined m.2) := by
  induction ms with
  | nil => rfl
  | cons m ms ih => rw [joinedMembers, ih, List.map_cons]

/-- No value begins with a blank or with a mark that closes. -/
theorem begins_encode {close : Char} (hclose : close = ']' ∨ close = '}') (v : PyJson) : Begins close (encode v) := by
  have hne : ∀ c : Char, c ≠ ']' → c ≠ '}' → c ≠ close := fun c h h' => by
    rcases hclose with rfl | rfl
    · exact h
    · exact h'
  cases v with
  | atom a =>
    obtain ⟨c, cs, hcs, hother⟩ := word_head a
    refine ⟨c, cs, hcs, decide_eq_false ?_, hne c (hother _ (by decide)) (hother _ (by decide))⟩
    exact fun h => by rcases h with h | h | h | h <;> exact hother _ (by decide) h
  | str t => exact ⟨_, _, rfl, by decide, hne _ (by decide) (by decide)⟩
  | list vs => exact ⟨_, _, rfl, by decide, hne _ (by decide) (by decide)⟩
  | dict ms => exact ⟨_, _, rfl, by decide, hne _ (by decide) (by decide)⟩

/-- What holds of a container where it holds of what is in it holds of every value. -/
theorem induct {P : PyJson → Prop} (atom : ∀ a, P (.atom a)) (str : ∀ t, P (.str t))
    (list : ∀ vs, (∀ v ∈ vs, P v) → P (.list vs)) (dict : ∀ ms, (∀ m ∈ ms, P m.2) → P (.dict ms)) : ∀ v, P v
  | .atom a => atom a
  | .str t => str t
  | .list vs => list vs fun v hv => induct atom str list dict v
  | .dict ms => dict ms fun m hm =>
    have : sizeOf m.2 < 1 + sizeOf ms := by
      obtain ⟨k, v⟩ := m
      have hlt := List.sizeOf_lt_of_mem hm
      rw [Prod.mk.sizeOf_spec] at hlt
      change sizeOf v < _
      omega
    induct atom str list dict m.2

/-- A member is read where its value is. -/
theorem scanMember_memberText {scan : List Char → Option (PyJson × List Char)} {m : PyText × PyJson} {v : PyJson}
    {r : List Char} (h : scan (encode m.2 ++ r) = some (v, r)) :
    scanMember scan (memberText m ++ r) = some ((m.1.join, v), r) := by
  have hskip : skipBlanks (' ' :: (encode m.2 ++ r)) = encode m.2 ++ r := (begins_encode (.inl rfl) m.2).skipBlanks r
  have hcs : memberText m ++ r = '"' :: (m.1.flatMap escapePoint ++ '"' :: ':' :: ' ' :: (encode m.2 ++ r)) := by
    simp only [memberText, quoteText, List.cons_append, List.append_assoc, List.nil_append]
  rw [hcs, scanMember, if_pos rfl, scanString_quoteText, Option.bind_some, skipBlanks_cons (by decide)]
  dsimp only
  rw [if_pos rfl, hskip, h]
  rfl

/-- **A value is read from its text**, whatever follows. -/
theorem scanOnce_encode (v : PyJson) :
    ∀ n r, (encode v).length ≤ n → Delimited r → scanOnce n (encode v ++ r) = some (joined v, r) := by
  induction v using induct with
  | atom a =>
    intro n r hn hr
    obtain ⟨c, cs, hcs, hne⟩ := word_head a
    have hscan := scanAtom_word a hr
    change (word a).length ≤ n at hn
    change scanOnce n (word a ++ r) = some (.atom a, r)
    rw [hcs] at hn hscan ⊢
    obtain ⟨n, rfl⟩ := Nat.exists_eq_succ_of_ne_zero (Nat.ne_of_gt (Nat.zero_lt_of_lt hn))
    rw [List.cons_append, scanOnce, if_neg (hne _ (by decide)), if_neg (hne _ (by decide)), if_neg (hne _ (by decide))]
    exact hscan
  | str t =>
    intro n r hn hr
    obtain ⟨n, rfl⟩ := Nat.exists_eq_succ_of_ne_zero (Nat.ne_of_gt (Nat.zero_lt_of_lt hn))
    have hcs : encode (.str t) ++ r = '"' :: (t.flatMap escapePoint ++ '"' :: r) := by
      simp only [encode, quoteText, List.cons_append, List.append_assoc, List.nil_append]
    rw [hcs, scanOnce, if_pos rfl, scanString_quoteText, joined]
    rfl
  | list vs ih =>
    intro n r hn hr
    obtain ⟨n, rfl⟩ := Nat.exists_eq_succ_of_ne_zero (Nat.ne_of_gt (Nat.zero_lt_of_lt hn))
    rw [encode, itemTexts_eq] at hn ⊢
    have hle : ∀ v ∈ vs, (encode v).length ≤ n := fun v hv =>
      (length_le_encodeAll (List.mem_map_of_mem hv)).trans (Nat.le_of_succ_le_succ hn)
    have hscan : scanAll ']' (scanOnce n) (encodeAll ']' (vs.map encode) ++ r) = some (vs.map joined, r) :=
      scanAll_encodeAll closes_bracket (fun v _ => begins_encode (.inl rfl) v)
        (fun v hv r hr => ih v hv n r (hle v hv) hr) r
    rw [List.cons_append, scanOnce, if_neg (by decide), if_pos rfl, hscan, joined, joinedItems_eq]
    rfl
  | dict ms ih =>
    intro n r hn hr
    obtain ⟨n, rfl⟩ := Nat.exists_eq_succ_of_ne_zero (Nat.ne_of_gt (Nat.zero_lt_of_lt hn))
    rw [encode, memberTexts_eq] at hn ⊢
    have hle : ∀ m ∈ ms, (encode m.2).length ≤ n := fun m hm => by
      have hmember : (memberText m).length ≤ n :=
        (length_le_encodeAll (List.mem_map_of_mem hm)).trans (Nat.le_of_succ_le_succ hn)
      simp only [memberText, List.length_append, List.length_cons] at hmember
      omega
    have hscan : scanAll '}' (scanMember (scanOnce n)) (encodeAll '}' (ms.map memberText) ++ r) =
        some (ms.map fun m => (m.1.join, joined m.2), r) :=
      scanAll_encodeAll closes_brace (fun m _ => ⟨_, _, rfl, by decide, by decide⟩)
        (fun m hm r hr => scanMember_memberText (ih m hm n r (hle m hm) hr)) r
    rw [List.cons_append, scanOnce, if_neg (by decide), if_neg (by decide), if_pos rfl, hscan, joined, joinedMembers_eq]
    rfl

/-- **What is read from the text of a value is the value, with the surrogates of its texts joined.** -/
theorem loads_dumps (v : PyJson) : loads (dumps v) = some (joined v) := by
  have hskip := (begins_encode (.inl rfl) v).skipBlanks []
  have hscan := scanOnce_encode v ((encode v).length + 1) [] (Nat.le_succ _) nofun
  rw [List.append_nil] at hskip hscan
  unfold loads dumps
  rw [String.toList_ofList, hskip, hscan, Option.bind_some]
  exact if_pos rfl

example : (loads " [ 1.5e3,\"\\/\\u00E9\", \x7b\x7d]").map dumps = some "[1.5e3, \"/\\u00e9\", \x7b\x7d]" := by
  decide +kernel
example : (loads "[01]").map dumps = none := by decide +kernel

end PyJson

end StratTrader.Foundation
