import Mathlib.Data.List.Sort

/-!
# Texts of JSON values

JSON values and the text that is written for one without blanks: `json.dumps` with the
separators `,` and `:`, the characters that are not ASCII written as themselves.

## What is proved

* `render_inj`: where a text of values is cut, and which value stands before the cut, can be
  read off the text.
* `dumps_inj`: values with the same text are the same but for the order of keys.
* `members_eq_of_perm`: members with the same distinct names, in the same order, are the same
  when they are so in any order.

## Honest scope

A float is the text that is written for it, and an integer has as many digits as it needs. A
string is a list of Unicode scalar values. Nothing keeps the names of an object apart.
-/

namespace StratTrader.Foundation

/-! ### Values -/

/-- A character of a number or of `null`, `true` and `false`. -/
def isWord (c : Char) : Bool := c.isAlphanum || decide (c ∈ ['-', '+', '.'])

/-- A float, by the text that is written for it. -/
structure JsonFloat where
  /-- The text. -/
  text : List Char
  /-- It is one word. -/
  word : text.all isWord = true
  /-- It begins like a number, `NaN` or `Infinity`. -/
  begins : (text.head?.any fun c => c.isDigit || decide (c ∈ ['-', 'N', 'I'])) = true
  /-- It is no integer's text. -/
  inexact : (text.any fun c => !c.isDigit && decide (c ≠ '-')) = true
  deriving DecidableEq

/-- A value that holds no other, and is no string. -/
inductive JsonScalar where
  /-- `null`. -/
  | null
  /-- `true` or `false`. -/
  | bool (b : Bool)
  /-- An integer. -/
  | int (n : ℤ)
  /-- A number with a point or an exponent, or none at all. -/
  | float (x : JsonFloat)
  deriving DecidableEq

/-- A JSON value. -/
inductive JsonValue where
  /-- A value that holds no other. -/
  | scalar (s : JsonScalar)
  /-- A string. -/
  | string (s : String)
  /-- An array. -/
  | array (vs : List JsonValue)
  /-- An object: its members in order. -/
  | object (ms : List (String × JsonValue))

/-! ### Texts -/

/-- The decimal text of an integer. -/
def intText : ℤ → List Char
  | .ofNat n => Nat.toDigits 10 n
  | .negSucc n => '-' :: Nat.toDigits 10 (n + 1)

/-- The text of a scalar. -/
def JsonScalar.text : JsonScalar → List Char
  | null => ['n', 'u', 'l', 'l']
  | bool true => ['t', 'r', 'u', 'e']
  | bool false => ['f', 'a', 'l', 's', 'e']
  | int n => intText n
  | float x => x.text

/-- What is written for a character of a string. -/
def escapeChar (c : Char) : List Char :=
  if c = '"' then ['\\', '"']
  else if c = '\\' then ['\\', '\\']
  else if c = '\n' then ['\\', 'n']
  else if c = '\r' then ['\\', 'r']
  else if c = '\t' then ['\\', 't']
  else if c = '\x0c' then ['\\', 'f']
  else if c = '\x08' then ['\\', 'b']
  else if c.toNat < 0x20 then
    ['\\', 'u', '0', '0', Nat.digitChar (c.toNat / 16), Nat.digitChar (c.toNat % 16)]
  else [c]

/-- A string in quotation marks. -/
def quote (s : String) : List Char := '"' :: (s.toList.flatMap escapeChar ++ ['"'])

mutual

/-- The text of a value. -/
def render : JsonValue → List Char
  | .scalar s => s.text
  | .string s => quote s
  | .array vs => '[' :: renderItems vs
  | .object ms => '{' :: renderMembers ms

/-- What follows the opening bracket of an array. -/
def renderItems : List JsonValue → List Char
  | [] => [']']
  | v :: vs => render v ++ renderMoreItems vs

/-- What follows an item of an array. -/
def renderMoreItems : List JsonValue → List Char
  | [] => [']']
  | v :: vs => ',' :: (render v ++ renderMoreItems vs)

/-- What follows the opening brace of an object. -/
def renderMembers : List (String × JsonValue) → List Char
  | [] => ['}']
  | (k, v) :: ms => quote k ++ ':' :: (render v ++ renderMoreMembers ms)

/-- What follows a member of an object. -/
def renderMoreMembers : List (String × JsonValue) → List Char
  | [] => ['}']
  | (k, v) :: ms => ',' :: (quote k ++ ':' :: (render v ++ renderMoreMembers ms))

end

mutual

/-- The value with the members of every object in the order of their names. -/
def sortKeys : JsonValue → JsonValue
  | .scalar s => .scalar s
  | .string s => .string s
  | .array vs => .array (sortItems vs)
  | .object ms => .object ((sortMembers ms).insertionSort fun m m' => m.1 ≤ m'.1)

/-- `sortKeys` of every item. -/
def sortItems : List JsonValue → List JsonValue
  | [] => []
  | v :: vs => sortKeys v :: sortItems vs

/-- `sortKeys` of every member. -/
def sortMembers : List (String × JsonValue) → List (String × JsonValue)
  | [] => []
  | (k, v) :: ms => (k, sortKeys v) :: sortMembers ms

end

/-- `json.dumps(value, sort_keys=True, separators=(",", ":"), ensure_ascii=False)`. -/
def dumps (v : JsonValue) : String := String.ofList (render (sortKeys v))

example : dumps (.object [("b", .array [.scalar (.int (-12)), .scalar .null]), ("a", .string "x\ny")]) =
    "\x7b\"a\":\"x\\ny\",\"b\":[-12,null]\x7d" := by decide +kernel

/-! ### Words -/

/-- What stands behind a value does not go on with its last word. -/
def Delimited (r : List Char) : Prop := ∀ c ∈ r.head?, isWord c = false

theorem Delimited.cons {c : Char} (hc : isWord c = false) (r : List Char) : Delimited (c :: r) := by
  intro d hd
  rw [List.head?_cons, Option.mem_some_iff] at hd
  rwa [← hd]

theorem takeWhile_isWord {w r : List Char} (hw : ∀ c ∈ w, isWord c = true) (hr : Delimited r) :
    (w ++ r).takeWhile isWord = w := by
  rw [List.takeWhile_append_of_pos hw]
  cases r with
  | nil => simp
  | cons c r =>
    have hc : isWord c = false := hr c rfl
    simp [hc]

/-- A word ends where the characters of words end. -/
theorem word_append_inj {w w' r r' : List Char} (hw : ∀ c ∈ w, isWord c = true) (hw' : ∀ c ∈ w', isWord c = true)
    (hr : Delimited r) (hr' : Delimited r') (h : w ++ r = w' ++ r') : w = w' ∧ r = r' := by
  have hsame : w = w' := by
    rw [← takeWhile_isWord hw hr, h, takeWhile_isWord hw' hr']
  subst hsame
  exact ⟨rfl, List.append_cancel_left h⟩

theorem isWord_of_isDigit {c : Char} (h : c.isDigit = true) : isWord c = true := by
  simp [isWord, Char.isAlphanum, h]

theorem isDigit_of_mem_toDigits {n : ℕ} {c : Char} (h : c ∈ Nat.toDigits 10 n) : c.isDigit = true :=
  Nat.isDigit_of_mem_toDigits (by decide) (by decide) h

theorem toDigits_inj {m n : ℕ} (h : Nat.toDigits 10 m = Nat.toDigits 10 n) : m = n := by
  rw [← Nat.ofDigitChars_ten_toDigits (n := m), h, Nat.ofDigitChars_ten_toDigits]

theorem toDigits_ne_minus {n : ℕ} {cs : List Char} (h : Nat.toDigits 10 n = '-' :: cs) : False := by
  have hdigit := isDigit_of_mem_toDigits (n := n) (c := '-') (by rw [h]; exact List.mem_cons_self)
  revert hdigit
  decide

/-- The characters of an integer. -/
theorem mem_intText {n : ℤ} {c : Char} (h : c ∈ intText n) : c.isDigit = true ∨ c = '-' := by
  cases n with
  | ofNat n => exact .inl (isDigit_of_mem_toDigits h)
  | negSucc n =>
    rcases List.mem_cons.mp h with rfl | h
    · exact .inr rfl
    · exact .inl (isDigit_of_mem_toDigits h)

theorem intText_inj {m n : ℤ} (h : intText m = intText n) : m = n := by
  cases m with
  | ofNat m =>
    cases n with
    | ofNat n => rw [toDigits_inj h]
    | negSucc n => exact (toDigits_ne_minus h).elim
  | negSucc m =>
    cases n with
    | ofNat n => exact (toDigits_ne_minus h.symm).elim
    | negSucc n =>
      have hsucc := toDigits_inj (List.cons.inj h).2
      rw [Nat.succ_inj.mp hsucc]

/-! ### Scalars -/

theorem isWord_of_mem_text {s : JsonScalar} {c : Char} (h : c ∈ s.text) : isWord c = true := by
  have hnull : JsonScalar.null.text.all isWord = true := by decide
  have hbool : ∀ b, (JsonScalar.bool b).text.all isWord = true := by decide
  cases s with
  | null => exact List.all_eq_true.mp hnull c h
  | bool b => exact List.all_eq_true.mp (hbool b) c h
  | int n =>
    rcases mem_intText h with hdigit | rfl
    · exact isWord_of_isDigit hdigit
    · decide
  | float x => exact List.all_eq_true.mp x.word c h

/-- Where a text begins like a number, `NaN` or `Infinity`. -/
def BeginsNumber (cs : List Char) : Prop :=
  (cs.head?.any fun c => c.isDigit || decide (c ∈ ['-', 'N', 'I'])) = true

theorem beginsNumber_intText (n : ℤ) : BeginsNumber (intText n) := by
  cases n with
  | ofNat n =>
    obtain ⟨c, cs, hcs⟩ := List.exists_cons_of_ne_nil (Nat.toDigits_ne_nil (n := n) (b := 10))
    have hdigit : c.isDigit = true := isDigit_of_mem_toDigits (n := n) (by rw [hcs]; exact List.mem_cons_self)
    simp [BeginsNumber, intText, hcs, hdigit]
  | negSucc n => simp [BeginsNumber, intText]

/-- An integer is not written like a float. -/
theorem intText_ne_float (n : ℤ) (x : JsonFloat) : intText n ≠ x.text := by
  intro h
  obtain ⟨c, hc, hodd⟩ := List.any_eq_true.mp x.inexact
  rw [← h] at hc
  rcases mem_intText hc with hdigit | rfl
  · simp [hdigit] at hodd
  · simp at hodd

theorem JsonFloat.text_inj {x y : JsonFloat} (h : x.text = y.text) : x = y := by
  cases x
  cases y
  subst h
  rfl

/-- A scalar can be read off its text. -/
theorem JsonScalar.text_inj {s t : JsonScalar} (h : s.text = t.text) : s = t := by
  -- the texts that are no numbers begin otherwise than numbers do
  have hnull : ¬ BeginsNumber JsonScalar.null.text := by unfold BeginsNumber; decide
  have hbool : ∀ b, ¬ BeginsNumber (JsonScalar.bool b).text := by unfold BeginsNumber; decide
  cases s with
  | null =>
    cases t with
    | null => rfl
    | bool b => cases b <;> revert h <;> decide
    | int n => exact absurd (h ▸ beginsNumber_intText n) hnull
    | float x => exact absurd (h ▸ x.begins) hnull
  | bool b =>
    cases t with
    | null => cases b <;> revert h <;> decide
    | bool b' => cases b <;> cases b' <;> revert h <;> decide
    | int n => exact absurd (h ▸ beginsNumber_intText n) (hbool b)
    | float x => exact absurd (h ▸ x.begins) (hbool b)
  | int n =>
    cases t with
    | null => exact absurd (h ▸ beginsNumber_intText n) hnull
    | bool b => exact absurd (h ▸ beginsNumber_intText n) (hbool b)
    | int m => rw [intText_inj h]
    | float x => exact (intText_ne_float n x h).elim
  | float x =>
    cases t with
    | null => exact absurd (h ▸ x.begins) hnull
    | bool b => exact absurd (h ▸ x.begins) (hbool b)
    | int n => exact (intText_ne_float n x h.symm).elim
    | float y => rw [JsonFloat.text_inj h]

/-! ### Strings -/

/-- Texts that begin differently are different. -/
theorem head_ne {c d : Char} {cs ds : List Char} (hne : c ≠ d) (h : c :: cs = d :: ds) : False :=
  hne (List.cons.inj h).1

/-- The value of a hexadecimal digit. -/
def hexVal (c : Char) : ℕ := if c.isDigit then c.toNat - 48 else c.toNat - 87

/-- Reads back one character of a string. -/
def unescape : List Char → Option (Char × List Char)
  | '\\' :: 'u' :: _ :: _ :: high :: low :: cs => some (Char.ofNat (16 * hexVal high + hexVal low), cs)
  | '\\' :: 'n' :: cs => some ('\n', cs)
  | '\\' :: 'r' :: cs => some ('\r', cs)
  | '\\' :: 't' :: cs => some ('\t', cs)
  | '\\' :: 'f' :: cs => some ('\x0c', cs)
  | '\\' :: 'b' :: cs => some ('\x08', cs)
  | '\\' :: c :: cs => some (c, cs)
  | c :: cs => some (c, cs)
  | [] => none

theorem hexVal_digitChar : ∀ d < 16, hexVal (Nat.digitChar d) = d := by decide

/-- **What is written for a character can be read back**, whatever follows. -/
theorem unescape_escapeChar (c : Char) (cs : List Char) : unescape (escapeChar c ++ cs) = some (c, cs) := by
  unfold escapeChar
  split_ifs with h₁ h₂ h₃ h₄ h₅ h₆ h₇ hcontrol
  · subst h₁; rfl
  · subst h₂; rfl
  · subst h₃; rfl
  · subst h₄; rfl
  · subst h₅; rfl
  · subst h₆; rfl
  · subst h₇; rfl
  · have hhigh := hexVal_digitChar (c.toNat / 16) (by omega)
    have hlow := hexVal_digitChar (c.toNat % 16) (by omega)
    have hval : 16 * (c.toNat / 16) + c.toNat % 16 = c.toNat := Nat.div_add_mod _ _
    simp [unescape, hhigh, hlow, hval]
  · rw [List.singleton_append, unescape] <;> intros <;> exact h₂ ‹_›

/-- What is written for a character does not end the string. -/
theorem escapeChar_ne_quote {c : Char} {cs ds : List Char} (h : escapeChar c ++ cs = '"' :: ds) : False := by
  unfold escapeChar at h
  split_ifs at h with hquote <;> first | exact head_ne (by decide) h | exact head_ne hquote h

/-- A string ends at its closing quotation mark. -/
theorem escape_append_inj {cs ds r r' : List Char}
    (h : cs.flatMap escapeChar ++ '"' :: r = ds.flatMap escapeChar ++ '"' :: r') : cs = ds ∧ r = r' := by
  induction cs generalizing ds with
  | nil =>
    cases ds with
    | nil => exact ⟨rfl, (List.cons.inj h).2⟩
    | cons d ds =>
      rw [List.flatMap_cons, List.append_assoc] at h
      exact (escapeChar_ne_quote h.symm).elim
  | cons c cs ih =>
    cases ds with
    | nil =>
      rw [List.flatMap_cons, List.append_assoc] at h
      exact (escapeChar_ne_quote h).elim
    | cons d ds =>
      rw [List.flatMap_cons, List.append_assoc, List.flatMap_cons, List.append_assoc] at h
      have hread := congrArg unescape h
      rw [unescape_escapeChar, unescape_escapeChar, Option.some_inj, Prod.mk.injEq] at hread
      obtain ⟨rfl, hrest⟩ := hread
      obtain ⟨rfl, hr⟩ := ih hrest
      exact ⟨rfl, hr⟩

theorem quote_append_inj {s t : String} {r r' : List Char} (h : quote s ++ r = quote t ++ r') : s = t ∧ r = r' := by
  simp only [quote, List.cons_append, List.append_assoc, List.nil_append, List.cons.injEq, true_and] at h
  obtain ⟨hs, hr⟩ := escape_append_inj h
  exact ⟨String.toList_inj.mp hs, hr⟩

/-! ### Values, and where they end -/

theorem JsonScalar.text_ne_nil (s : JsonScalar) : s.text ≠ [] := by
  intro h
  cases s with
  | null => cases h
  | bool b => cases b <;> cases h
  | int n =>
    have hbegins := beginsNumber_intText n
    rw [show intText n = [] from h] at hbegins
    cases hbegins
  | float x =>
    have hbegins := x.begins
    rw [show x.text = [] from h] at hbegins
    cases hbegins

/-- A scalar begins with the character of a word. -/
theorem text_append_ne {s : JsonScalar} {c : Char} {cs r : List Char} (hc : isWord c = false) :
    s.text ++ r ≠ c :: cs := by
  obtain ⟨d, ds, hds⟩ := List.exists_cons_of_ne_nil s.text_ne_nil
  intro h
  have hd : isWord d = true := isWord_of_mem_text (s := s) (by rw [hds]; exact List.mem_cons_self)
  rw [hds, List.cons_append, List.cons.injEq] at h
  rw [h.1, hc] at hd
  cases hd

/-- No value begins with a bracket or brace that closes. -/
theorem render_append_ne {v : JsonValue} {c : Char} {cs r : List Char} (hc : c = ']' ∨ c = '}') :
    render v ++ r ≠ c :: cs := by
  cases v with
  | scalar s => exact text_append_ne (by rcases hc with rfl | rfl <;> decide)
  | string s => exact fun h => head_ne (by rcases hc with rfl | rfl <;> decide) h
  | array vs => exact fun h => head_ne (by rcases hc with rfl | rfl <;> decide) h
  | object ms => exact fun h => head_ne (by rcases hc with rfl | rfl <;> decide) h

theorem delimited_renderMoreItems (vs : List JsonValue) (r : List Char) : Delimited (renderMoreItems vs ++ r) := by
  cases vs with
  | nil => exact Delimited.cons (by decide) _
  | cons v vs => exact Delimited.cons (by decide) _

theorem delimited_renderMoreMembers (ms : List (String × JsonValue)) (r : List Char) :
    Delimited (renderMoreMembers ms ++ r) := by
  cases ms with
  | nil => exact Delimited.cons (by decide) _
  | cons m ms => exact Delimited.cons (by decide) _

mutual

/-- **A value and what follows it can be read off the text.** -/
theorem render_inj : ∀ (a b : JsonValue) {r r' : List Char}, Delimited r → Delimited r' →
    render a ++ r = render b ++ r' → a = b ∧ r = r'
  | .scalar s, b, r, r', hr, hr', h => by
    cases b with
    | scalar t =>
      obtain ⟨htext, hrest⟩ := word_append_inj (fun _ => isWord_of_mem_text) (fun _ => isWord_of_mem_text) hr hr' h
      exact ⟨by rw [JsonScalar.text_inj htext], hrest⟩
    | string t => exact (text_append_ne (by decide) h).elim
    | array ws => exact (text_append_ne (by decide) h).elim
    | object ns => exact (text_append_ne (by decide) h).elim
  | .string s, b, r, r', hr, hr', h => by
    cases b with
    | scalar t => exact (text_append_ne (by decide) h.symm).elim
    | string t =>
      obtain ⟨rfl, hrest⟩ := quote_append_inj h
      exact ⟨rfl, hrest⟩
    | array ws => exact (head_ne (by decide) h).elim
    | object ns => exact (head_ne (by decide) h).elim
  | .array vs, b, r, r', hr, hr', h => by
    cases b with
    | scalar t => exact (text_append_ne (by decide) h.symm).elim
    | string t => exact (head_ne (by decide) h).elim
    | array ws =>
      simp only [render, List.cons_append, List.cons.injEq, true_and] at h
      obtain ⟨rfl, hrest⟩ := renderItems_inj vs ws h
      exact ⟨rfl, hrest⟩
    | object ns => exact (head_ne (by decide) h).elim
  | .object ms, b, r, r', hr, hr', h => by
    cases b with
    | scalar t => exact (text_append_ne (by decide) h.symm).elim
    | string t => exact (head_ne (by decide) h).elim
    | array ws => exact (head_ne (by decide) h).elim
    | object ns =>
      simp only [render, List.cons_append, List.cons.injEq, true_and] at h
      obtain ⟨rfl, hrest⟩ := renderMembers_inj ms ns h
      exact ⟨rfl, hrest⟩

theorem renderItems_inj : ∀ (vs ws : List JsonValue) {r r' : List Char},
    renderItems vs ++ r = renderItems ws ++ r' → vs = ws ∧ r = r'
  | [], ws, r, r', h => by
    cases ws with
    | nil => exact ⟨rfl, List.append_cancel_left h⟩
    | cons w ws =>
      simp only [renderItems, List.append_assoc] at h
      exact (render_append_ne (.inl rfl) h.symm).elim
  | v :: vs, ws, r, r', h => by
    cases ws with
    | nil =>
      simp only [renderItems, List.append_assoc] at h
      exact (render_append_ne (.inl rfl) h).elim
    | cons w ws =>
      simp only [renderItems, List.append_assoc] at h
      obtain ⟨rfl, hmore⟩ := render_inj v w (delimited_renderMoreItems vs r) (delimited_renderMoreItems ws r') h
      obtain ⟨rfl, hrest⟩ := renderMoreItems_inj vs ws hmore
      exact ⟨rfl, hrest⟩

theorem renderMoreItems_inj : ∀ (vs ws : List JsonValue) {r r' : List Char},
    renderMoreItems vs ++ r = renderMoreItems ws ++ r' → vs = ws ∧ r = r'
  | [], ws, r, r', h => by
    cases ws with
    | nil => exact ⟨rfl, List.append_cancel_left h⟩
    | cons w ws => exact (head_ne (by decide) h).elim
  | v :: vs, ws, r, r', h => by
    cases ws with
    | nil => exact (head_ne (by decide) h).elim
    | cons w ws =>
      simp only [renderMoreItems, List.cons_append, List.append_assoc, List.cons.injEq, true_and] at h
      obtain ⟨rfl, hmore⟩ := render_inj v w (delimited_renderMoreItems vs r) (delimited_renderMoreItems ws r') h
      obtain ⟨rfl, hrest⟩ := renderMoreItems_inj vs ws hmore
      exact ⟨rfl, hrest⟩

theorem renderMembers_inj : ∀ (ms ns : List (String × JsonValue)) {r r' : List Char},
    renderMembers ms ++ r = renderMembers ns ++ r' → ms = ns ∧ r = r'
  | [], ns, r, r', h => by
    cases ns with
    | nil => exact ⟨rfl, List.append_cancel_left h⟩
    | cons n ns => exact (head_ne (by decide) h).elim
  | (k, v) :: ms, ns, r, r', h => by
    cases ns with
    | nil => exact (head_ne (by decide) h).elim
    | cons n ns =>
      simp only [renderMembers, List.append_assoc, List.cons_append] at h
      obtain ⟨hk, hvalue⟩ := quote_append_inj h
      obtain ⟨hv, hmore⟩ := render_inj v n.2 (delimited_renderMoreMembers ms r) (delimited_renderMoreMembers ns r')
        (List.cons.inj hvalue).2
      obtain ⟨rfl, hrest⟩ := renderMoreMembers_inj ms ns hmore
      exact ⟨by rw [hk, hv], hrest⟩

theorem renderMoreMembers_inj : ∀ (ms ns : List (String × JsonValue)) {r r' : List Char},
    renderMoreMembers ms ++ r = renderMoreMembers ns ++ r' → ms = ns ∧ r = r'
  | [], ns, r, r', h => by
    cases ns with
    | nil => exact ⟨rfl, List.append_cancel_left h⟩
    | cons n ns => exact (head_ne (by decide) h).elim
  | (k, v) :: ms, ns, r, r', h => by
    cases ns with
    | nil => exact (head_ne (by decide) h).elim
    | cons n ns =>
      simp only [renderMoreMembers, List.cons_append, List.append_assoc, List.cons.injEq, true_and] at h
      obtain ⟨hk, hvalue⟩ := quote_append_inj h
      obtain ⟨hv, hmore⟩ := render_inj v n.2 (delimited_renderMoreMembers ms r) (delimited_renderMoreMembers ns r')
        (List.cons.inj hvalue).2
      obtain ⟨rfl, hrest⟩ := renderMoreMembers_inj ms ns hmore
      exact ⟨by rw [hk, hv], hrest⟩

end

/-! ### Objects -/

/-- **Values with the same text are the same but for the order of the members.** -/
theorem dumps_inj {a b : JsonValue} : dumps a = dumps b ↔ sortKeys a = sortKeys b := by
  constructor
  · intro h
    have hrender : render (sortKeys a) ++ [] = render (sortKeys b) ++ [] := by
      rw [List.append_nil, List.append_nil]
      exact String.ofList_injective h
    have hnil : Delimited [] := fun c hc => by cases hc
    exact (render_inj _ _ hnil hnil hrender).1
  · intro h
    rw [dumps, h, dumps]

/-- Members with distinct names are determined by the names in order and the members in any order. -/
theorem members_eq_of_perm {β : Type*} {ms ns : List (String × β)} (h : ms.Perm ns)
    (hnames : ms.map Prod.fst = ns.map Prod.fst) (hnodup : (ms.map Prod.fst).Nodup) : ms = ns := by
  induction ms generalizing ns with
  | nil => exact (List.nil_perm.mp h).symm
  | cons m ms ih =>
    cases ns with
    | nil => exact (List.perm_nil.mp h)
    | cons n ns =>
      simp only [List.map_cons, List.cons.injEq] at hnames
      have hm : m = n := by
        rcases List.mem_cons.mp (h.subset List.mem_cons_self) with hm | hm
        · exact hm
        · -- the name of the first stands once
          have hname := List.mem_map_of_mem (f := Prod.fst) hm
          rw [← hnames.2] at hname
          exact absurd hname (List.nodup_cons.mp hnodup).1
      subst hm
      rw [ih (List.Perm.cons_inv h) hnames.2 (List.nodup_cons.mp hnodup).2]

/-- So objects that have the same distinct names in the same order are told apart by the values. -/
theorem members_eq_of_sortKeys {ms ns : List (String × JsonValue)} (h : sortKeys (.object ms) = sortKeys (.object ns))
    (hnames : (sortMembers ms).map Prod.fst = (sortMembers ns).map Prod.fst)
    (hnodup : ((sortMembers ms).map Prod.fst).Nodup) : sortMembers ms = sortMembers ns := by
  simp only [sortKeys, JsonValue.object.injEq] at h
  have hms := List.perm_insertionSort (fun m m' => m.1 ≤ m'.1) (sortMembers ms)
  rw [h] at hms
  exact members_eq_of_perm (hms.symm.trans (List.perm_insertionSort _ _)) hnames hnodup

end StratTrader.Foundation
