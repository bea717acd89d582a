import StratTrader.Foundation.Significant
import StratTrader.Screener.Block

/-!
# The criteria of a screening block

`apps/screener/criteria.py`, `parse`: every line of the block is blank, a comment or `key: value`, and is folded into
a dict of the keys that are set. The parameters of the vendor and the criteria of the local stage are built from it.

## What is proved

* `keyOf_eq_some`: a key is found by its name.

## Honest scope

A text is a list of Unicode characters, so that it can be encoded. Of what Python's `str` knows of characters only
blanks are known here, and that `lower` changes letters only. A float of the code is the number it stands for, and an `int` where that is whole. No token
has a line break, before which `$` would match.
-/

namespace StratTrader.Screener

open StratTrader.Foundation

/-- What `str` does beyond ASCII, which depends on the version of Unicode. -/
structure PyStr where
  /-- The value of a decimal digit, for `\d` and `float`. -/
  decimal : Char → Option ℕ
  /-- `str.lower`. -/
  lower : List Char → List Char
  /-- `str.upper`. -/
  upper : List Char → List Char
  /-- `str.isalpha`. -/
  isAlpha : List Char → Bool
  /-- `repr`. -/
  repr : List Char → String
  /-- What is no letter is in lower case. -/
  lower_keeps : ∀ (cs : List Char), ∀ c ∈ cs, c.toNat < 128 → c.isAlpha = false → c ∈ lower cs

/-- What escapes from the parser. -/
inductive Raised where
  /-- A `KeyError`. -/
  | keyError (key : Char)
  deriving DecidableEq

/-! ### Numbers -/

/-- `_SUFFIX`, but for the empty one. -/
def suffixTable : List (Char × ℕ) := [('K', 10 ^ 3), ('M', 10 ^ 6), ('B', 10 ^ 9), ('T', 10 ^ 12)]

/-- The Kelvin sign, whose lower case is that of `K`, and which is its own upper case. -/
def kelvin : Char := '\u212a'

/-- `[KMBT]`, with `re.IGNORECASE`. -/
def isSuffix (c : Char) : Bool := decide (c.toUpper ∈ suffixTable.map Prod.fst) || decide (c = kelvin)

/-- `MAX_NUMBER`. -/
def maxNumber : ℚ := 10 ^ 18

/-- A match of `_NUMBER_RE`. -/
structure NumberMatch where
  /-- Whether it begins with `-`. -/
  negative : Bool
  /-- The digits before the point. -/
  whole : List ℕ
  /-- The digits behind it. -/
  fraction : List ℕ
  /-- The suffix. -/
  suffix : Option Char
  deriving DecidableEq

/-- The number that digits write. -/
def digitsValue (ds : List ℕ) : ℕ := ds.foldl (fun n d => 10 * n + d) 0

/-- The number before the suffix. -/
def NumberMatch.body (m : NumberMatch) : ℚ :=
  (if m.negative then -1 else 1) * (digitsValue (m.whole ++ m.fraction) / 10 ^ m.fraction.length)

/-- `_SUFFIX[suffix]`, which is not guarded. -/
def suffixFactor : Option Char → Except Raised ℕ
  | none => .ok 1
  | some c =>
    match suffixTable.lookup c.toUpper with
    | some factor => .ok factor
    | none => .error (.keyError c.toUpper)

section
variable (py : PyStr)

/-- `\d*`, and what is behind it. -/
def digits : List Char → List ℕ × List Char
  | [] => ([], [])
  | c :: cs =>
    match py.decimal c with
    | some d => (d :: (digits cs).1, (digits cs).2)
    | none => ([], c :: cs)

/-- `(?:\.\d+)?`, and what is behind it. -/
def fraction : List Char → List ℕ × List Char
  | '.' :: cs => if (digits py cs).1 = [] then ([], '.' :: cs) else digits py cs
  | cs => ([], cs)

/-- `_NUMBER_RE.match`. -/
def matchNumber (token : List Char) : Option NumberMatch :=
  let (negative, rest) := match token with
    | '-' :: cs => (true, cs)
    | cs => (false, cs)
  let (whole, rest) := digits py rest
  let (fraction, rest) := fraction py rest
  if whole = [] then none
  else
    match rest with
    | [] => some ⟨negative, whole, fraction, none⟩
    | [c] => if isSuffix c then some ⟨negative, whole, fraction, some c⟩ else none
    | _ => none

/-- `_parse_number`. -/
def parseNumber (token : List Char) : Except Raised (Option ℚ) :=
  match matchNumber py token with
  | none => .ok none
  | some m => do
    let factor ← suffixFactor m.suffix
    let value := double (double m.body * factor)
    .ok (if maxNumber < |value| then none else some value)

end

/-- `int(x)`. -/
def pyInt (x : ℚ) : ℤ := if x < 0 then ⌈x⌉ else ⌊x⌋

/-! ### Keys -/

/-- A key of `_RANGE_KEYS`. -/
inductive RangeKey
  /-- `market_cap`. -/
  | marketCap
  /-- `price`. -/
  | price
  /-- `volume`. -/
  | volume
  /-- `beta`. -/
  | beta
  /-- `dividend`. -/
  | dividend
  deriving DecidableEq

/-- The key as it is written. -/
def RangeKey.name : RangeKey → String
  | marketCap => "market_cap"
  | price => "price"
  | volume => "volume"
  | beta => "beta"
  | dividend => "dividend"

/-- The stem of its parameters. -/
def RangeKey.stem : RangeKey → String
  | marketCap => "marketCap"
  | price => "price"
  | volume => "volume"
  | beta => "beta"
  | dividend => "dividend"

/-- `_RANGE_KEYS`. -/
def rangeKeys : List RangeKey := [.marketCap, .price, .volume, .beta, .dividend]

/-- A key of `_STRING_KEYS`, which is also its parameter. -/
inductive StringKey
  /-- `sector`. -/
  | sector
  /-- `industry`. -/
  | industry
  /-- `exchange`. -/
  | exchange
  /-- `country`. -/
  | country
  deriving DecidableEq

/-- The key as it is written. -/
def StringKey.name : StringKey → String
  | sector => "sector"
  | industry => "industry"
  | exchange => "exchange"
  | country => "country"

/-- `_STRING_KEYS`. -/
def stringKeys : List StringKey := [.sector, .industry, .exchange, .country]

/-- A key of `_REPEATABLE`. -/
inductive SmaKey
  /-- `above_sma`. -/
  | aboveSma
  /-- `sma_rising`. -/
  | smaRising
  deriving DecidableEq

/-- The key as it is written. -/
def SmaKey.name : SmaKey → String
  | aboveSma => "above_sma"
  | smaRising => "sma_rising"

/-- A key. -/
inductive Key
  /-- A range. -/
  | range (k : RangeKey)
  /-- A text. -/
  | text (k : StringKey)
  /-- `etf`. -/
  | etf
  /-- Windows of a moving average. -/
  | sma (k : SmaKey)
  /-- `near_52w_high`. -/
  | near52wHigh
  /-- `min_history`. -/
  | minHistory
  /-- `limit`. -/
  | limit
  deriving DecidableEq

/-- The key as it is written. -/
def Key.name : Key → String
  | range k => k.name
  | text k => k.name
  | etf => "etf"
  | sma k => k.name
  | near52wHigh => "near_52w_high"
  | minHistory => "min_history"
  | limit => "limit"

/-- `ALL_KEYS`. -/
def allKeys : List Key :=
  rangeKeys.map .range ++ stringKeys.map .text ++ [.etf] ++
    [.sma .aboveSma, .sma .smaRising, .near52wHigh, .minHistory] ++ [.limit]

/-- The key of a name. -/
def keyOf (name : List Char) : Option Key := allKeys.find? fun key => decide (key.name.toList = name)

theorem keyOf_eq_some {name : List Char} {key : Key} (h : keyOf name = some key) : name = key.name.toList := by
  have hfound : decide (key.name.toList = name) = true := by simpa only using List.find?_some h
  exact (of_decide_eq_true hfound).symm

/-- Whether it is one of `_REPEATABLE`. -/
def Key.repeatable : Key → Bool
  | sma _ => true
  | _ => false

/-- What a range key is set to: at least one of the bounds. -/
structure Bounds where
  /-- `gte`. -/
  gte : Option ℚ
  /-- `lte`. -/
  lte : Option ℚ
  deriving DecidableEq

/-- What a key is set to. -/
abbrev Key.Value : Key → Type
  | range _ => Bounds
  | text _ => List Char
  | etf => Bool
  | sma _ => List ℚ
  | near52wHigh => ℚ
  | minHistory => ℤ
  | limit => ℤ

/-- A dict of criteria: what each key is set to. -/
abbrev Criteria := (key : Key) → Option key.Value

/-- The empty dict. -/
def Criteria.empty : Criteria := fun _ => none

/-- `criteria[key] = value`. -/
def Criteria.set (c : Criteria) (key : Key) (value : key.Value) : Criteria := Function.update c key (some value)

/-! ### Values -/

/-- `LIMIT_MIN`. -/
def limitMin : ℤ := 1

/-- `LIMIT_MAX`. -/
def limitMax : ℤ := 100

/-- `LIMIT_DEFAULT`. -/
def limitDefault : ℤ := 50

/-- `MIN_HISTORY_DEFAULT`. -/
def minHistoryDefault : ℤ := 260

/-- `MIN_HISTORY_MAX`. -/
def minHistoryMax : ℤ := 2000

/-- `SMA_WINDOWS`. -/
def smaWindows : List ℚ := [50, 200]

/-- `MAX_STRING_LEN`. -/
def maxStringLen : ℕ := 64

/-- `s.partition(sep)`, where there is one. -/
def partitionAt (sep s : List Char) : Option (List Char × List Char) := upTo (fun a b => decide (a = b)) sep s

section
variable (py : PyStr)

/-- What `A..B` makes of its numbers. -/
def betweenOf (val loS hiS : List Char) : Option ℚ → Option ℚ → Except String Bounds
  | some lo, some hi =>
    if hi < lo then
      .error ("range is inverted (" ++ String.ofList (stripChars loS) ++ ".." ++ String.ofList (stripChars hiS) ++ ").")
    else .ok ⟨some lo, some hi⟩
  | _, _ => .error ("expected 'A..B' with numbers, got " ++ py.repr val ++ ".")

/-- What `>=` or `<=` makes of its number. -/
def boundOf (op : String) (val : List Char) (bounds : ℚ → Bounds) : Option ℚ → Except String Bounds
  | some num => .ok (bounds num)
  | none => .error ("expected a number after " ++ op ++ ", got " ++ py.repr val ++ ".")

/-- `_parse_range`. -/
def parseRange (val : List Char) : Except Raised (Except String Bounds) :=
  match partitionAt "..".toList val with
  | some (loS, hiS) => do
    let lo ← parseNumber py (stripChars loS)
    let hi ← parseNumber py (stripChars hiS)
    return betweenOf py val loS hiS lo hi
  | none =>
    match val with
    | '>' :: '=' :: rest => return boundOf py ">=" val (fun num => ⟨some num, none⟩) (← parseNumber py (stripChars rest))
    | '<' :: '=' :: rest => return boundOf py "<=" val (fun num => ⟨none, some num⟩) (← parseNumber py (stripChars rest))
    | '>' :: _ => return .error ("use '>=' or '<=' (inclusive), not " ++ py.repr ['>'] ++ ".")
    | '<' :: _ => return .error ("use '>=' or '<=' (inclusive), not " ++ py.repr ['<'] ++ ".")
    | _ => return .error ("expected '>= N', '<= N' or 'A..B', got " ++ py.repr val ++ ".")

/-- The value of a text key. -/
def readText (k : StringKey) (val : List Char) : Except String (List Char) :=
  if '|' ∈ val ∨ ',' ∈ val then
    .error (k.name ++ ": only ONE value is supported in v1 — multi-value vendor enums are out of scope.")
  else if maxStringLen < val.length then
    .error (k.name ++ ": value longer than " ++ toString maxStringLen ++ " characters.")
  else if k = .country then
    if val.length = 2 ∧ py.isAlpha val = true then .ok (py.upper val)
    else .error "country: expected a 2-letter ISO code, e.g. US."
  else .ok val

/-- The value of `etf`. -/
def readEtf (val : List Char) : Except String Bool :=
  let low := py.lower val
  if low = "true".toList then .ok true
  else if low = "false".toList then .ok false
  else .error "etf: expected true or false."

/-- A window of a moving average. -/
def windowOf (k : SmaKey) : Option ℚ → Except String ℚ
  | some num => if num ∈ smaWindows then .ok num else failed
  | none => failed
where
  /-- The error. -/
  failed : Except String ℚ :=
    .error (k.name ++ ": expected one of " ++ ", ".intercalate (smaWindows.map fun w => toString (pyInt w)) ++ ".")

/-- `val[:-1].strip() if val.endswith("%") else val`. -/
def percentToken (val : List Char) : List Char :=
  if val.getLast? = some '%' then stripChars val.dropLast else val

/-- The value of `near_52w_high`. -/
def nearOf : Option ℚ → Except String ℚ
  | none => .error "near_52w_high: expected a percentage, e.g. 25%."
  | some num =>
    if 1 ≤ num ∧ num ≤ 100 then .ok num else .error "near_52w_high: percentage must be between 1 and 100."

/-- The value of `min_history`. -/
def minHistoryOf : Option ℚ → Except String ℤ
  | none => failed
  | some num => if (pyInt num : ℚ) = num ∧ 1 ≤ num ∧ num ≤ minHistoryMax then .ok (pyInt num) else failed
where
  /-- The error. -/
  failed : Except String ℤ :=
    .error ("min_history: expected a whole number of days between 1 and " ++ toString minHistoryMax ++ ".")

/-- The value of `limit`, which is clamped. -/
def limitOf : Option ℚ → Except String ℤ
  | none => failed
  | some num => if (pyInt num : ℚ) = num then .ok (max limitMin (min limitMax (pyInt num))) else failed
where
  /-- The error. -/
  failed : Except String ℤ := .error "limit: expected a whole number between 1 and 100."

/-- The windows with one more, in order. -/
def addWindow (bucket : List ℚ) (num : ℚ) : List ℚ := (bucket ++ [num]).mergeSort fun a b => decide (a ≤ b)

/-- A window is set once. -/
def setWindow (k : SmaKey) (c : Criteria) (num : ℚ) : Except String Criteria :=
  let bucket := (c (.sma k)).getD []
  if num ∈ bucket then .error (k.name ++ ": " ++ toString (pyInt num) ++ " is already set (duplicate_key).")
  else .ok (c.set (.sma k) (addWindow bucket num))

/-- `_apply`. -/
def applyKey (key : Key) (val : List Char) (c : Criteria) : Except Raised (Except String Criteria) :=
  match key with
  | .range k => do
    return match ← parseRange py val with
      | .ok parsed => .ok (c.set (.range k) parsed)
      | .error err => .error (k.name ++ ": " ++ err)
  | .text k => return (readText py k val).map (c.set (.text k))
  | .etf => return (readEtf py val).map (c.set .etf)
  | .sma k => return (windowOf k (← parseNumber py val)).bind (setWindow k c)
  | .near52wHigh => return (nearOf (← parseNumber py (percentToken val))).map (c.set .near52wHigh)
  | .minHistory => return (minHistoryOf (← parseNumber py val)).map (c.set .minHistory)
  | .limit => return (limitOf (← parseNumber py val)).map (c.set .limit)

/-! ### Lines -/

/-- What a line is read as. -/
inductive LineRead
  /-- A blank line or a comment. -/
  | skip
  /-- An error. -/
  | bad (error : String)
  /-- A key that there is, and a value. -/
  | entry (key : Key) (val : List Char)

/-- `', '.join(sorted(ALL_KEYS))`. -/
def validKeys : String := ", ".intercalate ((allKeys.map Key.name).mergeSort fun a b => decide (a ≤ b))

/-- `raw.rstrip("\r").strip()`. -/
def stripLine (raw : List Char) : List Char := stripChars (raw.rdropWhile fun c => decide (c = '\r'))

/-- What a line says. -/
def readLine (raw : List Char) : LineRead :=
  let line := stripLine raw
  if line = [] ∨ line.head? = some '#' then .skip
  else if ':' ∉ line then .bad ("Expected 'key: value', got " ++ py.repr line ++ ".")
  else
    let name := py.lower (stripChars (line.takeWhile fun c => decide (c ≠ ':')))
    let val := stripChars (line.dropWhile fun c => decide (c ≠ ':')).tail
    match keyOf name with
    | none => .bad ("Unknown key " ++ py.repr name ++ ". Valid keys: " ++ validKeys ++ ".")
    | some key => if val = [] then .bad ("Key " ++ py.repr name ++ " has no value.") else .entry key val

/-- What the loop keeps. -/
structure BodyState where
  /-- `criteria`. -/
  criteria : Criteria
  /-- `seen_scalar`. -/
  seenScalar : List Key
  /-- `errors`. -/
  errors : List LineError

/-- `errors.append`. -/
def BodyState.fail (st : BodyState) (lineno : ℕ) (error : String) : BodyState :=
  { st with errors := st.errors ++ [⟨lineno, error⟩] }

/-- `seen_scalar.add`. -/
def BodyState.see (st : BodyState) (key : Key) : BodyState :=
  if key.repeatable then st else { st with seenScalar := key :: st.seenScalar }

/-- The body of the loop. -/
def bodyStep (lineno : ℕ) (raw : List Char) (st : BodyState) : Except Raised BodyState :=
  match readLine py raw with
  | .skip => .ok st
  | .bad error => .ok (st.fail lineno error)
  | .entry key val =>
    if key.repeatable = false ∧ key ∈ st.seenScalar then
      .ok (st.fail lineno ("Duplicate key " ++ py.repr key.name.toList ++ " (duplicate_key)."))
    else do
      match ← applyKey py key val st.criteria with
      | .error error => .ok ((st.see key).fail lineno error)
      | .ok c => .ok { st.see key with criteria := c }

/-- The loop. -/
def bodySteps : ℕ → List (List Char) → BodyState → Except Raised BodyState
  | _, [], st => .ok st
  | lineno, raw :: rest, st => do bodySteps (lineno + 1) rest (← bodyStep py lineno raw st)

/-! ### What is built -/

/-- A value of a parameter. -/
inductive Param
  /-- A number. -/
  | number (x : ℚ)
  /-- A text. -/
  | text (s : List Char)
  /-- A truth value. -/
  | flag (b : Bool)
  deriving DecidableEq

/-- `ScreenCriteria`. -/
structure ScreenCriteria where
  /-- `criteria`. -/
  criteria : Criteria
  /-- `vendor_params`. -/
  vendorParams : List (String × Param)
  /-- `derived`. -/
  derived : Criteria
  /-- `limit`. -/
  limit : ℤ

/-- The parameters of a range. -/
def rangeParams (c : Criteria) (k : RangeKey) : List (String × Param) :=
  match c (.range k) with
  | none => []
  | some bounds =>
    (bounds.gte.map fun x => (k.stem ++ "MoreThan", Param.number x)).toList ++
      (bounds.lte.map fun x => (k.stem ++ "LowerThan", Param.number x)).toList

/-- `vendor`. -/
def vendorOf (c : Criteria) (limit : ℤ) : List (String × Param) :=
  rangeKeys.flatMap (rangeParams c) ++
    stringKeys.filterMap (fun k => (c (.text k)).map fun s => (k.name, Param.text s)) ++
    [("isActivelyTrading", .flag true), ("isEtf", .flag ((c .etf).getD false)), ("limit", .number limit)]

/-- `derived`. -/
def derivedOf (c : Criteria) : Criteria
  | .sma k => c (.sma k)
  | .near52wHigh => c .near52wHigh
  | .minHistory =>
    if (c (.sma .aboveSma)).isSome ∨ (c (.sma .smaRising)).isSome ∨ (c .near52wHigh).isSome ∨ (c .minHistory).isSome then
      some ((c .minHistory).getD minHistoryDefault)
    else none
  | _ => none

/-- `_build`. -/
def build (c : Criteria) : ScreenCriteria :=
  let limit := (c .limit).getD limitDefault
  let c := c.set .limit limit
  { criteria := c, vendorParams := vendorOf c limit, derived := derivedOf c, limit := limit }

/-- What `parse` returns. -/
abbrev Parsed := Option ScreenCriteria × List LineError

/-- `_parse_body`. -/
def parseBody (rawLines : List (List Char)) (firstLine : ℕ) : Except Raised Parsed := do
  let st ← bodySteps py firstLine rawLines ⟨.empty, [], []⟩
  .ok (if st.errors = [] then (some (build st.criteria), []) else (none, st.errors))

/-- `MAX_BLOCK_BYTES`. -/
def maxBlockBytes : ℕ := 4096

/-- `MAX_BLOCK_LINES`. -/
def maxBlockLines : ℕ := 40

/-- `len(body.encode("utf-8"))`. -/
def utf8Length (body : List Char) : ℕ := (body.map Char.utf8Size).sum

/-- The text without the mark at its beginning. -/
def stripBom : List Char → List Char
  | '\ufeff' :: text => text
  | text => text

/-- `parse`. -/
def parse (text : List Char) : Except Raised Parsed :=
  if text = [] then .ok (none, [])
  else
    let extracted := extractBlock (stripBom text)
    if extracted.errors ≠ [] then .ok (none, extracted.errors)
    else
      match extracted.body with
      | none => .ok (none, [])
      | some body =>
        if maxBlockBytes < utf8Length body then
          .ok (none, [⟨extracted.firstLine, "[screen] block is larger than " ++ toString maxBlockBytes ++ " bytes."⟩])
        else if maxBlockLines < (body.splitOn '\n').length then
          .ok (none, [⟨extracted.firstLine, "[screen] block has more than " ++ toString maxBlockLines ++ " lines."⟩])
        else parseBody py (body.splitOn '\n') extracted.firstLine

end

end StratTrader.Screener
