import StratTrader.Brokers.Base
import StratTrader.Foundation.FloatText

/-!
# TradeStation symbols

`to_ts_symbol` of `brokers/tradestation/mapping.py`. The strike of an option, a number of thousandths
of eight digits, is divided by a thousand and written with the format `:g`, which keeps six digits.

## What is proved

* `toTsSymbol_option`: the symbol of an option.
* `mapsExactly_iff`: two options have symbols that are exact, and different if the options are,
  exactly if no more than six digits of either strike are significant.

## Honest scope

`str.upper` is a parameter, and a digit is an ASCII digit. The blanks that a root is padded with are
not part of it.
-/

namespace StratTrader.Brokers.TradeStation

open StratTrader.Brokers StratTrader.Foundation

/-- `_FUT_MONTH`. -/
def futMonth : List (List Char × List Char) :=
  [(['0', '1'], ['F']), (['0', '2'], ['G']), (['0', '3'], ['H']), (['0', '4'], ['J']), (['0', '5'], ['K']),
    (['0', '6'], ['M']), (['0', '7'], ['N']), (['0', '8'], ['Q']), (['0', '9'], ['U']), (['1', '0'], ['V']),
    (['1', '1'], ['X']), (['1', '2'], ['Z'])]

/-- `s.zfill(2)`. -/
def zfill2 : List Char → List Char
  | ['+'] => ['+', '0']
  | ['-'] => ['-', '0']
  | cs => List.replicate (2 - cs.length) '0' ++ cs

section
variable (upper : String → String)

/-- The symbol of a future: the root with the code of the month and the year, or the root alone. -/
def futureSymbol (future : FutureContract) : List Char :=
  let root := (upper future.root).toList.dropWhile fun c => decide (c = '@')
  match future.expiry.toList.splitOn '-' with
  | year :: month :: _ => root ++ (futMonth.lookup (zfill2 month)).getD [] ++ year.drop (year.length - 2)
  | _ => '@' :: root

/-- The symbol of an option: the root, the date, the right and the strike of its OCC symbol. -/
def optionSymbol (occ : List Char) : List Char :=
  let underlying := stripChars (occ.take (occ.length - 15))
  let rest := occ.drop (occ.length - 15)
  underlying ++ ' ' :: (rest.take 7 ++ thousandthsText (Decimal.natOf (rest.drop 7)))

/-- `to_ts_symbol`. -/
def toTsSymbol (req : OrderRequest) : String :=
  let occ := req.symbol.toList
  match req.assetClass, req.future with
  | .future, some future => String.ofList (futureSymbol upper future)
  | .option, _ =>
    if 15 ≤ occ.length ∧ (occ.drop (occ.length - 8)).all Char.isDigit = true then String.ofList (optionSymbol occ)
    else req.symbol
  | _, _ => req.symbol

end

/-! ### Options -/

/-- An option's OCC symbol, in its parts. -/
structure OccSymbol where
  /-- Blanks before the root. -/
  before : List Char
  /-- They are blanks. -/
  before_blank : Blank before
  /-- The root. -/
  root : List Char
  /-- There is one. -/
  root_ne : root ≠ []
  /-- It has no blanks around it. -/
  root_trimmed : Trimmed root
  /-- Blanks behind the root. -/
  behind : List Char
  /-- They are blanks. -/
  behind_blank : Blank behind
  /-- The date. -/
  date : List Char
  /-- It has six digits. -/
  date_length : date.length = 6
  /-- They are digits. -/
  date_digits : ∀ c ∈ date, c.isDigit = true
  /-- The right. -/
  right : Char
  /-- It is a call or a put. -/
  right_mem : right = 'C' ∨ right = 'P'
  /-- The strike, in thousandths. -/
  strike : List Char
  /-- It has eight digits. -/
  strike_length : strike.length = 8
  /-- They are digits. -/
  strike_digits : ∀ c ∈ strike, c.isDigit = true

namespace OccSymbol

/-- The text. -/
def text (o : OccSymbol) : List Char := (o.before ++ o.root ++ o.behind) ++ (o.date ++ o.right :: o.strike)

/-- The number of thousandths of the strike. -/
def thousandths (o : OccSymbol) : ℕ := Decimal.natOf o.strike

/-- The request to trade it, with the rest of a request. -/
def request (o : OccSymbol) (req : OrderRequest) : OrderRequest :=
  { req with symbol := String.ofList o.text, assetClass := .option }

/-- Two symbols of one option. -/
def Same (o o' : OccSymbol) : Prop :=
  o.root = o'.root ∧ o.date = o'.date ∧ o.right = o'.right ∧ o.strike = o'.strike

theorem thousandths_lt (o : OccSymbol) : o.thousandths < 10 ^ 8 := by
  have h := natOf_lt o.strike_digits
  rwa [o.strike_length] at h

/-- There is no blank behind the root of the symbol that it is mapped to. -/
theorem blank_not_mem (o : OccSymbol) : ' ' ∉ o.date ++ o.right :: thousandthsText o.thousandths := by
  intro h
  rcases List.mem_append.mp h with h | h
  · exact absurd (o.date_digits _ h) (by decide)
  · rcases List.mem_cons.mp h with h | h
    · rcases o.right_mem with hright | hright
      · exact absurd (h.trans hright) (by decide)
      · exact absurd (h.trans hright) (by decide)
    · exact blank_not_mem_generalText _ h

end OccSymbol

/-- A text is cut at its last blank in one way. -/
theorem cut_unique {l l' r r' : List Char} (hr : ' ' ∉ r) (hr' : ' ' ∉ r') (h : l ++ ' ' :: r = l' ++ ' ' :: r') :
    l = l' ∧ r = r' := by
  rcases List.append_eq_append_iff.mp h with ⟨cs, hl, hcs⟩ | ⟨cs, hl, hcs⟩
  · cases cs with
    | nil => exact ⟨by rw [hl, List.append_nil], (List.cons.inj hcs).2⟩
    | cons c cs => exact absurd (by rw [(List.cons.inj hcs).2]; exact List.mem_append_right _ (.head _)) hr
  · cases cs with
    | nil => exact ⟨by rw [hl, List.append_nil], (List.cons.inj hcs).2.symm⟩
    | cons c cs => exact absurd (by rw [(List.cons.inj hcs).2]; exact List.mem_append_right _ (.head _)) hr'

section
variable (upper : String → String) (req req' : OrderRequest) (o o' : OccSymbol)

/-- **The symbol of an option.** -/
theorem toTsSymbol_option : toTsSymbol upper (o.request req) =
    String.ofList (o.root ++ ' ' :: (o.date ++ o.right :: thousandthsText o.thousandths)) := by
  have hlen : o.text.length = (o.before ++ o.root ++ o.behind).length + 15 := by
    unfold OccSymbol.text
    rw [List.length_append, @List.length_append _ o.date, List.length_cons, o.date_length, o.strike_length]
  have htake : o.text.take (o.text.length - 15) = o.before ++ o.root ++ o.behind := by
    rw [hlen, Nat.add_sub_cancel]
    exact List.take_left
  have hdrop : o.text.drop (o.text.length - 15) = o.date ++ o.right :: o.strike := by
    rw [hlen, Nat.add_sub_cancel]
    exact List.drop_left
  have hfront : (o.date ++ o.right :: o.strike).take 7 = o.date ++ [o.right] := by
    rw [← List.singleton_append, ← List.append_assoc]
    refine List.take_left' ?_
    rw [List.length_append, o.date_length, List.length_singleton]
  have hback : (o.date ++ o.right :: o.strike).drop 7 = o.strike := by
    rw [← List.singleton_append, ← List.append_assoc]
    refine List.drop_left' ?_
    rw [List.length_append, o.date_length, List.length_singleton]
  have hdigits : (o.text.drop (o.text.length - 8)).all Char.isDigit = true := by
    have hlast : o.text.drop (o.text.length - 8) = o.strike := by
      rw [show o.text.length - 8 = o.text.length - 15 + 7 by omega, ← List.drop_drop, hdrop, hback]
    rw [hlast]
    exact List.all_eq_true.mpr o.strike_digits
  unfold toTsSymbol OccSymbol.request
  dsimp only
  rw [String.toList_ofList, if_pos ⟨by omega, hdigits⟩]
  unfold optionSymbol
  dsimp only
  rw [htake, hdrop, hfront, hback, stripChars_append o.before_blank o.behind_blank o.root_trimmed o.root_ne,
    List.append_assoc, List.singleton_append]
  rfl

/-- The symbol's strike is the strike. -/
def Denotes (symbol : String) : Prop :=
  ∃ strike, symbol = String.ofList (o.root ++ ' ' :: (o.date ++ o.right :: strike)) ∧
    Decimal.numeralOf strike = some ((o.thousandths : ℚ) / 1000)

/-- Two options have exact symbols, and different ones if they differ. -/
structure MapsExactly : Prop where
  /-- The strike of the first. -/
  first : Denotes o (toTsSymbol upper (o.request req))
  /-- The strike of the second. -/
  second : Denotes o' (toTsSymbol upper (o'.request req'))
  /-- The symbols. -/
  distinct : ¬ o.Same o' → toTsSymbol upper (o.request req) ≠ toTsSymbol upper (o'.request req')

theorem denotes_iff : Denotes o (toTsSymbol upper (o.request req)) ↔ SixDigits o.thousandths := by
  rw [← thousandthsText_exact o.thousandths_lt, toTsSymbol_option]
  constructor
  · rintro ⟨strike, hsame, hstrike⟩
    have hsame := List.append_cancel_left (String.ofList_inj.mp hsame)
    have hsame := List.append_cancel_left (List.cons.inj hsame).2
    rwa [(List.cons.inj hsame).2]
  · intro hexact
    exact ⟨_, rfl, hexact⟩

/-- **Options are mapped exactly** if, and only if, no more than six digits of their strikes are significant. -/
theorem mapsExactly_iff :
    MapsExactly upper req req' o o' ↔ SixDigits o.thousandths ∧ SixDigits o'.thousandths := by
  constructor
  · intro h
    exact ⟨(denotes_iff upper req o).mp h.first, (denotes_iff upper req' o').mp h.second⟩
  · rintro ⟨hsix, hsix'⟩
    refine ⟨(denotes_iff upper req o).mpr hsix, (denotes_iff upper req' o').mpr hsix', fun hdiffer hsame => hdiffer ?_⟩
    rw [toTsSymbol_option, toTsSymbol_option] at hsame
    obtain ⟨hroot, hrest⟩ := cut_unique o.blank_not_mem o'.blank_not_mem (String.ofList_inj.mp hsame)
    obtain ⟨hdate, htail⟩ := List.append_inj hrest (o.date_length.trans o'.date_length.symm)
    obtain ⟨hright, htext⟩ := List.cons.inj htail
    -- the texts of the strikes are both exact, so they are those of one number
    have hvalue := (thousandthsText_exact o.thousandths_lt).mpr hsix
    have hvalue' := (thousandthsText_exact o'.thousandths_lt).mpr hsix'
    rw [htext, hvalue', Option.some.injEq, div_left_inj' (by norm_num), Nat.cast_inj] at hvalue
    exact ⟨hroot, hdate, hright,
      natOf_inj o.strike_digits o'.strike_digits (o.strike_length.trans o'.strike_length.symm) hvalue.symm⟩

end

/-- An option on a root of one letter, with a strike of eight digits. -/
def optionOf (strike : List Char) (hlength : strike.length = 8) (hdigits : ∀ c ∈ strike, c.isDigit = true) : OccSymbol where
  before := []
  before_blank := nofun
  root := ['A']
  root_ne := by decide
  root_trimmed := ⟨fun c hc => by cases hc; rfl, fun c hc => by cases hc; rfl⟩
  behind := []
  behind_blank := nofun
  date := ['2', '4', '0', '1', '1', '9']
  date_length := rfl
  date_digits := List.all_eq_true.mp rfl
  right := 'C'
  right_mem := .inl rfl
  strike := strike
  strike_length := hlength
  strike_digits := hdigits

/-- The rest of a request. -/
def sampleOption : OrderRequest := ⟨"", .buy, 1, .mkt, none, none, .day, .option, none, none⟩

/-- **A strike of 1234.567 is rounded to 1234.57.** -/
theorem not_mapsExactly : ¬ ∀ (upper : String → String) (req req' : OrderRequest) (o o' : OccSymbol),
    MapsExactly upper req req' o o' := by
  intro h
  have hsix : SixDigits (Decimal.natOf ['0', '1', '2', '3', '4', '5', '6', '7']) :=
    (denotes_iff id sampleOption (optionOf ['0', '1', '2', '3', '4', '5', '6', '7'] rfl (List.all_eq_true.mp rfl))).mp
      (h id sampleOption sampleOption _
        (optionOf ['0', '1', '2', '3', '4', '5', '7', '0'] rfl (List.all_eq_true.mp rfl))).first
  have hlog : Nat.log 10 1234567 = 6 := by decide +kernel
  have hdvd : 10 ^ (Nat.log 10 1234567 - 5) ∣ 1234567 := hsix
  rw [hlog] at hdvd
  exact absurd hdvd (by decide)

example : thousandthsText 1234567 = ['1', '2', '3', '4', '.', '5', '7'] := by decide +kernel
example : thousandthsText 150000 = ['1', '5', '0'] := by decide +kernel

end StratTrader.Brokers.TradeStation
