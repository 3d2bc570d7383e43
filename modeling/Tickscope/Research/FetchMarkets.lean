import Tickscope.Lib.NatDouble
import Tickscope.Lib.PyText
import Tickscope.Lib.Regex

/-!
# The titles of price markets

`parse_market_title` of `research/scripts/fetch_markets.py` makes an asset, a strike and a date of a
title. Which of the phrases of the pattern stands in the title is not kept.
-/

namespace Tickscope.Research.FetchMarkets

open Tickscope.Lib

/-! ## The patterns -/

/-- The alternatives between the asset and the price. -/
inductive Phrase where
  | above
  | reach
  | hit
  | dipTo
  | beGreaterThan
  | beLessThan
  | beBetween
deriving DecidableEq

def Phrase.text : Phrase → String
  | .above => "above"
  | .reach => "reach"
  | .hit => "hit"
  | .dipTo => "dip to"
  | .beGreaterThan => "be greater than"
  | .beLessThan => "be less than"
  | .beBetween => "be between"

/-- The groups of `_PRICE_RE`. The pattern has no group for the phrase; here it has one for each, so
that it can be said which of them matched. -/
inductive PriceGroup where
  | asset
  | phrase (phrase : Phrase)
  | price
  | suffix
  | date
deriving DecidableEq

/-- The lower case of a character, as far as it is an ASCII letter. -/
def toLower (c : Char) : Char :=
  if 'A' ≤ c ∧ c ≤ 'Z' then Char.ofNat (c.toNat + 32)
  else if c = '\u212a' then 'k'
  else if c = '\u0130' then 'i'
  else c

/-- `re.IGNORECASE` for a literal ASCII character: besides its cases, `i` matches the dotless `ı`
and `s` the long `ſ`. -/
def like (p c : Char) : Bool :=
  toLower c = toLower p || (toLower p = 'i' && c = '\u0131') || (toLower p = 's' && c = '\u017f')

def word (text : String) : Regex PriceGroup := .literal like text

/-- `\s+`. -/
def blanks : Regex PriceGroup := .many1 PyText.isSpace false

/-- `.`. -/
def dot (c : Char) : Bool := c ≠ '\n'

/-- The phrases in the order of the pattern. -/
def phrases : List Phrase :=
  [.above, .reach, .hit, .dipTo, .beGreaterThan, .beLessThan, .beBetween]

/-- `_PRICE_RE`. -/
def priceRe : Regex PriceGroup :=
  .concat [
    .opt (.seq (word "price of") blanks),
    .group .asset (.any [word "Bitcoin", word "Ethereum"]), blanks,
    .opt (.seq (word "be") blanks),
    .any (phrases.map fun phrase => .group (.phrase phrase) (word phrase.text)), blanks,
    .char (· = '$'), .group .price (.many1 (fun c => (PyText.decimal c).isSome || c = ',') false),
    .opt (.group .suffix (.char fun c => toLower c = 'k' || toLower c = 'm')),
    .many dot true, .any [word "on", word "by", word "in", word "before"], blanks,
    .group .date (.many1 dot true), .opt (.char (· = '?')), .atEnd]

/-- `_UPWARD_RE`. -/
def upwardRe : Regex PriceGroup :=
  .any [word "above", word "reach", word "hit", word "greater than"]

/-! ## `parse_market_title` -/

inductive Exception where
  | keyError
  | valueError
deriving DecidableEq

structure Parsed where
  asset : Text
  strikePrice : WithTop Nat
  date : Text
deriving DecidableEq

/-- `str.lower`, of a text that a pattern has matched. -/
def lower (text : Text) : Text :=
  text.flatMap fun c => if c = '\u0130' then ['i', '\u0307'] else [toLower c]

/-- `ASSET_MAP`. -/
def assetMap (name : Text) : Option Text :=
  if name = "bitcoin".toList then some "BTC".toList
  else if name = "ethereum".toList then some "ETH".toList
  else none

/-- `_SUFFIX_MULT`. -/
def suffixMult (suffix : Text) : Option Nat :=
  if suffix = "k".toList then some 1000
  else if suffix = "m".toList then some 1000000
  else none

section Fields

variable (m : Regex.Match PriceGroup)

def assetName : Text := lower ((m.group .asset).getD [])

/-- The digits of the price. -/
def raw : Text := ((m.group .price).getD []).filter (· ≠ ',')

/-- What the price is multiplied by. -/
def multiplier : Option (Option Nat) :=
  match m.group .suffix with
  | none => some none
  | some suffix => (suffixMult (lower suffix)).map some

def date : Text := PyText.rstrip (· = '?') (PyText.strip ((m.group .date).getD []))

end Fields

/-- What is made of a match. The digits of `raw` are all decimal, so that `float` fails only on
an empty text. -/
def parseMatch (m : Regex.Match PriceGroup) : Except Exception Parsed :=
  match assetMap (assetName m) with
  | none => .error .keyError
  | some asset =>
      match PyText.digits (raw m) with
      | none => .error .valueError
      | some number =>
          match multiplier m with
          | none => .error .keyError
          | some none => .ok ⟨asset, toDouble number, date m⟩
          | some (some mult) => .ok ⟨asset, timesDouble (toDouble number) mult, date m⟩

def parseMarketTitle (title : Text) : Except Exception (Option Parsed) :=
  match priceRe.search title with
  | none => .ok none
  | some m => if (upwardRe.search title).isNone then .ok none else (parseMatch m).map some

/-! ## What an accepted title gives -/

theorem parseMarketTitle_eq_ok_some {title : Text} {parsed : Parsed}
    (accepted : parseMarketTitle title = .ok (some parsed)) :
    ∃ m, priceRe.search title = some m ∧ parseMatch m = .ok parsed := by
  unfold parseMarketTitle at accepted
  cases found : priceRe.search title with
  | none =>
      rw [found] at accepted
      cases accepted
  | some m =>
      rw [found] at accepted
      dsimp only at accepted
      refine ⟨m, rfl, ?_⟩
      split at accepted
      · cases accepted
      · cases made : parseMatch m with
        | error e => rw [made] at accepted; cases accepted
        | ok other => rw [made] at accepted; cases accepted; rfl

theorem multiplier_pos {m : Regex.Match PriceGroup} {mult : Nat}
    (known : multiplier m = some (some mult)) : 0 < mult := by
  unfold multiplier at known
  cases found : m.group .suffix with
  | none => rw [found] at known; cases known
  | some suffix =>
      rw [found] at known
      obtain ⟨_, named, ⟨⟩⟩ := Option.map_eq_some_iff.mp known
      unfold suffixMult at named
      split_ifs at named <;> cases named <;> decide

/-- What is made of a match that does not raise. -/
theorem parseMatch_cases {m : Regex.Match PriceGroup} {parsed : Parsed}
    (made : parseMatch m = .ok parsed) :
    parsed.date = date m ∧ ∃ number, PyText.digits (raw m) = some number ∧
      (multiplier m = some none ∧ parsed.strikePrice = toDouble number ∨
        ∃ mult, multiplier m = some (some mult) ∧
          parsed.strikePrice = timesDouble (toDouble number) mult) := by
  unfold parseMatch at made
  split at made
  · cases made
  · split at made
    · cases made
    · rename_i number digits
      split at made
      · cases made
      · rename_i plain
        cases made
        exact ⟨rfl, number, digits, .inl ⟨plain, rfl⟩⟩
      · rename_i mult suffixed
        cases made
        exact ⟨rfl, number, digits, .inr ⟨mult, suffixed, rfl⟩⟩

end Tickscope.Research.FetchMarkets
