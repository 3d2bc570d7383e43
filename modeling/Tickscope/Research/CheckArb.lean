import Mathlib.Algebra.Order.Field.Rat
import Mathlib.Data.List.Nodup
import Mathlib.Tactic.Linarith
import Mathlib.Tactic.NormNum
import Mathlib.Tactic.Ring
import Tickscope.Research.ImplicationGraph

/-!
# The arbitrage scanner

`check_arb` goes through the edges A → B and reports a pair when the bid of B is above the ask of A:
"Sell B, buy A". The title of A implies that of B, so that B is worth no less than A on every path, and
such prices are no arbitrage. Each position that is reported loses on some path of the price; it is
the position with the two sides exchanged that cannot (`reported_loses`).
-/

namespace Tickscope.Research.FetchMarkets

open Tickscope.Lib

/-! ## Markets and books -/

structure Token where
  tokenId : Text
  outcome : Text

/-- A row of the data frame with its tokens. -/
structure Market where
  row : Row
  tokens : List Token

/-- The prices of the levels, from the first. -/
structure Book where
  bids : List (Option ℚ)
  asks : List (Option ℚ)

structure Opportunity where
  buyMarket : Text
  buyTitle : Text
  buyPrice : ℚ
  sellMarket : Text
  sellTitle : Text
  sellPrice : ℚ
  spreadPct : ℚ
deriving DecidableEq

inductive ScanError where
  | zeroDivision
deriving DecidableEq

/-- `_yes_token_id`, if it is not the empty text. -/
def yesTokenId (tokens : List Token) : Option Text :=
  ((tokens.find? fun token => lower token.outcome = "yes".toList).map Token.tokenId).filter (· ≠ [])

/-- `_best_price`. -/
def bestPrice (levels : List (Option ℚ)) : Option ℚ := levels.head?.bind id

/-- `FEE_BUFFER`. -/
def feeBuffer : ℚ := 2 / 100

/-- `rows.loc[mid]`. -/
def loc (markets : List Market) (mid : Text) : Option Market :=
  markets.find? fun market => market.row.marketId = mid

/-- The book of the Yes token of a market, if there is one. -/
def bookOf (books : Text → Option Book) (market : Market) : Option Book :=
  (yesTokenId market.tokens).bind books

/-! ## The scan -/

/-- One edge; it is skipped when a token, a book or a price is missing. -/
def checkEdge (markets : List Market) (books : Text → Option Book) (edge : Text × Text) :
    Except ScanError (Option Opportunity) :=
  match loc markets edge.1, loc markets edge.2 with
  | some hard, some easy =>
      match (bookOf books hard).bind fun book => bestPrice book.asks,
          (bookOf books easy).bind fun book => bestPrice book.bids with
      | some askA, some bidB =>
          if askA * (1 + feeBuffer) < bidB then
            if askA = 0 then .error .zeroDivision
            else
              .ok (some
                { buyMarket := edge.1
                  buyTitle := hard.row.title
                  buyPrice := askA
                  sellMarket := edge.2
                  sellTitle := easy.row.title
                  sellPrice := bidB
                  spreadPct := (bidB - askA) / askA * 100 })
          else .ok none
      | _, _ => .ok none
  | _, _ => .ok none

/-- `check_arb`, for the edges in the order in which the graph gives them. -/
def checkArb (markets : List Market) (books : Text → Option Book) :
    List (Text × Text) → Except ScanError (List Opportunity)
  | [] => .ok []
  | edge :: edges =>
      match checkEdge markets books edge with
      | .error e => .error e
      | .ok found => (checkArb markets books edges).map (found.toList ++ ·)

/-! ## What a report is made of -/

theorem mem_of_loc {markets : List Market} {mid : Text} {market : Market}
    (found : loc markets mid = some market) : market ∈ markets ∧ market.row.marketId = mid := by
  have same := List.find?_some found
  exact ⟨List.mem_of_find?_eq_some found, of_decide_eq_true same⟩

/-- With ids of their own, a row is found under its id. -/
theorem row_of_loc {markets : List Market}
    (distinct : (markets.map fun market => market.row.marketId).Nodup) {market : Market}
    {row : Row} (found : loc markets row.marketId = some market)
    (listed : row ∈ markets.map Market.row) : market.row = row := by
  obtain ⟨mem, same⟩ := mem_of_loc found
  obtain ⟨market', mem', rfl⟩ := List.mem_map.mp listed
  rw [List.inj_on_of_nodup_map distinct mem mem' same]

/-- What `check_arb` reports. -/
theorem checkEdge_eq_some {markets : List Market} {books : Text → Option Book} {edge : Text × Text}
    {opp : Opportunity} (reported : checkEdge markets books edge = .ok (some opp)) :
    (∃ hard easy, loc markets edge.1 = some hard ∧ loc markets edge.2 = some easy) ∧
      opp.buyMarket = edge.1 ∧ opp.sellMarket = edge.2 ∧
      opp.buyPrice * (1 + feeBuffer) < opp.sellPrice := by
  unfold checkEdge at reported
  split at reported
  case h_1 hard easy foundA foundB =>
    split at reported
    case h_1 askA bidB _ _ =>
      split at reported
      case isTrue wide =>
        split at reported
        · cases reported
        · cases reported
          exact ⟨⟨hard, easy, foundA, foundB⟩, rfl, rfl, wide⟩
      case isFalse => cases reported
    case h_2 => cases reported
  case h_2 => cases reported

theorem mem_checkArb {markets : List Market} {books : Text → Option Book}
    {edges : List (Text × Text)} {opps : List Opportunity} {opp : Opportunity}
    (scanned : checkArb markets books edges = .ok opps) (reported : opp ∈ opps) :
    ∃ edge ∈ edges, checkEdge markets books edge = .ok (some opp) := by
  induction edges generalizing opps with
  | nil =>
      cases scanned
      cases reported
  | cons edge edges ih =>
      rw [checkArb] at scanned
      cases checked : checkEdge markets books edge with
      | error e =>
          rw [checked] at scanned
          cases scanned
      | ok found =>
          rw [checked] at scanned
          dsimp only at scanned
          cases rest : checkArb markets books edges with
          | error e =>
              rw [rest] at scanned
              cases scanned
          | ok later =>
              rw [rest] at scanned
              cases scanned
              rcases List.mem_append.mp reported with here | after
              · exact ⟨edge, List.mem_cons_self, by rw [checked, Option.mem_toList.mp here]⟩
              · obtain ⟨edge', mem, same⟩ := ih rest after
                exact ⟨edge', List.mem_cons_of_mem _ mem, same⟩

/-! ## What a position is worth -/

open Classical in
/-- What is made of one share of each: the one is bought, the other sold, and a share is worth 1 if
its market resolves true, and nothing otherwise. -/
noncomputable def profit (bought sold : Prop) (buyPrice sellPrice : ℚ) : ℚ :=
  ((if bought then 1 else 0) - buyPrice) + (sellPrice - if sold then 1 else 0)

/-- Between the two amounts the share that is sold has to be paid for. -/
theorem profit_between {day : Text → ℝ} {asked implied : Question}
    (lt : implied.amount < asked.amount) (buyPrice sellPrice : ℚ) :
    ∃ path, profit (asked.Resolves day path) (implied.Resolves day path) buyPrice sellPrice =
      sellPrice - buyPrice - 1 := by
  obtain ⟨c, above, below⟩ := exists_between (Nat.cast_lt (α := NNReal).mpr lt)
  refine ⟨fun _ => c, ?_⟩
  rw [profit, if_neg (Question.not_resolves_const below), if_pos (Question.resolves_const above)]
  ring

/-- Where the first implies the second, buying the second and selling the first is worth its spread
at least. -/
theorem le_profit_of_implies {day : Text → ℝ} {asked implied : Question} {path : ℝ → NNReal}
    (implies : asked.Resolves day path → implied.Resolves day path) (buyPrice sellPrice : ℚ) :
    sellPrice - buyPrice ≤
      profit (implied.Resolves day path) (asked.Resolves day path) buyPrice sellPrice := by
  unfold profit
  by_cases resolved : asked.Resolves day path
  · rw [if_pos resolved, if_pos (implies resolved)]
    linarith
  · rw [if_neg resolved]
    split <;> linarith

/-- **What is reported is no arbitrage.** Every report is about an edge, and where its two titles are
read, the position loses on some path of the price, if the share that is sold brings no more than 1
and the other is not free. With the sides exchanged it is worth its spread on every path on which the
edge holds. -/
theorem reported_loses (day : Text → ℝ) (markets : List Market) (books : Text → Option Book)
    (edges : List (Text × Text)) (opps : List Opportunity) (opp : Opportunity)
    (distinct : (markets.map fun market => market.row.marketId).Nodup)
    (listed : ∀ edge ∈ edges, edge ∈ (buildImplicationGraph (markets.map Market.row)).edges)
    (scanned : checkArb markets books edges = .ok opps) (reported : opp ∈ opps)
    (bid : opp.sellPrice ≤ 1) (ask : 0 < opp.buyPrice) :
    ∃ hard ∈ markets, ∃ easy ∈ markets,
      hard.row.marketId = opp.buyMarket ∧ easy.row.marketId = opp.sellMarket ∧
      ∀ asked implied, reading hard.row.title = some asked → reading easy.row.title = some implied →
        asked.amount < 2 ^ 53 → implied.amount < 2 ^ 53 →
        (∃ path, profit (asked.Resolves day path) (implied.Resolves day path) opp.buyPrice
          opp.sellPrice < 0) ∧
        ∀ path, (asked.Resolves day path → implied.Resolves day path) → ∀ buyPrice sellPrice,
          sellPrice - buyPrice ≤
            profit (implied.Resolves day path) (asked.Resolves day path) buyPrice sellPrice := by
  obtain ⟨edge, mem, checked⟩ := mem_checkArb scanned reported
  obtain ⟨⟨hard, easy, foundA, foundB⟩, buys, sells, -⟩ := checkEdge_eq_some checked
  have inGraph := listed edge mem
  rw [buildImplicationGraph, List.mem_toFinset, List.mem_map] at inGraph
  obtain ⟨⟨a, b⟩, implication, rfl⟩ := inGraph
  obtain ⟨inA, inB, higher⟩ := mem_implications.mp implication
  have rowA := row_of_loc distinct foundA inA
  have rowB := row_of_loc distinct foundB inB
  obtain ⟨memA, idA⟩ := mem_of_loc foundA
  obtain ⟨memB, idB⟩ := mem_of_loc foundB
  refine ⟨hard, memA, easy, memB, idA.trans buys.symm, idB.trans sells.symm, ?_⟩
  intro asked implied readA readB smallA smallB
  rw [rowA] at readA
  rw [rowB] at readB
  have lt := amount_lt_of_higher higher readA readB smallA smallB
  refine ⟨?_, fun path implies buyPrice sellPrice => le_profit_of_implies implies buyPrice sellPrice⟩
  obtain ⟨path, eq⟩ := profit_between lt opp.buyPrice opp.sellPrice
  refine ⟨path, ?_⟩
  rw [eq]
  linarith

/-- Two strikes for one date, at prices of 40 and 60 cents. -/
def strikes : List Market :=
  [⟨reaches, [⟨"1".toList, "Yes".toList⟩]⟩, ⟨isAbove, [⟨"2".toList, "Yes".toList⟩]⟩]

def strikeBooks (token : Text) : Option Book :=
  if token = "1".toList then some ⟨[], [some (2 / 5)]⟩
  else if token = "2".toList then some ⟨[some (3 / 5)], []⟩
  else none

theorem reported_loses_strikes :
    ∃ opp, checkArb strikes strikeBooks [("0xa".toList, "0xb".toList)] = .ok [opp] ∧
      ∃ hard ∈ strikes, ∃ easy ∈ strikes,
        hard.row.marketId = opp.buyMarket ∧ easy.row.marketId = opp.sellMarket ∧
        ∀ asked implied, reading hard.row.title = some asked →
          reading easy.row.title = some implied →
          asked.amount < 2 ^ 53 → implied.amount < 2 ^ 53 →
          (∃ path, profit (asked.Resolves (fun _ => 0) path) (implied.Resolves (fun _ => 0) path)
            opp.buyPrice opp.sellPrice < 0) ∧
          ∀ path, (asked.Resolves (fun _ => 0) path → implied.Resolves (fun _ => 0) path) →
            ∀ buyPrice sellPrice, sellPrice - buyPrice ≤
              profit (implied.Resolves (fun _ => 0) path) (asked.Resolves (fun _ => 0) path) buyPrice
                sellPrice := by
  have scanned : checkArb strikes strikeBooks [("0xa".toList, "0xb".toList)] =
      .ok [⟨"0xa".toList, reaches.title, 2 / 5, "0xb".toList, isAbove.title, 3 / 5, 50⟩] := by
    decide +kernel
  refine ⟨_, scanned, reported_loses (fun _ => 0) strikes strikeBooks _ _ _ (by decide) ?_ scanned
    List.mem_cons_self (by norm_num) (by norm_num)⟩
  decide +kernel

end Tickscope.Research.FetchMarkets
