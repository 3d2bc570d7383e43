import Tickscope.Backtest.Ticks
import Tickscope.Lib.Columns

/-!
# Fill simulation

`research/backtest/fills.py`, with exact numbers for the floats (zero to a negative power, infinite
there, is 0 here). The code works on columns, asset by asset in batches. `fillMarketBatched_eq` and
`fillLimitBatched_eq` turn both order types into one outcome per signal: `marketOutcome` prices the
last book row at the arrival time, `limitOutcome` waits for the first trade that crosses the limit.
-/

namespace Tickscope.Backtest

open Tickscope.Lib

/-- `_ASSET_BATCH`. -/
def assetBatch : Nat := 100

structure FillModel where
  feeRate : ℚ := 1 / 4
  exponent : Int := 2
  makerRebatePct : ℚ := 1 / 5
  networkLatencyMs : Int := 50
  slippageBps : ℚ := 5
  limitWindowMs : Int := 60000
  maxCost : ℚ := 1 / 10

/-! ## Fees -/

/-- `np.round(x, 4)`: ties go to the even digit. -/
def round4 (x : ℚ) : ℚ :=
  let digits := (x * 10000).floor
  let rest := x * 10000 - digits
  (if rest < 1 / 2 ∨ rest = 1 / 2 ∧ digits % 2 = 0 then digits else digits + 1 : Int) / 10000

/-- The fee per share. -/
def feeBase (feeRate : ℚ) (exponent : Int) (price : ℚ) : ℚ :=
  feeRate * (price * (1 - price)) ^ exponent

/-- One entry of `_dynamic_fee_vec`. -/
def dynamicFee (feeRate : ℚ) (exponent : Int) (price size : ℚ) (isBuy : Bool) : ℚ :=
  let base := feeBase feeRate exponent price
  let buyFee := size * base * price
  let sellFee := size * base
  round4 (if isBuy then buyFee else sellFee)

def dynamicFeeVec (price size : List ℚ) (isBuy : List Bool) (feeRate : ℚ) (exponent : Int) :
    List ℚ :=
  List.zipWith3 (dynamicFee feeRate exponent) price size isBuy

/-- The frame of the fills of one asset. -/
def fillsFrame (assetId : Str) :
    List Int → List Side → List ℚ → List ℚ → List ℚ → List ℚ → List (Fill ℚ)
  | ts :: tss, side :: sides, size :: sizes, price :: prices, fee :: fees, slip :: slips =>
      ⟨ts, assetId, side, size, price, fee, slip⟩ ::
        fillsFrame assetId tss sides sizes prices fees slips
  | _, _, _, _, _, _ => []

theorem fillsFrame_columns {α : Type*} (assetId : Str) (rows : List α) (ts : α → Int)
    (side : α → Side) (size price fee slip : α → ℚ) :
    fillsFrame assetId (rows.map ts) (rows.map side) (rows.map size) (rows.map price)
        (rows.map fee) (rows.map slip) =
      rows.map fun row =>
        ⟨ts row, assetId, side row, size row, price row, fee row, slip row⟩ := by
  induction rows with
  | nil => rfl
  | cons row rows ih => exact congrArg _ ih

/-- `has_fee`: the flag of the first row. -/
def hasFee (rows : List TickRow) : Bool := rows.head?.any fun row => 0 < row.feeBps

/-! ## Market orders -/

/-- `_searchsorted_market`. -/
def FillModel.searchsortedMarket (m : FillModel) (bookTs : List Int) (bestBid bestAsk : List ℚ)
    (sigTs : List Int) (sigSides : List Side) (sigSizes : List ℚ) (slipRate : ℚ) (assetId : Str)
    (hasFee : Bool) : Option (List (Fill ℚ)) :=
  let arrivalTs := sigTs.map (· + m.networkLatencyMs)
  let idx := arrivalTs.map fun ts => (searchsortedRight bookTs ts : Int) - 1
  let valid := idx.map fun i => decide (0 ≤ i)
  if valid.any id = false then none
  else
    let idx := mask valid idx
    let sigTs := mask valid sigTs
    let sigSides := mask valid sigSides
    let sigSizes := mask valid sigSizes
    let bb := gather bestBid idx
    let ba := gather bestAsk idx
    let spread := List.zipWith (fun a b => a - b) ba bb
    let roundTripFee :=
      if hasFee then
        let mid := List.zipWith (fun b a => (b + a) / 2) bb ba
        mid.map fun mid => 2 * feeBase m.feeRate m.exponent mid
      else spread.map fun _ => 0
    let costOk :=
      List.zipWith (fun spread fee => decide (spread + fee ≤ m.maxCost)) spread roundTripFee
    if costOk.any id = false then none
    else
      let sigTs := mask costOk sigTs
      let sigSides := mask costOk sigSides
      let sigSizes := mask costOk sigSizes
      let bb := mask costOk bb
      let ba := mask costOk ba
      let isBuy := sigSides.map fun side => decide (side = .bid)
      let buyPrice := ba.map fun ask => min (ask * (1 + slipRate)) 1
      let sellPrice := bb.map fun bid => max (bid * (1 - slipRate)) 0
      let price := List.zipWith3 (fun buy b s => if buy then b else s) isBuy buyPrice sellPrice
      let fee :=
        if hasFee then dynamicFeeVec price sigSizes isBuy m.feeRate m.exponent
        else price.map fun _ => 0
      let slippage :=
        List.zipWith3 (fun buy ask bid => if buy then ask * slipRate else bid * slipRate)
          isBuy ba bb
      some (fillsFrame assetId sigTs sigSides sigSizes price fee slippage)

/-- The cost filter: the spread and the fees of a round trip. -/
def FillModel.costOk (m : FillModel) (hasFee : Bool) (row : TickRow) : Bool :=
  let roundTripFee :=
    if hasFee then 2 * feeBase m.feeRate m.exponent ((row.bestBid + row.bestAsk) / 2) else 0
  row.bestAsk - row.bestBid + roundTripFee ≤ m.maxCost

/-- A market order that is filled from a book row. -/
def FillModel.marketFill (m : FillModel) (slipRate : ℚ) (hasFee : Bool) (s : Signal)
    (row : TickRow) : Fill ℚ :=
  let isBuy := decide (s.side = .bid)
  let price :=
    if isBuy then min (row.bestAsk * (1 + slipRate)) 1 else max (row.bestBid * (1 - slipRate)) 0
  let fee := if hasFee then dynamicFee m.feeRate m.exponent price s.size isBuy else 0
  let slippage := if isBuy then row.bestAsk * slipRate else row.bestBid * slipRate
  ⟨s.tsMs, s.assetId, s.side, s.size, price, fee, slippage⟩

/-- The order of one signal against one book row. -/
def FillModel.quoteFill (m : FillModel) (slipRate : ℚ) (hasFee : Bool) (s : Signal)
    (row : TickRow) : Option (Fill ℚ) :=
  if m.costOk hasFee row then some (m.marketFill slipRate hasFee s row) else none

/-- The order of one signal against the sorted book of its asset. -/
def FillModel.marketOutcome (m : FillModel) (slipRate : ℚ) (book : List TickRow) (s : Signal) :
    Option (Fill ℚ) :=
  (book.takeWhile fun row => row.tsMs ≤ s.tsMs + m.networkLatencyMs).getLast?.bind
    (m.quoteFill slipRate (hasFee book) s)

theorem FillModel.searchsortedMarket_columns (m : FillModel) (slipRate : ℚ) {assetId : Str}
    (book : List TickRow) {sigs : List Signal} (own : ∀ s ∈ sigs, s.assetId = assetId) :
    (m.searchsortedMarket (book.map (·.tsMs)) (book.map (·.bestBid)) (book.map (·.bestAsk))
        (sigs.map (·.tsMs)) (sigs.map (·.side)) (sigs.map (·.size)) slipRate assetId
        (hasFee book)).getD [] =
      sigs.filterMap (m.marketOutcome slipRate book) := by
  unfold searchsortedMarket marketOutcome
  cases hasFee book
  all_goals
    simp only [List.map_map, Function.comp_def, mask_map, gather_map, zipWith_columns,
      zipWith3_columns, fillsFrame_columns, any_map_id, dynamicFeeVec, Bool.false_eq_true,
      if_true, if_false]
    rw [getD_unless_empty]
    refine List.filterMap_congr fun s mem => ?_
    rcases searchsortedRight_cases book (·.tsMs) (s.tsMs + m.networkLatencyMs) with
      ⟨missing, none⟩ | ⟨row, found, last, here⟩
    · rw [none, decide_eq_false missing]
      rfl
    · simp only [getD_map here, last, decide_eq_true found, own s mem, quoteFill, costOk,
        marketFill, Option.bind_some, Bool.true_and, decide_eq_true_iff, if_true,
        Bool.false_eq_true, if_false]

/-! ## Limit orders -/

/-- A bid is filled by a trade at or below its limit, an ask by one at or above. -/
def crosses (side : Side) (limit : Option ℚ) (price : ℚ) : Bool :=
  match limit, side with
  | none, _ => false
  | some limit, .bid => price ≤ limit
  | some limit, .ask => limit ≤ price

/-- The loop over the signals: `fill_ts` where `filled`. -/
def fillTimes (tradeTs : List Int) (tradePrices : List ℚ) :
    List Nat → List Nat → List Side → List (Option ℚ) → List (Option Int)
  | s :: starts, e :: ends, side :: sides, limit :: limits =>
      let fillTs :=
        if e ≤ s then none
        else
          let w := (tradePrices.drop s).take (e - s)
          (w.findIdx? (crosses side limit)).bind fun first => tradeTs[s + first]?
      fillTs :: fillTimes tradeTs tradePrices starts ends sides limits
  | _, _, _, _ => []

/-- `_window_limit`. -/
def FillModel.windowLimit (m : FillModel) (tradeTs : List Int) (tradePrices : List ℚ)
    (sigTs : List Int) (sigSides : List Side) (sigSizes : List ℚ) (sigLimits : List (Option ℚ))
    (windowMs : Int) (assetId : Str) (hasFee : Bool) : Option (List (Fill ℚ)) :=
  let starts := sigTs.map fun ts => searchsortedLeft tradeTs ts
  let ends := sigTs.map fun ts => searchsortedRight tradeTs (ts + windowMs)
  let fillTs := fillTimes tradeTs tradePrices starts ends sigSides sigLimits
  let filled := fillTs.map Option.isSome
  if filled.any id = false then none
  else
    let fillPrices := (mask filled sigLimits).map fun limit => limit.getD 0
    let fillSizes := mask filled sigSizes
    let fillSides := mask filled sigSides
    let isBuy := fillSides.map fun side => decide (side = .bid)
    let fee :=
      if hasFee then
        (dynamicFeeVec fillPrices fillSizes isBuy m.feeRate m.exponent).map fun takerFee =>
          -m.makerRebatePct * takerFee
      else fillPrices.map fun _ => 0
    some (fillsFrame assetId ((mask filled fillTs).map fun ts => ts.getD 0) fillSides fillSizes
      fillPrices fee (fillPrices.map fun _ => 0))

/-- A limit order that is filled. -/
def FillModel.limitFill (m : FillModel) (hasFee : Bool) (s : Signal) (fillTs : Int) : Fill ℚ :=
  let price := s.limitPrice.getD 0
  let takerFee := dynamicFee m.feeRate m.exponent price s.size (decide (s.side = .bid))
  ⟨fillTs, s.assetId, s.side, s.size, price, if hasFee then -m.makerRebatePct * takerFee else 0, 0⟩

/-- The trades while a limit order waits. -/
def FillModel.window (m : FillModel) (s : Signal) (trades : List TickRow) : List TickRow :=
  trades.filter fun row => s.tsMs ≤ row.tsMs ∧ row.tsMs ≤ s.tsMs + m.limitWindowMs

/-- The order of one signal against the sorted trades of its asset. -/
def FillModel.limitOutcome (m : FillModel) (trades : List TickRow) (s : Signal) : Option (Fill ℚ) :=
  ((m.window s trades).find? fun row => crosses s.side s.limitPrice row.price).map fun row =>
    m.limitFill (hasFee trades) s row.tsMs

theorem fillTimes_columns (trades : List TickRow) (sigs : List Signal) (start stop : Signal → Nat) :
    fillTimes (trades.map (·.tsMs)) (trades.map (·.price)) (sigs.map start) (sigs.map stop)
        (sigs.map (·.side)) (sigs.map (·.limitPrice)) =
      sigs.map fun s => (((trades.drop (start s)).take (stop s - start s)).find? fun row =>
        crosses s.side s.limitPrice row.price).map (·.tsMs) := by
  induction sigs with
  | nil => rfl
  | cons s sigs ih =>
      rw [List.map_cons, List.map_cons, List.map_cons, List.map_cons, List.map_cons, fillTimes, ih]
      refine congrArg (· :: _) ?_
      split
      · rename_i nothing
        rw [Nat.sub_eq_zero_of_le nothing]
        rfl
      · exact getElem?_findIdx?_slice trades _ _ _ _ _

theorem FillModel.windowLimit_columns (m : FillModel) {assetId : Str} {trades : List TickRow}
    (sorted : trades.Pairwise fun a b => a.tsMs ≤ b.tsMs) {sigs : List Signal}
    (own : ∀ s ∈ sigs, s.assetId = assetId) :
    (m.windowLimit (trades.map (·.tsMs)) (trades.map (·.price)) (sigs.map (·.tsMs))
        (sigs.map (·.side)) (sigs.map (·.size)) (sigs.map (·.limitPrice)) m.limitWindowMs assetId
        (hasFee trades)).getD [] =
      sigs.filterMap (m.limitOutcome trades) := by
  unfold windowLimit limitOutcome
  cases hasFee trades
  all_goals
    simp only [List.map_map, Function.comp_def, fillTimes_columns, slice_searchsorted sorted,
      mask_map, zipWith3_columns, fillsFrame_columns, any_map_id, dynamicFeeVec, Bool.false_eq_true,
      if_true, if_false]
    rw [getD_unless_none]
    refine List.filterMap_congr fun s mem => ?_
    rw [← own s mem]
    cases found : (m.window s trades).find? fun row => crosses s.side s.limitPrice row.price with
    | none =>
        rw [window] at found
        rw [found]
        rfl
    | some row =>
        rw [window] at found
        rw [found]
        rfl

/-! ## Batches -/

/-- What `_fill_market_batched` and `_fill_limit_batched` share: a query for each batch of assets,
and the fills of one asset from its rows and its signals. -/
def fillBatched (sel : TickRow → Bool)
    (fill : List TickRow → List Signal → Str → Option (List (Fill ℚ)))
    (fetch : List TickRow → List TickRow) (ticks : List TickRow) (sigs : List Signal) : List (Fill ℚ) :=
  (batches assetBatch (assetsOf sigs)).flatMap fun batch =>
    let rows := fetch (selectRows sel ticks batch)
    if rows.isEmpty then []
    else
      batch.flatMap fun assetId =>
        let group := groupOf rows assetId
        if group.isEmpty then []
        else
          let assetSigs := sigs.filter fun s => s.assetId = assetId
          (fill group assetSigs assetId).getD []

def FillModel.fillMarketBatched (m : FillModel) (fetch : List TickRow → List TickRow)
    (ticks : List TickRow) (sigs : List Signal) (slipRate : ℚ) : List (Fill ℚ) :=
  fillBatched TickRow.isBook
    (fun ab assetSigs assetId =>
      m.searchsortedMarket (ab.map (·.tsMs)) (ab.map (·.bestBid)) (ab.map (·.bestAsk))
        (assetSigs.map (·.tsMs)) (assetSigs.map (·.side)) (assetSigs.map (·.size)) slipRate assetId
        (hasFee ab))
    fetch ticks sigs

def FillModel.fillLimitBatched (m : FillModel) (fetch : List TickRow → List TickRow)
    (ticks : List TickRow) (sigs : List Signal) : List (Fill ℚ) :=
  fillBatched TickRow.isTrade
    (fun at_ assetSigs assetId =>
      m.windowLimit (at_.map (·.tsMs)) (at_.map (·.price)) (assetSigs.map (·.tsMs))
        (assetSigs.map (·.side)) (assetSigs.map (·.size)) (assetSigs.map (·.limitPrice))
        m.limitWindowMs assetId (hasFee at_))
    fetch ticks sigs

/-- The rows that the signals of one asset are filled from. -/
def historyOf (sel : TickRow → Bool) (fetch : List TickRow → List TickRow) (ticks : List TickRow)
    (sigs : List Signal) (assetId : Str) : List TickRow :=
  let batch := (batches assetBatch (assetsOf sigs)).find? fun batch => assetId ∈ batch
  groupOf (fetch (selectRows sel ticks (batch.getD []))) assetId

theorem historyOf_eq (sel : TickRow → Bool) (fetch : List TickRow → List TickRow)
    (ticks : List TickRow) {sigs : List Signal} {s : Signal} (mem : s ∈ sigs) :
    ∃ batch, s.assetId ∈ batch ∧
      historyOf sel fetch ticks sigs s.assetId =
        groupOf (fetch (selectRows sel ticks batch)) s.assetId := by
  have flat := flatten_batches (n := assetBatch) (by decide) (assetsOf sigs)
  have asset := mem_assetsOf mem
  have nodup := nodup_assetsOf sigs
  rw [← flat] at asset nodup
  obtain ⟨batch, memBatch, here⟩ := List.mem_flatten.mp asset
  exact ⟨batch, here, by rw [historyOf, find?_mem_of_nodup nodup memBatch here]; rfl⟩

theorem sorted_historyOf {fetch : List TickRow → List TickRow} (fetches : Fetches fetch)
    (sel : TickRow → Bool) (ticks : List TickRow) (sigs : List Signal) (assetId : Str) :
    (historyOf sel fetch ticks sigs assetId).Pairwise fun a b => a.tsMs ≤ b.tsMs :=
  pairwise_groupOf (fetches _).2 assetId

theorem historyOf_perm {fetch : List TickRow → List TickRow} (fetches : Fetches fetch)
    (sel : TickRow → Bool) (ticks : List TickRow) {sigs : List Signal} {s : Signal}
    (mem : s ∈ sigs) :
    (historyOf sel fetch ticks sigs s.assetId).Perm
      (ticks.filter fun row => row.assetId = s.assetId && sel row) := by
  obtain ⟨batch, here, eq⟩ := historyOf_eq sel fetch ticks mem
  rw [eq, ← groupOf_selectRows sel ticks here]
  exact (fetches _).1.filter _

/-- If the fills of an asset are one outcome for each signal, so are all fills. -/
theorem fillBatched_eq {sel : TickRow → Bool}
    {fill : List TickRow → List Signal → Str → Option (List (Fill ℚ))}
    {fetch : List TickRow → List TickRow} (fetches : Fetches fetch)
    {outcome : List TickRow → Signal → Option (Fill ℚ)} (empty : ∀ s, outcome [] s = none)
    (columns : ∀ rows : List TickRow, rows.Pairwise (fun a b => a.tsMs ≤ b.tsMs) →
      ∀ sigs assetId, (∀ s ∈ sigs, s.assetId = assetId) →
        (fill rows sigs assetId).getD [] = sigs.filterMap (outcome rows))
    (ticks : List TickRow) (sigs : List Signal) :
    fillBatched sel fill fetch ticks sigs =
      (grouped sigs).filterMap fun s => outcome (historyOf sel fetch ticks sigs s.assetId) s := by
  have flat := flatten_batches (n := assetBatch) (by decide) (assetsOf sigs)
  have nodup := nodup_assetsOf sigs
  rw [← flat] at nodup
  rw [grouped, List.filterMap_flatMap, ← flat, ← List.flatMap_id, List.flatMap_assoc, fillBatched]
  refine List.flatMap_congr fun batch memBatch => ?_
  have history : ∀ assetId ∈ batch, historyOf sel fetch ticks sigs assetId =
      groupOf (fetch (selectRows sel ticks batch)) assetId := by
    intro assetId mem
    rw [historyOf, find?_mem_of_nodup nodup memBatch mem]
    rfl
  have asset : ∀ assetId ∈ batch,
      (sigs.filter fun s => s.assetId = assetId).filterMap
          (fun s => outcome (historyOf sel fetch ticks sigs s.assetId) s) =
        (sigs.filter fun s => s.assetId = assetId).filterMap
          (outcome (groupOf (fetch (selectRows sel ticks batch)) assetId)) := by
    intro assetId mem
    refine List.filterMap_congr fun s memSigs => ?_
    rw [of_decide_eq_true (List.mem_filter.mp memSigs).2, history assetId mem]
  rw [id_eq, List.flatMap_congr asset]
  have sorted := (fetches (selectRows sel ticks batch)).2
  generalize fetch (selectRows sel ticks batch) = rows at sorted
  have group : ∀ assetId,
      (if (groupOf rows assetId).isEmpty then []
        else
          (fill (groupOf rows assetId) (sigs.filter fun s => s.assetId = assetId) assetId).getD []) =
      (sigs.filter fun s => s.assetId = assetId).filterMap (outcome (groupOf rows assetId)) := by
    intro assetId
    split
    · rename_i nothing
      rw [List.isEmpty_iff.mp nothing]
      exact (List.filterMap_eq_nil_iff.mpr fun s _ => empty s).symm
    · exact columns _ (pairwise_groupOf sorted assetId) _ assetId fun s mem =>
        of_decide_eq_true (List.mem_filter.mp mem).2
  rw [← List.flatMap_congr fun assetId _ => group assetId]
  dsimp only
  split
  · rename_i nothing
    rw [List.isEmpty_iff.mp nothing]
    exact (List.flatMap_eq_nil_iff.mpr fun _ _ => rfl).symm
  · rfl

theorem FillModel.fillMarketBatched_eq (m : FillModel) {fetch : List TickRow → List TickRow}
    (fetches : Fetches fetch) (ticks : List TickRow) (sigs : List Signal) (slipRate : ℚ) :
    m.fillMarketBatched fetch ticks sigs slipRate =
      (grouped sigs).filterMap fun s =>
        m.marketOutcome slipRate (historyOf TickRow.isBook fetch ticks sigs s.assetId) s :=
  fillBatched_eq fetches (fun _ => rfl)
    (fun rows _ _ _ own => m.searchsortedMarket_columns slipRate rows own) ticks sigs

theorem FillModel.fillLimitBatched_eq (m : FillModel) {fetch : List TickRow → List TickRow}
    (fetches : Fetches fetch) (ticks : List TickRow) (sigs : List Signal) :
    m.fillLimitBatched fetch ticks sigs =
      (grouped sigs).filterMap fun s =>
        m.limitOutcome (historyOf TickRow.isTrade fetch ticks sigs s.assetId) s :=
  fillBatched_eq fetches (fun _ => rfl)
    (fun _ sorted _ _ own => m.windowLimit_columns sorted own) ticks sigs

/-! ## `simulate` -/

/-- `sort_values("ts_ms")`, which may put equal times in any order. -/
def SortsByTs (sort : List (Fill ℚ) → List (Fill ℚ)) : Prop :=
  ∀ fills, (sort fills).Perm fills ∧
    (sort fills).Pairwise fun a b => a.timestampMs ≤ b.timestampMs

def marketSignals (signals : List Signal) : List Signal :=
  signals.filter fun s => s.orderType = .market

/-- The limit orders that have a limit. -/
def limitSignals (signals : List Signal) : List Signal :=
  signals.filter fun s => s.orderType = .limit && s.limitPrice.isSome

def FillModel.simulate (m : FillModel) (fetch : List TickRow → List TickRow)
    (sort : List (Fill ℚ) → List (Fill ℚ)) (signals : List Signal) (ticks : List TickRow) : List (Fill ℚ) :=
  if signals.isEmpty then []
  else
    let slipRate := m.slippageBps / 10000
    let hasMarket := signals.any fun s => s.orderType = .market
    let hasLimit := signals.any fun s => s.orderType = .limit
    let mf :=
      if hasMarket then m.fillMarketBatched fetch ticks (marketSignals signals) slipRate else []
    let lf := if hasLimit then m.fillLimitBatched fetch ticks (limitSignals signals) else []
    let parts := [mf, lf].filter fun part => !part.isEmpty
    if parts.isEmpty then [] else sort parts.flatten

/-- All fills, before they are sorted. -/
def FillModel.allFills (m : FillModel) (fetch : List TickRow → List TickRow)
    (signals : List Signal) (ticks : List TickRow) : List (Fill ℚ) :=
  m.fillMarketBatched fetch ticks (marketSignals signals) (m.slippageBps / 10000) ++
    m.fillLimitBatched fetch ticks (limitSignals signals)

theorem FillModel.simulate_eq (m : FillModel) (fetch : List TickRow → List TickRow)
    (sort : List (Fill ℚ) → List (Fill ℚ)) (signals : List Signal) (ticks : List TickRow) :
    m.simulate fetch sort signals ticks =
      if m.allFills fetch signals ticks = [] then []
      else sort (m.allFills fetch signals ticks) := by
  have market : (if signals.any fun s => s.orderType = .market then
      m.fillMarketBatched fetch ticks (marketSignals signals) (m.slippageBps / 10000) else []) =
        m.fillMarketBatched fetch ticks (marketSignals signals) (m.slippageBps / 10000) := by
    split
    · rfl
    · rename_i none
      rw [marketSignals, List.filter_eq_nil_iff.mpr fun s mem holds =>
        none (List.any_eq_true.mpr ⟨s, mem, holds⟩)]
      rfl
  have limit : (if signals.any fun s => s.orderType = .limit then
      m.fillLimitBatched fetch ticks (limitSignals signals) else []) =
        m.fillLimitBatched fetch ticks (limitSignals signals) := by
    split
    · rfl
    · rename_i none
      rw [limitSignals, List.filter_eq_nil_iff.mpr fun s mem holds =>
        none (List.any_eq_true.mpr ⟨s, mem, (Bool.and_eq_true_iff.mp holds).1⟩)]
      rfl
  rw [simulate]
  dsimp only
  rw [market, limit, List.flatten_filter_not_isEmpty, List.flatten_cons, List.flatten_singleton,
    ← allFills]
  split
  · rename_i noSignals
    rw [List.isEmpty_iff.mp noSignals]
    rfl
  · refine if_congr ?_ rfl rfl
    rw [List.isEmpty_iff, List.filter_eq_nil_iff, allFills, List.append_eq_nil_iff]
    simp

end Tickscope.Backtest
