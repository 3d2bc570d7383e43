import Mathlib.Algebra.Order.Field.Rat
import Mathlib.Data.List.Dedup
import Tickscope.Backtest.Engine
import Tickscope.Lib.Lists
import Tickscope.Lib.StableSort

/-!
# The ticks table

The rows of the `ticks` table that `research/backtest/data_loader.py` creates, the signals of a
strategy, and the queries of `research/backtest/fills.py`. A query sorts by asset and time only,
so what comes back is some list with these rows in this order (`Fetches`); `sortRows` keeps rows
with equal keys in the order of the table.
-/

namespace Tickscope.Backtest

open Tickscope.Lib

/-- `EVENT_TYPE_MAP` of the decoder. -/
inductive EventType where
  | priceChange
  | lastTrade
deriving DecidableEq

/-- A row of `ticks`; the columns from the metadata are null without a metadata row. -/
structure TickRow where
  tsMs : Int
  price : ℚ
  bestBid : ℚ
  bestAsk : ℚ
  eventType : EventType
  assetId : Str
  conditionId : Option Str
  outcome : Option Str
  question : Option Str
  feeBps : Int
deriving DecidableEq

inductive OrderType where
  | market
  | limit
deriving DecidableEq

structure Signal where
  tsMs : Int
  assetId : Str
  side : Side
  size : ℚ
  orderType : OrderType
  limitPrice : Option ℚ
deriving DecidableEq

/-! ## Queries -/

/-- `best_bid > 0 AND best_ask > best_bid`. -/
def TickRow.quoted (row : TickRow) : Bool := 0 < row.bestBid ∧ row.bestBid < row.bestAsk

/-- `event_type = 'PRICE_CHANGE' AND best_bid > 0 AND best_ask > best_bid`. -/
def TickRow.isBook (row : TickRow) : Bool := row.eventType = .priceChange && row.quoted

/-- `event_type = 'LAST_TRADE'`. -/
def TickRow.isTrade (row : TickRow) : Bool := row.eventType = .lastTrade

/-- The rows of a batch of assets that a query selects, before they are sorted. -/
def selectRows (sel : TickRow → Bool) (ticks : List TickRow) (batch : List Str) : List TickRow :=
  ticks.filter fun row => row.assetId ∈ batch && sel row

/-- `ORDER BY t.asset_id, t.ts_ms`. -/
def ByAssetTs (a b : TickRow) : Prop :=
  if a.assetId = b.assetId then a.tsMs ≤ b.tsMs else a.assetId ≤ b.assetId

instance : DecidableRel ByAssetTs := fun a b =>
  inferInstanceAs (Decidable (if a.assetId = b.assetId then _ else _))

instance : Std.Total ByAssetTs where
  total a b := by
    unfold ByAssetTs
    by_cases same : a.assetId = b.assetId
    · rw [if_pos same, if_pos same.symm]
      exact le_total _ _
    · rw [if_neg same, if_neg (Ne.symm same)]
      exact List.le_total _ _

instance : IsTrans TickRow ByAssetTs where
  trans a b c := by
    unfold ByAssetTs
    intro ab bc
    by_cases same : a.assetId = b.assetId
    · rw [if_pos same] at ab
      rw [same]
      split at bc
      · rename_i same'
        rw [if_pos same']
        exact ab.trans bc
      · rename_i other
        rw [if_neg other]
        exact bc
    · rw [if_neg same] at ab
      split at bc
      · rename_i same'
        rw [← same', if_neg same]
        exact ab
      · by_cases back : a.assetId = c.assetId
        · rw [back] at ab same
          exact (same (List.le_antisymm ab bc)).elim
        · rw [if_neg back]
          exact List.le_trans ab bc

/-- What a query may make of the rows it has selected. -/
def Fetches (fetch : List TickRow → List TickRow) : Prop :=
  ∀ rows, (fetch rows).Perm rows ∧ (fetch rows).Pairwise ByAssetTs

/-- The order of the table among rows with equal keys. -/
def sortRows (rows : List TickRow) : List TickRow := rows.insertionSort ByAssetTs

theorem fetches_sortRows : Fetches sortRows := fun rows =>
  ⟨List.perm_insertionSort ByAssetTs rows, List.pairwise_insertionSort ByAssetTs rows⟩

/-- `get_group(asset_id)`. -/
def groupOf (rows : List TickRow) (asset : Str) : List TickRow :=
  rows.filter fun row => row.assetId = asset

theorem groupOf_selectRows (sel : TickRow → Bool) (ticks : List TickRow) {batch : List Str}
    {assetId : Str} (here : assetId ∈ batch) :
    groupOf (selectRows sel ticks batch) assetId =
      ticks.filter fun row => row.assetId = assetId && sel row := by
  rw [groupOf, selectRows, List.filter_filter]
  refine List.filter_congr fun row _ => ?_
  by_cases own : row.assetId = assetId
  · rw [own, decide_eq_true here, Bool.true_and]
  · rw [decide_eq_false own, Bool.false_and, Bool.false_and]

theorem pairwise_groupOf {rows : List TickRow} (sorted : rows.Pairwise ByAssetTs) (asset : Str) :
    (groupOf rows asset).Pairwise fun a b => a.tsMs ≤ b.tsMs := by
  refine (sorted.filter _).imp_of_mem fun {a b} memA memB ordered => ?_
  have same : a.assetId = b.assetId :=
    (of_decide_eq_true (List.mem_filter.mp memA).2).trans
      (of_decide_eq_true (List.mem_filter.mp memB).2).symm
  unfold ByAssetTs at ordered
  rw [if_pos same] at ordered
  exact ordered

/-- The rows up to a time. -/
def upTo (rows : List TickRow) (t : Int) : List TickRow := rows.filter fun row => row.tsMs ≤ t

/-! ## Signals by asset -/

/-- `sig_groups.groups.keys()`. -/
def assetsOf (sigs : List Signal) : List Str := (sigs.map (·.assetId)).dedup.insertionSort (· ≤ ·)

theorem nodup_assetsOf (sigs : List Signal) : (assetsOf sigs).Nodup :=
  (List.perm_insertionSort _ _).nodup_iff.mpr (List.nodup_dedup _)

theorem mem_assetsOf {sigs : List Signal} {s : Signal} (mem : s ∈ sigs) :
    s.assetId ∈ assetsOf sigs :=
  (List.perm_insertionSort _ _).mem_iff.mpr (List.mem_dedup.mpr (List.mem_map_of_mem mem))

/-- The groups of the signals, one after the other. -/
def grouped (sigs : List Signal) : List Signal :=
  (assetsOf sigs).flatMap fun assetId => sigs.filter fun s => s.assetId = assetId

theorem grouped_perm (sigs : List Signal) : (grouped sigs).Perm sigs :=
  flatMap_filter_perm (fun s : Signal => s.assetId) (nodup_assetsOf sigs)
    fun _ mem => mem_assetsOf mem

theorem grouped_singleton (s : Signal) : grouped [s] = [s] :=
  List.perm_singleton.mp (grouped_perm [s])

end Tickscope.Backtest
