import Mathlib.Order.Bounds.Defs
import Tickscope.Backtest.Fills

/-!
# Fills do not look ahead

What a market order gets depends on the rows up to its arrival, and what a limit order gets on the
rows up to the end of its window (`marketOutcome_upTo`, `limitOutcome_upTo`). The table is in a
fixed order, so a query returns rows with equal keys in that order: `sortRows` is the query.
-/

namespace Tickscope.Backtest

open Tickscope.Lib

/-! ## The rows up to a time -/

theorem sortRows_upTo (rows : List TickRow) (t : Int) :
    upTo (sortRows rows) t = sortRows (upTo rows t) :=
  filter_insertionSort rows _

/-- The rows of one asset that a query selects, sorted. -/
def tape (sel : TickRow → Bool) (ticks : List TickRow) (assetId : Str) : List TickRow :=
  sortRows (ticks.filter fun row => row.assetId = assetId && sel row)

theorem tape_upTo (sel : TickRow → Bool) (ticks : List TickRow) (assetId : Str) (t : Int) :
    upTo (tape sel ticks assetId) t = tape sel (upTo ticks t) assetId := by
  rw [tape, sortRows_upTo, tape, upTo, upTo, List.filter_comm]

theorem sorted_tape (sel : TickRow → Bool) (ticks : List TickRow) (assetId : Str) :
    (tape sel ticks assetId).Pairwise fun a b => a.tsMs ≤ b.tsMs := by
  have own : groupOf (tape sel ticks assetId) assetId = tape sel ticks assetId :=
    List.filter_eq_self.mpr fun row mem =>
      (Bool.and_eq_true_iff.mp
        (List.mem_filter.mp ((fetches_sortRows _).1.mem_iff.mp mem)).2).1
  rw [← own]
  exact pairwise_groupOf (fetches_sortRows _).2 assetId

/-- The history of an asset, whatever the other signals are. -/
theorem historyOf_sortRows (sel : TickRow → Bool) (ticks : List TickRow) {sigs : List Signal}
    {s : Signal} (mem : s ∈ sigs) :
    historyOf sel sortRows ticks sigs s.assetId = tape sel ticks s.assetId := by
  obtain ⟨batch, here, eq⟩ := historyOf_eq sel sortRows ticks mem
  rw [eq, tape, ← groupOf_selectRows sel ticks here, groupOf, groupOf, sortRows, sortRows,
    filter_insertionSort]

/-- The first row is among the rows up to a time, if there are any. -/
theorem hasFee_upTo {rows : List TickRow} (sorted : rows.Pairwise fun a b => a.tsMs ≤ b.tsMs)
    {t : Int} {row : TickRow} (mem : row ∈ upTo rows t) : hasFee (upTo rows t) = hasFee rows := by
  cases rows with
  | nil => rfl
  | cons first rows =>
      have early : first.tsMs ≤ t := by
        have le := of_decide_eq_true (List.mem_filter.mp mem).2
        rcases List.mem_cons.mp (List.mem_filter.mp mem).1 with rfl | later
        · exact le
        · exact ((List.pairwise_cons.mp sorted).1 row later).trans le
      rw [upTo, List.filter_cons_of_pos (p := fun row : TickRow => decide (row.tsMs ≤ t))
        (decide_eq_true early)]
      rfl

theorem FillModel.marketOutcome_upTo (m : FillModel) (slipRate : ℚ) {book : List TickRow}
    (sorted : book.Pairwise fun a b => a.tsMs ≤ b.tsMs) (s : Signal) :
    m.marketOutcome slipRate (upTo book (s.tsMs + m.networkLatencyMs)) s =
      m.marketOutcome slipRate book s := by
  have front := takeWhile_eq_filter sorted
    (p := fun row => decide (row.tsMs ≤ s.tsMs + m.networkLatencyMs))
    fun a b le holds => decide_eq_true (le.trans (of_decide_eq_true holds))
  have all : (upTo book (s.tsMs + m.networkLatencyMs)).takeWhile
      (fun row => decide (row.tsMs ≤ s.tsMs + m.networkLatencyMs)) =
        upTo book (s.tsMs + m.networkLatencyMs) :=
    List.takeWhile_eq_self_iff.mpr fun row mem => (List.mem_filter.mp mem).2
  rw [marketOutcome, marketOutcome, all, front, ← upTo]
  cases last : (upTo book (s.tsMs + m.networkLatencyMs)).getLast? with
  | none => rfl
  | some row => rw [hasFee_upTo sorted (List.mem_of_getLast? last)]

theorem FillModel.limitOutcome_upTo (m : FillModel) {trades : List TickRow}
    (sorted : trades.Pairwise fun a b => a.tsMs ≤ b.tsMs) (s : Signal) :
    m.limitOutcome (upTo trades (s.tsMs + m.limitWindowMs)) s = m.limitOutcome trades s := by
  have same : m.window s (upTo trades (s.tsMs + m.limitWindowMs)) = m.window s trades := by
    rw [window, upTo, List.filter_filter, window]
    refine List.filter_congr fun row _ => ?_
    rw [Bool.eq_iff_iff, Bool.and_eq_true, decide_eq_true_iff, decide_eq_true_iff]
    exact ⟨fun both => both.1, fun inside => ⟨inside, inside.2⟩⟩
  rw [limitOutcome, limitOutcome, same]
  cases found : (m.window s trades).find? fun row => crosses s.side s.limitPrice row.price with
  | none => rfl
  | some row =>
      have mem := List.mem_of_find?_eq_some found
      rw [← same] at mem
      rw [hasFee_upTo sorted (List.mem_filter.mp mem).1]

/-! ## Single signals -/

theorem FillModel.fillMarketBatched_sortRows (m : FillModel) (slipRate : ℚ) (ticks : List TickRow)
    (sigs : List Signal) :
    m.fillMarketBatched sortRows ticks sigs slipRate =
      (grouped sigs).filterMap fun s =>
        m.marketOutcome slipRate (tape TickRow.isBook ticks s.assetId) s := by
  rw [m.fillMarketBatched_eq fetches_sortRows]
  refine List.filterMap_congr fun s mem => ?_
  rw [historyOf_sortRows _ _ ((grouped_perm sigs).mem_iff.mp mem)]

theorem FillModel.fillLimitBatched_sortRows (m : FillModel) (ticks : List TickRow)
    (sigs : List Signal) :
    m.fillLimitBatched sortRows ticks sigs =
      (grouped sigs).filterMap fun s =>
        m.limitOutcome (tape TickRow.isTrade ticks s.assetId) s := by
  rw [m.fillLimitBatched_eq fetches_sortRows]
  refine List.filterMap_congr fun s mem => ?_
  rw [historyOf_sortRows _ _ ((grouped_perm sigs).mem_iff.mp mem)]

theorem filterMap_grouped_singleton (outcome : Signal → Option (Fill ℚ)) (s : Signal) :
    (grouped [s]).filterMap outcome = (outcome s).toList := by
  rw [grouped_singleton, List.filterMap_eq_flatMap_toList, List.flatMap_singleton]

/-- Every signal of a frame gets what it would get alone. -/
def OneByOne (fills : List TickRow → List Signal → List (Fill ℚ)) : Prop :=
  ∀ ticks sigs, fills ticks sigs = (grouped sigs).flatMap fun s => fills ticks [s]

theorem oneByOne_of_filterMap {fills : List TickRow → List Signal → List (Fill ℚ)}
    {outcome : List TickRow → Signal → Option (Fill ℚ)}
    (eq : ∀ ticks sigs, fills ticks sigs = (grouped sigs).filterMap (outcome ticks)) :
    OneByOne fills := by
  intro ticks sigs
  rw [eq, List.filterMap_eq_flatMap_toList]
  refine List.flatMap_congr fun s _ => ?_
  rw [eq, filterMap_grouped_singleton]

/-- What a signal gets alone does not depend on the rows after its horizon. -/
def BlindAfter (horizon : Signal → Int) (fills : List TickRow → List Signal → List (Fill ℚ)) : Prop :=
  ∀ s ticks ticks', upTo ticks (horizon s) = upTo ticks' (horizon s) →
    fills ticks [s] = fills ticks' [s]

theorem FillModel.market_blindAfter (m : FillModel) (slipRate : ℚ) :
    BlindAfter (fun s => s.tsMs + m.networkLatencyMs)
      fun ticks sigs => m.fillMarketBatched sortRows ticks sigs slipRate := by
  intro s ticks ticks' agree
  dsimp only at agree ⊢
  rw [m.fillMarketBatched_sortRows, m.fillMarketBatched_sortRows, filterMap_grouped_singleton,
    filterMap_grouped_singleton, ← m.marketOutcome_upTo slipRate (sorted_tape _ ticks _) s,
    ← m.marketOutcome_upTo slipRate (sorted_tape _ ticks' _) s, tape_upTo, tape_upTo, agree]

theorem FillModel.limit_blindAfter (m : FillModel) :
    BlindAfter (fun s => s.tsMs + m.limitWindowMs)
      fun ticks sigs => m.fillLimitBatched sortRows ticks sigs := by
  intro s ticks ticks' agree
  dsimp only at agree ⊢
  rw [m.fillLimitBatched_sortRows, m.fillLimitBatched_sortRows, filterMap_grouped_singleton,
    filterMap_grouped_singleton, ← m.limitOutcome_upTo (sorted_tape _ ticks _) s,
    ← m.limitOutcome_upTo (sorted_tape _ ticks' _) s, tape_upTo, tape_upTo, agree]

/-! ## The trade that fills a limit order -/

/-- A trade in the window of a limit order that crosses its limit. -/
def FillModel.Crossing (m : FillModel) (ticks : List TickRow) (s : Signal) (row : TickRow) : Prop :=
  row ∈ ticks ∧ row.assetId = s.assetId ∧ row.isTrade ∧ s.tsMs ≤ row.tsMs ∧
    row.tsMs ≤ s.tsMs + m.limitWindowMs ∧ crosses s.side s.limitPrice row.price

theorem FillModel.mem_window_tape (m : FillModel) {ticks : List TickRow} {s : Signal}
    {row : TickRow} :
    row ∈ m.window s (tape TickRow.isTrade ticks s.assetId) ∧
        crosses s.side s.limitPrice row.price ↔ m.Crossing ticks s row := by
  rw [window, List.mem_filter, tape, (fetches_sortRows _).1.mem_iff, List.mem_filter,
    Bool.and_eq_true, decide_eq_true_iff, decide_eq_true_iff, Crossing]
  tauto

/-- The earliest such trade, if there is one, decides. -/
theorem FillModel.fillLimitBatched_earliest (m : FillModel) (ticks : List TickRow) (s : Signal) :
    (m.fillLimitBatched sortRows ticks [s] = [] ∧ ∀ row, ¬m.Crossing ticks s row) ∨
      ∃ fill, m.fillLimitBatched sortRows ticks [s] = [fill] ∧
        IsLeast {t | ∃ row, m.Crossing ticks s row ∧ row.tsMs = t} fill.timestampMs := by
  rw [m.fillLimitBatched_sortRows, filterMap_grouped_singleton, limitOutcome]
  cases found : (m.window s (tape TickRow.isTrade ticks s.assetId)).find?
      fun row => crosses s.side s.limitPrice row.price with
  | none =>
      exact Or.inl ⟨rfl, fun row crossing =>
        List.find?_eq_none.mp found row (m.mem_window_tape.mpr crossing).1
          (m.mem_window_tape.mpr crossing).2⟩
  | some first =>
      obtain ⟨hit, before, after, split, missed⟩ := List.find?_eq_some_iff_append.mp found
      have sorted : (m.window s (tape TickRow.isTrade ticks s.assetId)).Pairwise
          fun a b => a.tsMs ≤ b.tsMs := (sorted_tape _ ticks _).filter _
      have crossing := m.mem_window_tape.mp ⟨List.mem_of_find?_eq_some found, hit⟩
      refine Or.inr ⟨_, rfl, ⟨first, crossing, rfl⟩, ?_⟩
      rintro t ⟨row, other, rfl⟩
      obtain ⟨mem, hit'⟩ := m.mem_window_tape.mpr other
      rw [split] at mem sorted
      rcases List.mem_append.mp mem with early | late
      · have not := missed row early
        rw [hit'] at not
        exact (Bool.false_ne_true not).elim
      · rcases List.mem_cons.mp late with rfl | late
        · exact le_rfl
        · exact (List.pairwise_cons.mp (List.pairwise_append.mp sorted).2.1).1 row late

/-- **No look-ahead in fills**: in any frame a signal gets what it gets alone, a market order sees
nothing after its arrival, and a limit order nothing after its window, of which it takes the
earliest trade that crosses its limit. -/
theorem fills_no_look_ahead (m : FillModel) (slipRate : ℚ) :
    OneByOne (fun ticks sigs => m.fillMarketBatched sortRows ticks sigs slipRate) ∧
      BlindAfter (fun s => s.tsMs + m.networkLatencyMs)
        (fun ticks sigs => m.fillMarketBatched sortRows ticks sigs slipRate) ∧
      OneByOne (fun ticks sigs => m.fillLimitBatched sortRows ticks sigs) ∧
      BlindAfter (fun s => s.tsMs + m.limitWindowMs)
        (fun ticks sigs => m.fillLimitBatched sortRows ticks sigs) ∧
      ∀ ticks s, (m.fillLimitBatched sortRows ticks [s] = [] ∧ ∀ row, ¬m.Crossing ticks s row) ∨
        ∃ fill, m.fillLimitBatched sortRows ticks [s] = [fill] ∧
          IsLeast {t | ∃ row, m.Crossing ticks s row ∧ row.tsMs = t} fill.timestampMs :=
  ⟨oneByOne_of_filterMap fun ticks => m.fillMarketBatched_sortRows slipRate ticks,
    m.market_blindAfter slipRate,
    oneByOne_of_filterMap fun ticks => m.fillLimitBatched_sortRows ticks,
    m.limit_blindAfter, m.fillLimitBatched_earliest⟩

end Tickscope.Backtest
