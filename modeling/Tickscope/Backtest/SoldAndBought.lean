import Tickscope.Backtest.CapitalGate
import Tickscope.Backtest.ConvergenceNo
import Tickscope.Backtest.Fills
import Tickscope.Lib.Ties

/-!
# What fills sell and buy

`simulate` fills every signal on its own: an entry can be rejected, or wait for its limit, while
its exit is filled. What the fills up to some point have sold beyond what they have bought is at
most the size of the entries up to then that have not been filled (`sold_le_bought_add_missed`).
The frames of ConvergenceNo are among those this is about (`ConvergenceNo.longOnlyFrame`).
-/

namespace Tickscope.Backtest

open Tickscope.Lib

/-! ## One outcome per signal -/

/-- What becomes of one signal of a frame. -/
def FillModel.outcome (m : FillModel) (fetch : List TickRow → List TickRow) (ticks : List TickRow)
    (signals : List Signal) (s : Signal) : Option (Fill ℚ) :=
  match s.orderType with
  | .market =>
      m.marketOutcome (m.slippageBps / 10000)
        (historyOf TickRow.isBook fetch ticks (marketSignals signals) s.assetId) s
  | .limit =>
      m.limitOutcome (historyOf TickRow.isTrade fetch ticks (limitSignals signals) s.assetId) s

/-- A fill of a signal is for its asset, side and size, and not before it. -/
theorem FillModel.outcome_some {m : FillModel} {fetch : List TickRow → List TickRow}
    {ticks : List TickRow} {signals : List Signal} {s : Signal} {fill : Fill ℚ}
    (filled : m.outcome fetch ticks signals s = some fill) :
    fill.assetId = s.assetId ∧ fill.side = s.side ∧ fill.size = s.size ∧
      s.tsMs ≤ fill.timestampMs := by
  unfold outcome at filled
  split at filled
  · obtain ⟨row, -, quoted⟩ := Option.bind_eq_some_iff.mp filled
    rw [quoteFill] at quoted
    split at quoted
    · rw [← Option.some.inj quoted]
      exact ⟨rfl, rfl, rfl, le_rfl⟩
    · cases quoted
  · obtain ⟨row, found, rfl⟩ := Option.map_eq_some_iff.mp filled
    have inside := of_decide_eq_true (List.mem_filter.mp (List.mem_of_find?_eq_some found)).2
    exact ⟨rfl, rfl, rfl, inside.1⟩

theorem FillModel.limitOutcome_none (m : FillModel) (trades : List TickRow) {s : Signal}
    (noLimit : s.limitPrice = none) : m.limitOutcome trades s = none := by
  have never : ∀ row ∈ m.window s trades, ¬crosses s.side s.limitPrice row.price = true := by
    intro row _
    rw [noLimit]
    exact Bool.false_ne_true
  rw [limitOutcome, List.find?_eq_none.mpr never]
  rfl

/-- All fills are the outcomes of the signals, in some order. -/
theorem FillModel.allFills_perm (m : FillModel) {fetch : List TickRow → List TickRow}
    (fetches : Fetches fetch) (signals : List Signal) (ticks : List TickRow) :
    (m.allFills fetch signals ticks).Perm (signals.filterMap (m.outcome fetch ticks signals)) := by
  have market : (m.fillMarketBatched fetch ticks (marketSignals signals)
      (m.slippageBps / 10000)).Perm
        ((marketSignals signals).filterMap (m.outcome fetch ticks signals)) := by
    rw [m.fillMarketBatched_eq fetches]
    refine ((grouped_perm _).filterMap _).trans (.of_eq (List.filterMap_congr fun s mem => ?_))
    rw [outcome, of_decide_eq_true (List.mem_filter.mp mem).2]
  have limit : (m.fillLimitBatched fetch ticks (limitSignals signals)).Perm
      ((limitSignals signals).filterMap (m.outcome fetch ticks signals)) := by
    rw [m.fillLimitBatched_eq fetches]
    refine ((grouped_perm _).filterMap _).trans (.of_eq (List.filterMap_congr fun s mem => ?_))
    rw [outcome, of_decide_eq_true (Bool.and_eq_true_iff.mp (List.mem_filter.mp mem).2).1]
  -- the signals that are neither have no limit, and no outcome
  have others : (limitSignals signals).filterMap (m.outcome fetch ticks signals) =
      (signals.filter fun s => !decide (s.orderType = .market)).filterMap
        (m.outcome fetch ticks signals) := by
    rw [limitSignals, List.filterMap_filter, List.filterMap_filter]
    refine List.filterMap_congr fun s _ => ?_
    cases kind : s.orderType with
    | market => rfl
    | limit =>
        cases limit : s.limitPrice with
        | none =>
            rw [outcome, kind]
            exact (m.limitOutcome_none _ limit).symm
        | some price => rfl
  have split := (List.filter_append_perm (fun s : Signal => decide (s.orderType = .market))
    signals).filterMap (m.outcome fetch ticks signals)
  rw [List.filterMap_append, ← others] at split
  exact (market.append limit).trans split

/-- The output of `simulate` is the outcomes of the signals, sorted. -/
theorem FillModel.simulate_perm (m : FillModel) {fetch : List TickRow → List TickRow}
    (fetches : Fetches fetch) {sort : List (Fill ℚ) → List (Fill ℚ)} (sorts : SortsByTs sort)
    (signals : List Signal) (ticks : List TickRow) :
    (m.simulate fetch sort signals ticks).Perm
      (signals.filterMap (m.outcome fetch ticks signals)) := by
  refine List.Perm.trans ?_ (m.allFills_perm fetches signals ticks)
  rw [m.simulate_eq]
  split
  · rename_i nothing
    rw [nothing]
  · exact (sorts _).1

theorem FillModel.sorted_simulate (m : FillModel) (fetch : List TickRow → List TickRow)
    {sort : List (Fill ℚ) → List (Fill ℚ)} (sorts : SortsByTs sort) (signals : List Signal)
    (ticks : List TickRow) :
    (m.simulate fetch sort signals ticks).Pairwise fun a b => a.timestampMs ≤ b.timestampMs := by
  rw [m.simulate_eq]
  split
  · exact List.Pairwise.nil
  · exact (sorts _).2

/-! ## Sizes -/

/-- The fill that a signal asks for. -/
def Signal.asked (s : Signal) : Fill ℚ := ⟨s.tsMs, s.assetId, s.side, s.size, 0, 0, 0⟩

/-- Fills that keep asset, side and size of their signals have the size that was asked for. -/
theorem sizeOf_filterMap {o : Signal → Option (Fill ℚ)}
    (keeps : ∀ s fill, o s = some fill →
      fill.assetId = s.assetId ∧ fill.side = s.side ∧ fill.size = s.size)
    (p : Fill ℚ → Bool) (side : Side) (asset : Str) (signals : List Signal) :
    sizeOf side asset ((signals.filterMap o).filter p) =
      sizeOf side asset ((signals.filter fun s => (o s).any p).map Signal.asked) := by
  induction signals with
  | nil => rfl
  | cons s signals ih =>
      cases found : o s with
      | none =>
          rw [List.filterMap_cons_none found, ih, List.filter_cons, found]
          rfl
      | some fill =>
          obtain ⟨sameAsset, sameSide, sameSize⟩ := keeps s fill found
          rw [List.filterMap_cons_some found, List.filter_cons, List.filter_cons, found,
            Option.any_some]
          cases p fill with
          | false => exact ih
          | true =>
              rw [if_pos rfl, if_pos rfl, List.map_cons, sizeOf_cons, sizeOf_cons, ih, sameAsset,
                sameSide, sameSize]
              rfl

/-! ## Frames -/

/-- In the order of time, what has been asked to be sold of an asset was asked to be bought. -/
def LongOnlyFrame (signals : List Signal) : Prop :=
  LongOnly ((sortBy Signal.tsMs signals).map Signal.asked)

theorem LongOnlyFrame.upTo {signals : List Signal} (longOnly : LongOnlyFrame signals) (asset : Str)
    (t : Int) :
    sizeOf .ask asset ((signals.filter fun s => s.tsMs ≤ t).map Signal.asked) ≤
      sizeOf .bid asset ((signals.filter fun s => s.tsMs ≤ t).map Signal.asked) := by
  -- in the order of time these signals are in front
  have front := takeWhile_eq_filter (sorted_sortBy Signal.tsMs signals)
    (p := fun s => decide (s.tsMs ≤ t))
    fun a b le holds => decide_eq_true (le.trans (of_decide_eq_true holds))
  have perm := ((sortBy_perm Signal.tsMs signals).filter fun s => decide (s.tsMs ≤ t)).map
    Signal.asked
  rw [← sizeOf_perm perm, ← sizeOf_perm perm, ← front]
  exact longOnly _ ((List.takeWhile_prefix _).map _) asset

/-! ## The frames of ConvergenceNo -/

/-- An exit comes after its entry, for the same size of the same asset. -/
theorem ConvergenceNo.exits_le_entries (cfg : ConvergenceNo) (size : 0 ≤ cfg.size) {pick : Pick}
    (picks : Picks pick) (ticks : List TickRow) (entries : List NoEntry) (asset : Str) (t : Int) :
    sizeOf .ask asset (((((entries.filterMap (cfg.exitOf pick ticks)).map cfg.sellSignal).filter
        fun s => s.tsMs ≤ t)).map Signal.asked) ≤
      sizeOf .bid asset (((entries.map cfg.buySignal).filter fun s => s.tsMs < t).map
        Signal.asked) := by
  induction entries with
  | nil => exact le_rfl
  | cons e entries ih =>
      have grown : sizeOf .bid asset (((entries.map cfg.buySignal).filter fun s =>
          s.tsMs < t).map Signal.asked) ≤
          sizeOf .bid asset ((((e :: entries).map cfg.buySignal).filter fun s =>
            s.tsMs < t).map Signal.asked) := by
        refine sizeOf_le_of_sublist ((((List.sublist_cons_self e entries).map _).filter _).map _)
          (fun fill mem _ => ?_) _
        obtain ⟨s, memFilter, rfl⟩ := List.mem_map.mp mem
        obtain ⟨e', -, rfl⟩ := List.mem_map.mp (List.mem_filter.mp memFilter).1
        exact size
      cases left : cfg.exitOf pick ticks e with
      | none =>
          rw [List.filterMap_cons_none left]
          exact ih.trans grown
      | some ex =>
          rw [List.filterMap_cons_some left, List.map_cons, List.filter_cons]
          by_cases now : (cfg.sellSignal ex).tsMs ≤ t
          · have before : (cfg.buySignal e).tsMs < t := (exitOf_after picks left).trans_le now
            have same : ex.noAsset = e.noAsset := by
              obtain ⟨row, -, rfl⟩ := Option.map_eq_some_iff.mp left
              rfl
            rw [if_pos (decide_eq_true now), List.map_cons, sizeOf_cons, List.map_cons,
              List.filter_cons, if_pos (decide_eq_true before), List.map_cons, sizeOf_cons]
            refine add_le_add (le_of_eq ?_) ih
            simp [Signal.asked, sellSignal, buySignal, same]
          · rw [if_neg fun holds => now (of_decide_eq_true holds)]
            exact ih.trans grown

/-- **The frames of ConvergenceNo are long-only**, however equal times are ordered. -/
theorem ConvergenceNo.longOnlyFrame (cfg : ConvergenceNo) (size : 0 ≤ cfg.size) {pick : Pick}
    (picks : Picks pick) {order : List Signal → List Signal} (orders : OrdersByTs order)
    (ticks : List TickRow) : LongOnlyFrame (cfg.generateSignals pick order ticks) := by
  intro before initial asset
  have perm := (sortBy_perm Signal.tsMs _).trans (orders (cfg.unionAll pick ticks)).1
  have sorted := sorted_sortBy Signal.tsMs (cfg.generateSignals pick order ticks)
  have sizes : ∀ s ∈ cfg.unionAll pick ticks, 0 ≤ s.size := by
    intro s mem
    rcases List.mem_append.mp mem with buy | sell
    · obtain ⟨e, -, rfl⟩ := List.mem_map.mp buy
      exact size
    · obtain ⟨ex, -, rfl⟩ := List.mem_map.mp sell
      exact size
  have asked : ∀ {signals : List Signal} {side : Side},
      (∀ s ∈ signals, s ∈ cfg.unionAll pick ticks) →
        ∀ fill ∈ signals.map Signal.asked, fill.side = side → 0 ≤ fill.size := by
    intro signals side inside fill mem _
    obtain ⟨s, memSignals, rfl⟩ := List.mem_map.mp mem
    exact sizes s (inside s memSignals)
  obtain ⟨later, eq⟩ := initial
  obtain ⟨first, rest, split, rfl, -⟩ := List.map_eq_append_iff.mp eq.symm
  rcases List.eq_nil_or_concat first with rfl | ⟨earlier, z, rfl⟩
  · exact le_rfl
  rw [List.concat_eq_append] at split ⊢
  rw [generateSignals] at sorted split
  rw [split] at perm sorted
  have now := le_of_sorted sorted
  have after : rest.filter (fun s => s.tsMs < z.tsMs) = [] :=
    List.filter_eq_nil_iff.mpr fun s mem lt =>
      absurd (of_decide_eq_true lt) (not_lt.mpr (ge_of_sorted sorted s mem))
  calc sizeOf .ask asset ((earlier ++ [z]).map Signal.asked)
      ≤ sizeOf .ask asset (((earlier ++ [z] ++ rest).filter fun s =>
          s.tsMs ≤ z.tsMs).map Signal.asked) := by
        refine sizeOf_le_of_sublist (List.Sublist.map _ ?_)
          (asked fun s mem => perm.mem_iff.mp (List.mem_filter.mp mem).1) _
        rw [List.filter_append, List.filter_eq_self.mpr fun s mem => decide_eq_true (now s mem)]
        exact List.sublist_append_left _ _
    _ = sizeOf .ask asset (((cfg.unionAll pick ticks).filter fun s =>
          s.tsMs ≤ z.tsMs).map Signal.asked) := sizeOf_perm ((perm.filter _).map _) _ _
    _ = sizeOf .ask asset ((((cfg.exitSignals pick ticks).map cfg.sellSignal).filter fun s =>
          s.tsMs ≤ z.tsMs).map Signal.asked) := by
        rw [unionAll, List.filter_append, List.map_append, sizeOf_append, sizeOf_eq_zero, zero_add]
        intro fill mem
        obtain ⟨s, memFilter, rfl⟩ := List.mem_map.mp mem
        obtain ⟨e, -, rfl⟩ := List.mem_map.mp (List.mem_filter.mp memFilter).1
        rintro ⟨-, ⟨⟩⟩
    _ ≤ sizeOf .bid asset ((((cfg.noEntry pick ticks).map cfg.buySignal).filter fun s =>
          s.tsMs < z.tsMs).map Signal.asked) :=
        cfg.exits_le_entries size picks ticks _ asset _
    _ ≤ sizeOf .bid asset (((cfg.unionAll pick ticks).filter fun s =>
          s.tsMs < z.tsMs).map Signal.asked) := by
        exact sizeOf_le_of_sublist (((List.sublist_append_left _ _).filter _).map _)
          (asked fun s mem => (List.mem_filter.mp mem).1) _
    _ = sizeOf .bid asset (((earlier ++ [z] ++ rest).filter fun s =>
          s.tsMs < z.tsMs).map Signal.asked) := (sizeOf_perm ((perm.filter _).map _) _ _).symm
    _ ≤ sizeOf .bid asset ((earlier ++ [z]).map Signal.asked) := by
        rw [List.filter_append, after, List.append_nil]
        exact sizeOf_le_of_sublist (List.filter_sublist.map _)
          (asked fun s mem => perm.mem_iff.mp (List.mem_append_left _ mem)) _

/-! ## Fills -/

/-- The size of the entries of an asset up to a time that are not filled by then. -/
def FillModel.missed (m : FillModel) (fetch : List TickRow → List TickRow) (ticks : List TickRow)
    (signals : List Signal) (asset : Str) (t : Int) : ℚ :=
  sizeOf .bid asset
    ((signals.filter fun s => s.tsMs ≤ t &&
      !(m.outcome fetch ticks signals s).any fun fill => fill.timestampMs ≤ t).map Signal.asked)

/-- What is filled by a time, and what is missed. -/
theorem FillModel.asked_eq_filled_add_missed (m : FillModel) (fetch : List TickRow → List TickRow)
    (ticks : List TickRow) (signals : List Signal) (asset : Str) (t : Int) :
    sizeOf .bid asset ((signals.filter fun s => s.tsMs ≤ t).map Signal.asked) =
      sizeOf .bid asset ((signals.filter fun s =>
          (m.outcome fetch ticks signals s).any fun fill => fill.timestampMs ≤ t).map Signal.asked) +
        m.missed fetch ticks signals asset t := by
  have filled : (signals.filter fun s =>
      (m.outcome fetch ticks signals s).any fun fill => fill.timestampMs ≤ t) =
      (signals.filter fun s => s.tsMs ≤ t).filter fun s =>
        (m.outcome fetch ticks signals s).any fun fill => fill.timestampMs ≤ t := by
    rw [List.filter_filter]
    refine List.filter_congr fun s _ => ?_
    cases outcome : m.outcome fetch ticks signals s with
    | none => rfl
    | some fill =>
        have notBefore := (m.outcome_some outcome).2.2.2
        rw [Option.any_some, Bool.eq_iff_iff, Bool.and_eq_true, decide_eq_true_iff,
          decide_eq_true_iff]
        omega
  have others : (signals.filter fun s => s.tsMs ≤ t &&
      !(m.outcome fetch ticks signals s).any fun fill => fill.timestampMs ≤ t) =
      (signals.filter fun s => s.tsMs ≤ t).filter fun s =>
        !(m.outcome fetch ticks signals s).any fun fill => fill.timestampMs ≤ t := by
    rw [List.filter_filter]
    exact List.filter_congr fun s _ => Bool.and_comm _ _
  have split := (List.filter_append_perm (fun s =>
    (m.outcome fetch ticks signals s).any fun fill => fill.timestampMs ≤ t)
      (signals.filter fun s => s.tsMs ≤ t)).map Signal.asked
  rw [missed, filled, others, ← sizeOf_append, ← List.map_append, sizeOf_perm split]

/-- The fills of the output that satisfy a condition, by their signals. -/
theorem FillModel.sizeOf_filter_simulate (m : FillModel) {fetch : List TickRow → List TickRow}
    (fetches : Fetches fetch) {sort : List (Fill ℚ) → List (Fill ℚ)} (sorts : SortsByTs sort)
    (signals : List Signal) (ticks : List TickRow) (p : Fill ℚ → Bool) (side : Side) (asset : Str) :
    sizeOf side asset ((m.simulate fetch sort signals ticks).filter p) =
      sizeOf side asset
        ((signals.filter fun s => (m.outcome fetch ticks signals s).any p).map Signal.asked) := by
  rw [sizeOf_perm ((m.simulate_perm fetches sorts signals ticks).filter p), sizeOf_filterMap]
  exact fun _ _ filled =>
    ⟨(m.outcome_some filled).1, (m.outcome_some filled).2.1, (m.outcome_some filled).2.2.1⟩

theorem FillModel.simulate_size_nonneg (m : FillModel) {fetch : List TickRow → List TickRow}
    (fetches : Fetches fetch) {sort : List (Fill ℚ) → List (Fill ℚ)} (sorts : SortsByTs sort)
    {signals : List Signal} (sizes : ∀ s ∈ signals, 0 ≤ s.size) (ticks : List TickRow) :
    ∀ fill ∈ m.simulate fetch sort signals ticks, 0 ≤ fill.size := by
  intro fill mem
  obtain ⟨s, memSignals, filled⟩ :=
    List.mem_filterMap.mp ((m.simulate_perm fetches sorts signals ticks).mem_iff.mp mem)
  rw [(m.outcome_some filled).2.2.1]
  exact sizes s memSignals

/-- **What fills sell and buy**: at every fill of the output of a long-only frame, what has been
sold of an asset is at most what has been bought, with the entries up to then that are rejected or
still wait, and the buys of that millisecond which the sort puts later. -/
theorem sold_le_bought_add_missed (m : FillModel) {fetch : List TickRow → List TickRow}
    (fetches : Fetches fetch) {sort : List (Fill ℚ) → List (Fill ℚ)} (sorts : SortsByTs sort)
    (ticks : List TickRow) {signals : List Signal} (sizes : ∀ s ∈ signals, 0 ≤ s.size)
    (longOnly : LongOnlyFrame signals) (asset : Str) {before rest : List (Fill ℚ)} {fill : Fill ℚ}
    (output : m.simulate fetch sort signals ticks = before ++ [fill] ++ rest) :
    sizeOf .ask asset (before ++ [fill]) ≤
      sizeOf .bid asset (before ++ [fill]) +
        (m.missed fetch ticks signals asset fill.timestampMs +
          sizeOf .bid asset (rest.filter fun later => later.timestampMs ≤ fill.timestampMs)) := by
  have sorted := m.sorted_simulate fetch sorts signals ticks
  have positive := m.simulate_size_nonneg fetches sorts sizes ticks
  rw [output] at sorted positive
  have now := le_of_sorted sorted
  have byNow : (m.simulate fetch sort signals ticks).filter
      (fun f => f.timestampMs ≤ fill.timestampMs) =
        before ++ [fill] ++ rest.filter fun later => later.timestampMs ≤ fill.timestampMs := by
    rw [output, List.filter_append,
      List.filter_eq_self.mpr fun done mem => decide_eq_true (now done mem)]
  have asked : ∀ s ∈ signals.map Signal.asked, 0 ≤ s.size := by
    intro s mem
    obtain ⟨s, memSignals, rfl⟩ := List.mem_map.mp mem
    exact sizes s memSignals
  calc sizeOf .ask asset (before ++ [fill])
      ≤ sizeOf .ask asset ((m.simulate fetch sort signals ticks).filter fun f =>
          f.timestampMs ≤ fill.timestampMs) := by
        rw [byNow]
        refine sizeOf_le_of_sublist (List.sublist_append_left _ _) (fun f mem _ => ?_) _
        rcases List.mem_append.mp mem with done | later
        · exact positive f (List.mem_append_left _ done)
        · exact positive f (List.mem_append_right _ (List.mem_filter.mp later).1)
    _ = sizeOf .ask asset ((signals.filter fun s =>
          (m.outcome fetch ticks signals s).any fun f =>
            f.timestampMs ≤ fill.timestampMs).map Signal.asked) :=
        m.sizeOf_filter_simulate fetches sorts signals ticks _ _ _
    _ ≤ sizeOf .ask asset
          ((signals.filter fun s => s.tsMs ≤ fill.timestampMs).map Signal.asked) := by
        -- a signal that is filled by now was sent by now
        refine sizeOf_le_of_sublist ((List.monotone_filter_right signals fun s soon => ?_).map _)
          (fun s mem _ => asked s ((List.filter_sublist.map _).subset mem)) _
        obtain ⟨f, outcome, le⟩ := (Option.any_eq_true _ _).mp soon
        exact decide_eq_true ((m.outcome_some outcome).2.2.2.trans (of_decide_eq_true le))
    _ ≤ sizeOf .bid asset
          ((signals.filter fun s => s.tsMs ≤ fill.timestampMs).map Signal.asked) :=
        longOnly.upTo asset _
    _ = sizeOf .bid asset ((m.simulate fetch sort signals ticks).filter fun f =>
            f.timestampMs ≤ fill.timestampMs) +
          m.missed fetch ticks signals asset fill.timestampMs := by
        rw [m.sizeOf_filter_simulate fetches sorts, m.asked_eq_filled_add_missed fetch ticks]
    _ = _ := by
        rw [byNow, sizeOf_append]
        ring

theorem sortsByTs_sortBy : SortsByTs (sortBy Fill.timestampMs) := fun fills =>
  ⟨sortBy_perm _ fills, sorted_sortBy _ fills⟩

/-- An entry that is too dear to fill, and its exit. -/
theorem sold_le_bought_add_missed_rejected :
    let row (ts : Int) (bid ask : ℚ) : TickRow :=
      ⟨ts, 0, bid, ask, .priceChange, ascii "no", none, none, none, 0⟩
    let signals : List Signal :=
      [⟨1000, ascii "no", .bid, 10, .market, none⟩, ⟨2000, ascii "no", .ask, 10, .market, none⟩]
    let ticks := [row 1000 (40 / 100) (60 / 100), row 2000 (90 / 100) (92 / 100)]
    let exit : Fill ℚ :=
      ⟨2000, ascii "no", .ask, 10, 90 / 100 * (1 - 5 / 10000), 0, 90 / 100 * (5 / 10000)⟩
    sizeOf .ask (ascii "no") ([] ++ [exit]) ≤
      sizeOf .bid (ascii "no") ([] ++ [exit]) +
        (({} : FillModel).missed sortRows ticks signals (ascii "no") 2000 +
          sizeOf .bid (ascii "no") ([].filter fun later => later.timestampMs ≤ 2000)) := by
  intro row signals ticks exit
  have sizes : ∀ s ∈ signals, 0 ≤ s.size := by decide +kernel
  have longOnly : LongOnlyFrame signals := (longOnly_iff _).mpr (by decide +kernel)
  have output : ({} : FillModel).simulate sortRows (sortBy Fill.timestampMs) signals ticks =
      [] ++ [exit] ++ [] := by
    decide +kernel
  exact sold_le_bought_add_missed _ fetches_sortRows sortsByTs_sortBy ticks sizes longOnly _ output

/-- An exit without its entry is a naked short. -/
theorem exit_filled_alone :
    ¬ ∀ (m : FillModel) (fetch : List TickRow → List TickRow) (sort : List (Fill ℚ) → List (Fill ℚ))
      (signals : List Signal) (ticks : List TickRow), Fetches fetch → SortsByTs sort →
      (∀ s ∈ signals, 0 ≤ s.size) → LongOnlyFrame signals →
        LongOnly (m.simulate fetch sort signals ticks) := by
  intro always
  have long := always {} sortRows (sortBy Fill.timestampMs)
    [⟨1000, ascii "no", .bid, 10, .market, none⟩, ⟨2000, ascii "no", .ask, 10, .market, none⟩]
    [⟨1000, 0, 40 / 100, 60 / 100, .priceChange, ascii "no", none, none, none, 0⟩,
      ⟨2000, 0, 90 / 100, 92 / 100, .priceChange, ascii "no", none, none, none, 0⟩]
    fetches_sortRows sortsByTs_sortBy (by decide +kernel) ((longOnly_iff _).mpr (by decide +kernel))
  have sold := long _ (List.prefix_refl _) (ascii "no")
  exact absurd sold (by decide +kernel)

end Tickscope.Backtest
