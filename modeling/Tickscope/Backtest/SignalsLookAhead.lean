import Tickscope.Backtest.ConvergenceNo

/-!
# How far ConvergenceNo looks ahead

Every subquery picks from the rows up to the time of its signal but two: the entry takes the NO
book up to five seconds after the cross, and the NO token of a condition comes from the whole table.
With these two the same, later rows change no signal (`signals_look_ahead`).
-/

namespace Tickscope.Backtest

open Tickscope.Lib

/-! ## Rows up to a time -/

theorem upTo_filter (p : TickRow → Bool) (ticks : List TickRow) (t : Int) :
    upTo (ticks.filter p) t = (upTo ticks t).filter p :=
  List.filter_comm _ _ ticks

theorem upTo_of_le {ticks ticks' : List TickRow} {t t' : Int} (agree : upTo ticks t = upTo ticks' t)
    (le : t' ≤ t) : upTo ticks t' = upTo ticks' t' := by
  have earlier : ∀ rows, upTo rows t' = upTo (upTo rows t) t' := by
    intro rows
    rw [upTo, upTo, upTo, List.filter_filter]
    refine List.filter_congr fun row _ => ?_
    rw [Bool.eq_iff_iff, Bool.and_eq_true, decide_eq_true_iff, decide_eq_true_iff]
    omega
  rw [earlier ticks, earlier ticks', agree]

theorem mem_upTo {rows : List TickRow} {row : TickRow} {t : Int} :
    row ∈ upTo rows t ↔ row ∈ rows ∧ row.tsMs ≤ t := by
  rw [upTo, List.mem_filter, decide_eq_true_iff]

/-- If the earliest row is early enough, later rows do not matter. -/
theorem Picks.earliest {pick : Pick} (picks : Picks pick) {rows rows' : List TickRow} {t : Int}
    (agree : upTo rows t = upTo rows' t) {row : TickRow} (found : pick TickRow.tsMs rows = some row)
    (early : row.tsMs ≤ t) :
    ∃ row', pick TickRow.tsMs rows' = some row' ∧ row'.tsMs = row.tsMs := by
  obtain ⟨mem, least⟩ := (picks _ _).1 row found
  have mem' : row ∈ upTo rows' t := agree ▸ mem_upTo.mpr ⟨mem, early⟩
  cases found' : pick TickRow.tsMs rows' with
  | none =>
      rw [(picks _ _).2 found'] at mem'
      exact (List.not_mem_nil mem').elim
  | some row' =>
      obtain ⟨memRow', least'⟩ := (picks _ _).1 row' found'
      have le := least' row (mem_upTo.mp mem').1
      have back : row' ∈ upTo rows t := agree ▸ mem_upTo.mpr ⟨memRow', le.trans early⟩
      exact ⟨row', rfl, le_antisymm le (least row' (mem_upTo.mp back).1)⟩

/-! ## One condition -/

/-- The condition has crossed by a time. -/
def ConvergenceNo.CrossedBy (cfg : ConvergenceNo) (ticks : List TickRow) (t : Int) (c : Str) :
    Prop :=
  ∃ row ∈ cfg.crossings ticks, row.conditionId = some c ∧ row.tsMs ≤ t

/-- The tables agree up to five seconds after `t`, and on the NO tokens of what has crossed. -/
structure ConvergenceNo.Agree (cfg : ConvergenceNo) (t : Int) (ticks ticks' : List TickRow) :
    Prop where
  rows : upTo ticks (t + 5000) = upTo ticks' (t + 5000)
  tokens : ∀ c, cfg.CrossedBy ticks t c → noAsset ticks c = noAsset ticks' c

theorem ConvergenceNo.upTo_crossings {cfg : ConvergenceNo} {ticks ticks' : List TickRow} {t : Int}
    (agree : upTo ticks t = upTo ticks' t) :
    upTo (cfg.crossings ticks) t = upTo (cfg.crossings ticks') t := by
  rw [crossings, crossings, yesBook, yesBook, outcomeBook, outcomeBook, upTo_filter, upTo_filter,
    upTo_filter, upTo_filter, agree]

theorem ConvergenceNo.Agree.symm {cfg : ConvergenceNo} {t : Int} {ticks ticks' : List TickRow}
    (agree : cfg.Agree t ticks ticks') : cfg.Agree t ticks' ticks where
  rows := agree.rows.symm
  tokens := by
    rintro c ⟨row, mem, own, early⟩
    have same := cfg.upTo_crossings (upTo_of_le agree.rows (Int.le_add_of_nonneg_right (by decide)))
    have mem' := mem_upTo.mpr ⟨mem, early⟩
    rw [← same] at mem'
    exact (agree.tokens c ⟨row, (mem_upTo.mp mem').1, own, early⟩).symm

def ConvergenceNo.entryOf (cfg : ConvergenceNo) (pick : Pick) (ticks : List TickRow) (c : Str) :
    Option NoEntry :=
  (cfg.firstCrossOf pick ticks c).bind (noEntryOf pick ticks)

section Transfer

variable {cfg : ConvergenceNo} {pick : Pick} {t : Int} {ticks ticks' : List TickRow} {c : Str}

theorem ConvergenceNo.mem_conditionsOf {rows : List TickRow} {row : TickRow} (mem : row ∈ rows)
    (own : row.conditionId = some c) : c ∈ conditionsOf rows :=
  (List.perm_insertionSort _ _).mem_iff.mpr
    (List.mem_dedup.mpr (List.mem_filterMap.mpr ⟨row, mem, own⟩))

theorem ConvergenceNo.firstCrossOf_some (picks : Picks pick) {fc : Cross}
    (found : cfg.firstCrossOf pick ticks c = some fc) :
    fc.conditionId = c ∧ c ∈ conditionsOf (cfg.crossings ticks) ∧
      cfg.CrossedBy ticks fc.tsMs c := by
  obtain ⟨row, picked, rfl⟩ := Option.map_eq_some_iff.mp found
  obtain ⟨mem, own⟩ := List.mem_filter.mp ((picks _ _).1 row picked).1
  exact ⟨rfl, mem_conditionsOf mem (of_decide_eq_true own), row, mem, of_decide_eq_true own, le_rfl⟩

theorem ConvergenceNo.Agree.firstCrossOf (agree : cfg.Agree t ticks ticks') (picks : Picks pick)
    {fc : Cross} (found : cfg.firstCrossOf pick ticks c = some fc) (early : fc.tsMs ≤ t) :
    cfg.firstCrossOf pick ticks' c = some fc := by
  obtain ⟨row, picked, rfl⟩ := Option.map_eq_some_iff.mp found
  have rows : upTo ((cfg.crossings ticks).filter fun row => row.conditionId = some c) t =
      upTo ((cfg.crossings ticks').filter fun row => row.conditionId = some c) t := by
    rw [upTo_filter, upTo_filter,
      cfg.upTo_crossings (upTo_of_le agree.rows (Int.le_add_of_nonneg_right (by decide)))]
  obtain ⟨row', picked', same⟩ := picks.earliest rows picked early
  rw [ConvergenceNo.firstCrossOf, picked', Option.map_some, same]

theorem nearCross_congr {fc : Cross} (rows : upTo ticks (t + 5000) = upTo ticks' (t + 5000))
    (early : fc.tsMs ≤ t) (asset : Str) : nearCross ticks fc asset = nearCross ticks' fc asset := by
  have inside : ∀ rows, nearCross rows fc asset = nearCross (upTo rows (t + 5000)) fc asset := by
    intro rows
    rw [nearCross, nearCross, upTo, List.filter_filter]
    refine List.filter_congr fun row _ => ?_
    refine Bool.eq_iff_iff.mpr
      ⟨fun joined => Bool.and_eq_true_iff.mpr ⟨joined, decide_eq_true ?_⟩,
        fun both => (Bool.and_eq_true_iff.mp both).1⟩
    have near := of_decide_eq_true (Bool.and_eq_true_iff.mp joined).2
    omega
  rw [inside ticks, inside ticks', rows]

theorem ConvergenceNo.Agree.entryOf (agree : cfg.Agree t ticks ticks') (picks : Picks pick)
    {e : NoEntry} (found : cfg.entryOf pick ticks c = some e) (early : e.tsMs ≤ t) :
    cfg.entryOf pick ticks' c = some e := by
  obtain ⟨fc, cross, entry⟩ := Option.bind_eq_some_iff.mp found
  have same : e.tsMs = fc.tsMs := by
    obtain ⟨asset, -, entry⟩ := Option.bind_eq_some_iff.mp entry
    obtain ⟨row, -, rfl⟩ := Option.map_eq_some_iff.mp entry
    rfl
  rw [same] at early
  obtain ⟨own, -, row, mem, ownRow, le⟩ := firstCrossOf_some picks cross
  have token := agree.tokens c ⟨row, mem, ownRow, le.trans early⟩
  rw [ConvergenceNo.entryOf, agree.firstCrossOf picks cross early, Option.bind_some, ← entry,
    noEntryOf, noEntryOf, own, token]
  refine congrArg _ (funext fun asset => ?_)
  rw [nearCross_congr agree.rows early]

theorem ConvergenceNo.Agree.exitOf (agree : cfg.Agree t ticks ticks') (picks : Picks pick)
    {e : NoEntry} {ex : ExitSignal} (found : cfg.exitOf pick ticks e = some ex)
    (early : ex.exitTs ≤ t) :
    ∃ ex', cfg.exitOf pick ticks' e = some ex' ∧ cfg.sellSignal ex' = cfg.sellSignal ex := by
  obtain ⟨row, picked, rfl⟩ := Option.map_eq_some_iff.mp found
  have rows : upTo (cfg.afterEntry ticks e) t = upTo (cfg.afterEntry ticks' e) t := by
    rw [afterEntry, afterEntry, noBook, noBook, outcomeBook, outcomeBook, upTo_filter, upTo_filter,
      upTo_filter, upTo_filter,
      upTo_of_le agree.rows (Int.le_add_of_nonneg_right (by decide))]
  obtain ⟨row', picked', same⟩ := picks.earliest rows picked early
  refine ⟨_, by rw [ConvergenceNo.exitOf, picked']; rfl, ?_⟩
  dsimp only [sellSignal]
  rw [same]

/-! ## All signals -/

/-- The early entry of a condition, as a signal. -/
def ConvergenceNo.earlyBuy (cfg : ConvergenceNo) (pick : Pick) (t : Int) (ticks : List TickRow)
    (c : Str) : Option Signal :=
  ((cfg.entryOf pick ticks c).map cfg.buySignal).filter fun s => s.tsMs ≤ t

/-- The early exit of a condition, as a signal. -/
def ConvergenceNo.earlySell (cfg : ConvergenceNo) (pick : Pick) (t : Int) (ticks : List TickRow)
    (c : Str) : Option Signal :=
  (((cfg.entryOf pick ticks c).bind (cfg.exitOf pick ticks)).map cfg.sellSignal).filter
    fun s => s.tsMs ≤ t

theorem ConvergenceNo.filter_unionAll (cfg : ConvergenceNo) (pick : Pick) (t : Int)
    (ticks : List TickRow) :
    (cfg.unionAll pick ticks).filter (fun s => s.tsMs ≤ t) =
      (conditionsOf (cfg.crossings ticks)).filterMap (cfg.earlyBuy pick t ticks) ++
        (conditionsOf (cfg.crossings ticks)).filterMap (cfg.earlySell pick t ticks) := by
  rw [unionAll, exitSignals, noEntry, firstCross, List.filterMap_filterMap,
    List.filterMap_filterMap, List.map_filterMap, List.map_filterMap, List.filter_append,
    List.filter_filterMap, List.filter_filterMap]
  rfl

theorem ConvergenceNo.mem_of_entryOf (picks : Picks pick) {e : NoEntry}
    (found : cfg.entryOf pick ticks c = some e) : c ∈ conditionsOf (cfg.crossings ticks) := by
  obtain ⟨fc, cross, -⟩ := Option.bind_eq_some_iff.mp found
  exact (firstCrossOf_some picks cross).2.1

theorem ConvergenceNo.Agree.earlyBuy (agree : cfg.Agree t ticks ticks') (picks : Picks pick)
    {s : Signal} (found : cfg.earlyBuy pick t ticks c = some s) :
    c ∈ conditionsOf (cfg.crossings ticks') ∧ cfg.earlyBuy pick t ticks' c = some s := by
  obtain ⟨signal, early⟩ := Option.filter_eq_some_iff.mp found
  obtain ⟨e, entry, rfl⟩ := Option.map_eq_some_iff.mp signal
  have entry' := agree.entryOf picks entry (of_decide_eq_true early)
  refine ⟨mem_of_entryOf picks entry', ?_⟩
  rw [ConvergenceNo.earlyBuy, entry']
  exact Option.filter_eq_some_iff.mpr ⟨rfl, early⟩

theorem ConvergenceNo.Agree.earlySell (agree : cfg.Agree t ticks ticks') (picks : Picks pick)
    {s : Signal} (found : cfg.earlySell pick t ticks c = some s) :
    c ∈ conditionsOf (cfg.crossings ticks') ∧ cfg.earlySell pick t ticks' c = some s := by
  obtain ⟨signal, early⟩ := Option.filter_eq_some_iff.mp found
  obtain ⟨ex, left, rfl⟩ := Option.map_eq_some_iff.mp signal
  obtain ⟨e, entry, exit⟩ := Option.bind_eq_some_iff.mp left
  have before : ex.exitTs ≤ t := of_decide_eq_true early
  have entry' := agree.entryOf picks entry ((exitOf_after picks exit).le.trans before)
  obtain ⟨ex', exit', same⟩ := agree.exitOf picks exit before
  refine ⟨mem_of_entryOf picks entry', ?_⟩
  rw [ConvergenceNo.earlySell, entry', Option.bind_some, exit', Option.map_some, same]
  exact Option.filter_eq_some_iff.mpr ⟨rfl, early⟩

end Transfer

/-- **How far signals look ahead**: the signals up to `t` are the same for tables that agree on
the rows up to five seconds after `t` and on the NO tokens of the conditions that have crossed. -/
theorem signals_look_ahead (cfg : ConvergenceNo) {pick : Pick} (picks : Picks pick)
    {order : List Signal → List Signal} (orders : OrdersByTs order) {t : Int}
    {ticks ticks' : List TickRow} (agree : cfg.Agree t ticks ticks') :
    ((cfg.generateSignals pick order ticks).filter fun s => s.tsMs ≤ t).Perm
      ((cfg.generateSignals pick order ticks').filter fun s => s.tsMs ≤ t) := by
  have nodup : ∀ rows, (conditionsOf rows).Nodup := fun rows =>
    (List.perm_insertionSort _ _).nodup_iff.mpr (List.nodup_dedup _)
  have buys : ((conditionsOf (cfg.crossings ticks)).filterMap (cfg.earlyBuy pick t ticks)).Perm
      ((conditionsOf (cfg.crossings ticks')).filterMap (cfg.earlyBuy pick t ticks')) :=
    filterMap_perm_of_nodup (nodup _) (nodup _) fun _ _ =>
      ⟨fun found => agree.earlyBuy picks found.2, fun found => agree.symm.earlyBuy picks found.2⟩
  have sells : ((conditionsOf (cfg.crossings ticks)).filterMap (cfg.earlySell pick t ticks)).Perm
      ((conditionsOf (cfg.crossings ticks')).filterMap (cfg.earlySell pick t ticks')) :=
    filterMap_perm_of_nodup (nodup _) (nodup _) fun _ _ =>
      ⟨fun found => agree.earlySell picks found.2, fun found => agree.symm.earlySell picks found.2⟩
  refine ((orders _).1.filter _).trans (.trans ?_ ((orders _).1.filter _).symm)
  rw [cfg.filter_unionAll, cfg.filter_unionAll]
  exact buys.append sells

theorem ordersByTs_sortBy : OrdersByTs (sortBy Signal.tsMs) := fun signals =>
  ⟨sortBy_perm _ signals, sorted_sortBy _ signals⟩

/-- A row of a market with a fee. -/
def bookRow (ts : Int) (outcome asset : String) (bid ask : ℚ) : TickRow :=
  ⟨ts, 0, bid, ask, .priceChange, ascii asset, some (ascii "c"), some (ascii outcome),
    some (ascii "Up or Down?"), 1000⟩

/-- A table with one entry, and the same table with a later row. -/
theorem signals_look_ahead_laterRow :
    let ticks := [bookRow 8000 "NO" "n" (64 / 100) (66 / 100),
      bookRow 10000 "YES" "y" (29 / 100) (31 / 100)]
    let ticks' := ticks ++ [bookRow 16000 "NO" "n" (90 / 100) (92 / 100)]
    (((({} : ConvergenceNo).generateSignals pickFirst (sortBy Signal.tsMs) ticks).filter
        fun s => s.tsMs ≤ 10000).Perm
      ((({} : ConvergenceNo).generateSignals pickFirst (sortBy Signal.tsMs) ticks').filter
        fun s => s.tsMs ≤ 10000)) := by
  intro ticks ticks'
  refine signals_look_ahead {} picks_pickFirst ordersByTs_sortBy ⟨by decide +kernel, ?_⟩
  rintro c ⟨row, mem, own, -⟩
  have crossing : ({} : ConvergenceNo).crossings ticks =
      [bookRow 10000 "YES" "y" (29 / 100) (31 / 100)] := by decide +kernel
  rw [crossing, List.mem_singleton] at mem
  rw [mem] at own
  rw [← Option.some.inj own]
  decide +kernel

/-- The entry at ten seconds is there only with the NO book of two seconds later. -/
theorem entry_from_later_book :
    ¬ ∀ (cfg : ConvergenceNo) (pick : Pick) (order : List Signal → List Signal) (t : Int)
      (ticks ticks' : List TickRow), Picks pick → OrdersByTs order →
      upTo ticks t = upTo ticks' t →
        ((cfg.generateSignals pick order ticks).filter fun s => s.tsMs ≤ t).Perm
          ((cfg.generateSignals pick order ticks').filter fun s => s.tsMs ≤ t) := by
  intro always
  have same := always {} pickFirst (sortBy Signal.tsMs) 10000
    [bookRow 1000 "NO" "n" (64 / 100) (66 / 100), bookRow 10000 "YES" "y" (29 / 100) (31 / 100)]
    [bookRow 1000 "NO" "n" (64 / 100) (66 / 100), bookRow 10000 "YES" "y" (29 / 100) (31 / 100),
      bookRow 12000 "NO" "n" (68 / 100) (70 / 100)]
    picks_pickFirst ordersByTs_sortBy (by decide +kernel)
  exact absurd same.length_eq (by decide +kernel)

end Tickscope.Backtest
