import Tickscope.Backtest.FillsNoLookAhead
import Tickscope.Lib.Ties

/-!
# Row order

The book query of a market order sorts by asset and time only. A market order is priced from the
last row at its arrival, with the fee flag of the first row, and rows of one millisecond may come
back in any order: the fills are a function of the set of rows only when, for every signal, all
rows that may come first and last are alike (`Determined`): too dear, or with the same quote on the
side of the order and the same fee flag (`Alike`).
-/

namespace Tickscope.Backtest

open Tickscope.Lib

/-- A book row of the asset of a signal, up to its arrival. -/
def FillModel.reaches (m : FillModel) (s : Signal) (row : TickRow) : Bool :=
  decide (row.tsMs ≤ s.tsMs + m.networkLatencyMs) && (row.assetId = s.assetId && row.isBook)

def FillModel.arrived (m : FillModel) (ticks : List TickRow) (s : Signal) : List TickRow :=
  ticks.filter (m.reaches s)

/-! ## Rows that quote the same -/

/-- The quote that a market order takes. -/
def Signal.taken (s : Signal) (row : TickRow) : ℚ :=
  match s.side with
  | .bid => row.bestAsk
  | .ask => row.bestBid

/-- The price of a market order that takes a quote. -/
def Signal.takerPrice (s : Signal) (slipRate quote : ℚ) : ℚ :=
  match s.side with
  | .bid => min (quote * (1 + slipRate)) 1
  | .ask => max (quote * (1 - slipRate)) 0

def FillModel.takerFee (m : FillModel) (slipRate : ℚ) (s : Signal) (row : TickRow) : ℚ :=
  dynamicFee m.feeRate m.exponent (s.takerPrice slipRate (s.taken row)) s.size
    (decide (s.side = .bid))

theorem FillModel.marketFill_eq (m : FillModel) (slipRate : ℚ) (hasFee : Bool) (s : Signal)
    (row : TickRow) :
    m.marketFill slipRate hasFee s row =
      ⟨s.tsMs, s.assetId, s.side, s.size, s.takerPrice slipRate (s.taken row),
        if hasFee then m.takerFee slipRate s row else 0, s.taken row * slipRate⟩ := by
  unfold marketFill takerFee Signal.takerPrice Signal.taken
  cases s.side <;> rfl

/-- Both rows are too dear, or they quote the same to the order. -/
def FillModel.Alike (m : FillModel) (slipRate : ℚ) (s : Signal) (hasFee hasFee' : Bool)
    (row row' : TickRow) : Prop :=
  m.costOk hasFee row = m.costOk hasFee' row' ∧
    (m.costOk hasFee row = true →
      (s.taken row = s.taken row' ∨
        slipRate = 0 ∧ s.takerPrice 0 (s.taken row) = s.takerPrice 0 (s.taken row')) ∧
      (hasFee = hasFee' ∨ m.takerFee slipRate s row = 0))

theorem FillModel.quoteFill_eq_iff (m : FillModel) (slipRate : ℚ) (s : Signal)
    (hasFee hasFee' : Bool) (row row' : TickRow) :
    m.quoteFill slipRate hasFee s row = m.quoteFill slipRate hasFee' s row' ↔
      m.Alike slipRate s hasFee hasFee' row row' := by
  rw [quoteFill, quoteFill, Alike]
  cases ok : m.costOk hasFee row <;> cases ok' : m.costOk hasFee' row'
  · simp
  · simp
  · simp
  · simp only [if_true, Option.some.injEq, marketFill_eq, Fill.mk.injEq, true_and, forall_const,
      mul_eq_mul_right_iff]
    have sameFee : s.takerPrice slipRate (s.taken row) = s.takerPrice slipRate (s.taken row') →
        m.takerFee slipRate s row = m.takerFee slipRate s row' := fun price => by
      rw [takerFee, takerFee, price]
    constructor
    · rintro ⟨price, fee, quote⟩
      refine ⟨quote.imp_right fun zero => ⟨zero, zero ▸ price⟩, ?_⟩
      cases hasFee <;> cases hasFee'
      · exact .inl rfl
      · exact .inr ((sameFee price).trans fee.symm)
      · exact .inr fee
      · exact .inl rfl
    · rintro ⟨quote, flag⟩
      have price : s.takerPrice slipRate (s.taken row) = s.takerPrice slipRate (s.taken row') := by
        rcases quote with same | ⟨rfl, same⟩
        · rw [same]
        · exact same
      refine ⟨price, ?_, quote.imp_right And.left⟩
      rcases flag with rfl | free
      · rw [sameFee price]
      · rw [← sameFee price, free, ite_self, ite_self]

/-! ## Rows that may decide -/

/-- The rows that may come first and last are alike to the signal. -/
def FillModel.Determined (m : FillModel) (slipRate : ℚ) (ticks : List TickRow) (s : Signal) :
    Prop :=
  ∀ first last first' last',
    EndsOf TickRow.tsMs (m.arrived ticks s) first last →
    EndsOf TickRow.tsMs (m.arrived ticks s) first' last' →
      m.Alike slipRate s (0 < first.feeBps) (0 < first'.feeBps) last last'

/-- The same market fills for every order of the table and of what the query returns. -/
def FillModel.RowOrderFree (m : FillModel) (slipRate : ℚ) (ticks : List TickRow)
    (sigs : List Signal) : Prop :=
  ∀ ticks', ticks'.Perm ticks → ∀ fetch fetch', Fetches fetch → Fetches fetch' →
    m.fillMarketBatched fetch ticks sigs slipRate = m.fillMarketBatched fetch' ticks' sigs slipRate

theorem FillModel.marketOutcome_of_none (m : FillModel) (slipRate : ℚ) {book : List TickRow}
    (sorted : book.Pairwise fun a b => a.tsMs ≤ b.tsMs) {s : Signal}
    (none : upTo book (s.tsMs + m.networkLatencyMs) = []) :
    m.marketOutcome slipRate book s = .none := by
  rw [← m.marketOutcome_upTo slipRate sorted, none]
  rfl

theorem FillModel.marketOutcome_of_ends (m : FillModel) (slipRate : ℚ) {book : List TickRow}
    (sorted : book.Pairwise fun a b => a.tsMs ≤ b.tsMs) {s : Signal} {first last : TickRow}
    (head : (upTo book (s.tsMs + m.networkLatencyMs)).head? = some first)
    (tail : (upTo book (s.tsMs + m.networkLatencyMs)).getLast? = some last) :
    m.marketOutcome slipRate book s = m.quoteFill slipRate (0 < first.feeBps) s last := by
  have all : (upTo book (s.tsMs + m.networkLatencyMs)).takeWhile
      (fun row => decide (row.tsMs ≤ s.tsMs + m.networkLatencyMs)) =
        upTo book (s.tsMs + m.networkLatencyMs) :=
    List.takeWhile_eq_self_iff.mpr fun row mem => (List.mem_filter.mp mem).2
  rw [← m.marketOutcome_upTo slipRate sorted, marketOutcome, all, tail, hasFee, head]
  rfl

theorem FillModel.upTo_filter (m : FillModel) (ticks : List TickRow) (s : Signal) :
    upTo (ticks.filter fun row => row.assetId = s.assetId && row.isBook)
      (s.tsMs + m.networkLatencyMs) = m.arrived ticks s :=
  List.filter_filter

/-- What a query returns for a signal, up to its arrival. -/
theorem FillModel.upTo_historyOf_perm (m : FillModel) {fetch : List TickRow → List TickRow}
    (fetches : Fetches fetch) (ticks : List TickRow) {sigs : List Signal} {s : Signal}
    (mem : s ∈ sigs) :
    (upTo (historyOf TickRow.isBook fetch ticks sigs s.assetId)
      (s.tsMs + m.networkLatencyMs)).Perm (m.arrived ticks s) := by
  rw [← m.upTo_filter]
  exact (historyOf_perm fetches TickRow.isBook ticks mem).filter _

theorem FillModel.arrived_perm (m : FillModel) {ticks ticks' : List TickRow}
    (perm : ticks'.Perm ticks) (s : Signal) : (m.arrived ticks' s).Perm (m.arrived ticks s) :=
  perm.filter _

/-- In whatever order the rows come, two of them that may come first and last decide. -/
theorem FillModel.marketOutcome_cases (m : FillModel) (slipRate : ℚ) {ticks book : List TickRow}
    {s : Signal} (sorted : book.Pairwise fun a b => a.tsMs ≤ b.tsMs)
    (perm : (upTo book (s.tsMs + m.networkLatencyMs)).Perm (m.arrived ticks s)) :
    (m.arrived ticks s = [] ∧ m.marketOutcome slipRate book s = none) ∨
      m.arrived ticks s ≠ [] ∧ ∃ first last, EndsOf TickRow.tsMs (m.arrived ticks s) first last ∧
        m.marketOutcome slipRate book s = m.quoteFill slipRate (0 < first.feeBps) s last := by
  by_cases empty : m.arrived ticks s = []
  · rw [empty] at perm
    exact Or.inl ⟨empty, m.marketOutcome_of_none slipRate sorted perm.eq_nil⟩
  · have some : upTo book (s.tsMs + m.networkLatencyMs) ≠ [] := fun none =>
      empty (none ▸ perm).symm.eq_nil
    have head := List.head?_eq_some_head some
    have tail := List.getLast?_eq_some_getLast some
    exact Or.inr ⟨empty, _, _, (endsOf_of_sorted (sorted.filter _) head tail).perm perm,
      m.marketOutcome_of_ends slipRate sorted head tail⟩

/-- If the rows that decide agree, so do the outcomes from any two orders of them. -/
theorem FillModel.Determined.outcome {m : FillModel} {slipRate : ℚ} {ticks : List TickRow}
    {s : Signal} (determined : m.Determined slipRate ticks s) {book book' : List TickRow}
    (sorted : book.Pairwise fun a b => a.tsMs ≤ b.tsMs)
    (sorted' : book'.Pairwise fun a b => a.tsMs ≤ b.tsMs)
    (perm : (upTo book (s.tsMs + m.networkLatencyMs)).Perm (m.arrived ticks s))
    (perm' : (upTo book' (s.tsMs + m.networkLatencyMs)).Perm (m.arrived ticks s)) :
    m.marketOutcome slipRate book s = m.marketOutcome slipRate book' s := by
  rcases m.marketOutcome_cases slipRate sorted perm with
    ⟨empty, outcome⟩ | ⟨nonempty, first, last, ends, outcome⟩ <;>
  rcases m.marketOutcome_cases slipRate sorted' perm' with
    ⟨empty', outcome'⟩ | ⟨nonempty', first', last', ends', outcome'⟩
  · rw [outcome, outcome']
  · exact (nonempty' empty).elim
  · exact (nonempty empty').elim
  · rw [outcome, outcome']
    exact (m.quoteFill_eq_iff _ _ _ _ _ _).mpr (determined first last first' last' ends ends')

/-! ## An order for every choice -/

/-- The table with the rows that reach a signal in front, in a given order. -/
def FillModel.rearranged (m : FillModel) (ticks : List TickRow) (s : Signal)
    (front : List TickRow) : List TickRow :=
  front ++ ticks.filter fun row => !m.reaches s row

theorem FillModel.rearranged_perm (m : FillModel) {ticks : List TickRow} {s : Signal}
    {front : List TickRow} (perm : front.Perm (m.arrived ticks s)) :
    (m.rearranged ticks s front).Perm ticks :=
  (perm.append_right _).trans (List.filter_append_perm _ ticks)

theorem FillModel.arrived_rearranged (m : FillModel) {ticks : List TickRow} {s : Signal}
    {front : List TickRow} (perm : front.Perm (m.arrived ticks s)) :
    m.arrived (m.rearranged ticks s front) s = front := by
  have mine : front.filter (m.reaches s) = front :=
    List.filter_eq_self.mpr fun row mem => (List.mem_filter.mp (perm.mem_iff.mp mem)).2
  have others : (ticks.filter fun row => !m.reaches s row).filter (m.reaches s) = [] := by
    refine List.filter_eq_nil_iff.mpr fun row mem holds => ?_
    have not := (List.mem_filter.mp mem).2
    rw [holds] at not
    exact Bool.false_ne_true not
  rw [arrived, rearranged, List.filter_append, mine, others, List.append_nil]

theorem FillModel.marketOutcome_rearranged (m : FillModel) (slipRate : ℚ) {ticks : List TickRow}
    {s : Signal} {front : List TickRow} (perm : front.Perm (m.arrived ticks s))
    (sorted : front.Pairwise fun a b => a.tsMs ≤ b.tsMs) {first last : TickRow}
    (head : front.head? = some first) (tail : front.getLast? = some last) :
    m.marketOutcome slipRate (tape TickRow.isBook (m.rearranged ticks s front) s.assetId) s =
      m.quoteFill slipRate (0 < first.feeBps) s last := by
  have own : ∀ row ∈ front, row.assetId = s.assetId := fun row mem =>
    of_decide_eq_true (Bool.and_eq_true_iff.mp (Bool.and_eq_true_iff.mp
      (List.mem_filter.mp (perm.mem_iff.mp mem)).2).2).1
  have ordered : front.Pairwise ByAssetTs := by
    refine sorted.imp_of_mem fun {a b} memA memB le => ?_
    rw [ByAssetTs, if_pos ((own a memA).trans (own b memB).symm)]
    exact le
  have same : upTo (tape TickRow.isBook (m.rearranged ticks s front) s.assetId)
      (s.tsMs + m.networkLatencyMs) = front := by
    rw [tape, sortRows_upTo, m.upTo_filter, m.arrived_rearranged perm, sortRows,
      ordered.insertionSort_eq]
  rw [← same] at head tail
  exact m.marketOutcome_of_ends slipRate (sorted_tape _ _ _) head tail

/-! ## Same fills, same outcomes -/

theorem FillModel.quoteFill_key {m : FillModel} {slipRate : ℚ} {hasFee : Bool} {s : Signal}
    {row : TickRow} {fill : Fill ℚ} (filled : m.quoteFill slipRate hasFee s row = some fill) :
    (fill.assetId, fill.timestampMs) = (s.assetId, s.tsMs) := by
  rw [quoteFill] at filled
  split at filled
  · rw [← Option.some.inj filled]
    rfl
  · cases filled

/-- The cost filter does not look at the signal. -/
theorem FillModel.quoteFill_isSome (m : FillModel) (slipRate : ℚ) (hasFee : Bool) (s : Signal)
    (row : TickRow) : (m.quoteFill slipRate hasFee s row).isSome = m.costOk hasFee row := by
  rw [quoteFill]
  split
  · rename_i ok
    exact ok.symm
  · rename_i rejected
    exact (Bool.eq_false_iff.mpr rejected).symm

theorem FillModel.marketOutcome_key {m : FillModel} {slipRate : ℚ} {book : List TickRow}
    {s : Signal} {fill : Fill ℚ} (filled : m.marketOutcome slipRate book s = some fill) :
    (fill.assetId, fill.timestampMs) = (s.assetId, s.tsMs) := by
  obtain ⟨row, -, quoted⟩ := Option.bind_eq_some_iff.mp filled
  exact m.quoteFill_key quoted

theorem FillModel.marketOutcome_isSome (m : FillModel) (slipRate : ℚ) (book : List TickRow)
    {s s' : Signal} (same : s.tsMs = s'.tsMs) :
    (m.marketOutcome slipRate book s).isSome = (m.marketOutcome slipRate book s').isSome := by
  rw [marketOutcome, marketOutcome, same]
  cases (book.takeWhile fun row => row.tsMs ≤ s'.tsMs + m.networkLatencyMs).getLast? with
  | none => rfl
  | some row =>
      rw [Option.bind_some, Option.bind_some, quoteFill_isSome, quoteFill_isSome]

/-- Two tables in a fixed order give the same fills only if every signal has the same outcome. -/
theorem FillModel.fillMarketBatched_sortRows_eq_iff (m : FillModel) (slipRate : ℚ)
    (ticks ticks' : List TickRow) (sigs : List Signal) :
    m.fillMarketBatched sortRows ticks sigs slipRate =
        m.fillMarketBatched sortRows ticks' sigs slipRate ↔
      ∀ s ∈ sigs, m.marketOutcome slipRate (tape TickRow.isBook ticks s.assetId) s =
        m.marketOutcome slipRate (tape TickRow.isBook ticks' s.assetId) s := by
  have uniform : ∀ (rows : List TickRow) (s s' : Signal),
      (s.assetId, s.tsMs) = (s'.assetId, s'.tsMs) →
        (m.marketOutcome slipRate (tape TickRow.isBook rows s.assetId) s).isSome =
          (m.marketOutcome slipRate (tape TickRow.isBook rows s'.assetId) s').isSome := by
    intro rows s s' same
    rw [(Prod.mk.inj same).1]
    exact m.marketOutcome_isSome slipRate _ (Prod.mk.inj same).2
  rw [m.fillMarketBatched_sortRows, m.fillMarketBatched_sortRows,
    filterMap_eq_filterMap_iff (fun s : Signal => (s.assetId, s.tsMs))
      (fun fill : Fill ℚ => (fill.assetId, fill.timestampMs))
      (fun _ _ filled => m.marketOutcome_key filled) (fun _ _ filled => m.marketOutcome_key filled)
      (uniform ticks) (uniform ticks')]
  exact forall_congr' fun s => by rw [(grouped_perm sigs).mem_iff]

/-- **Row order**: the market fills are the same for every order of the table and of the rows that
the query returns exactly if the rows that decide agree, for every signal. -/
theorem rowOrderFree_iff (m : FillModel) (slipRate : ℚ) (ticks : List TickRow)
    (sigs : List Signal) :
    m.RowOrderFree slipRate ticks sigs ↔ ∀ s ∈ sigs, m.Determined slipRate ticks s := by
  constructor
  · intro free s mem first last first' last' ends ends'
    obtain ⟨front, perm, sorted, head, tail⟩ := exists_sorted_of_endsOf ends
    obtain ⟨front', perm', sorted', head', tail'⟩ := exists_sorted_of_endsOf ends'
    have one := free _ (m.rearranged_perm perm) sortRows sortRows fetches_sortRows fetches_sortRows
    have other := free _ (m.rearranged_perm perm') sortRows sortRows fetches_sortRows
      fetches_sortRows
    have same := (m.fillMarketBatched_sortRows_eq_iff slipRate _ _ sigs).mp (one.symm.trans other)
      s mem
    rw [m.marketOutcome_rearranged slipRate perm sorted head tail,
      m.marketOutcome_rearranged slipRate perm' sorted' head' tail'] at same
    exact (m.quoteFill_eq_iff _ _ _ _ _ _).mp same
  · intro determined ticks' perm fetch fetch' fetches fetches'
    rw [m.fillMarketBatched_eq fetches, m.fillMarketBatched_eq fetches']
    refine List.filterMap_congr fun s mem => ?_
    have mem := (grouped_perm sigs).mem_iff.mp mem
    exact (determined s mem).outcome (sorted_historyOf fetches _ _ _ _)
      (sorted_historyOf fetches' _ _ _ _) (m.upTo_historyOf_perm fetches ticks mem)
      ((m.upTo_historyOf_perm fetches' ticks' mem).trans (m.arrived_perm perm s))

/-- The asset moved twice in one millisecond: which ask a buy order pays depends on the order of the
two rows. -/
theorem tied_rows_decide :
    let row (ask : ℚ) : TickRow :=
      ⟨1000, 0, 48 / 100, ask, .priceChange, ascii "no", none, none, none, 0⟩
    let buy : Signal := ⟨1000, ascii "no", .bid, 10, .market, none⟩
    ¬({} : FillModel).RowOrderFree (5 / 10000) [row (50 / 100), row (52 / 100)] [buy] := by
  intro row buy free
  have same := free [row (52 / 100), row (50 / 100)] (List.Perm.swap _ _ _) sortRows sortRows
    fetches_sortRows fetches_sortRows
  revert same
  decide +kernel

end Tickscope.Backtest
