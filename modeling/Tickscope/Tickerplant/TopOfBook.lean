import Tickscope.Lib.LevelBook
import Tickscope.Tickerplant.EndToEnd

/-!
# The top of the book

What the in-memory book says of a token against the order book that the token's ticks describe.
`apply_tick` keeps the last price and size of either side, and not the best ones: the reader sees
the top of a side exactly if the last tick of that side left a size at the price that it reports
as the best one (`topOfBook_iff`).
-/

namespace Tickscope.Tickerplant

open Tickscope.Lib Tickscope.Core Tickscope.Rdb

variable {D : Type}

/-- The ticks of one side, `bid` for side 0. -/
def sideTicks (bid : Bool) (ticks : List (Tick D)) : List (Tick D) :=
  ticks.filter fun t => decide (t.side = 0) = bid

/-- The best price that a tick reports for a side. -/
def reported (bid : Bool) (t : Tick D) : D := if bid then t.bestBid else t.bestAsk

section

variable [LinearOrder D] [Zero D]

/-- The resting sizes of a side that the ticks describe. -/
def levels (bid : Bool) (ticks : List (Tick D)) : D → D :=
  levelsOf ((sideTicks bid ticks).map fun t => (t.price, t.size))

/-- Price changes of one token that describe an order book: whenever something rests on a side,
the tick reports the best price there after its change. -/
structure Describes (token : Str) (ticks : List (Tick D)) : Prop where
  token : ∀ t ∈ ticks, t.key = token
  priceChange : ∀ t ∈ ticks, t.eventType = 0
  priced : ∀ t ∈ ticks, 0 < t.price
  reports : ∀ before t after, ticks = before ++ t :: after → ∀ bid,
    (active (levels bid (before ++ [t]))).Nonempty →
      IsBest bid (active (levels bid (before ++ [t]))) (reported bid t)

/-- What a reader of the book sees of a token: its slot, or zeros without one. -/
def view (book : OrderBook D) (token : Str) : MarketState D :=
  ((book.findIndex token).bind book.state).getD OrderBook.emptyState

/-- The four fields are the tops of the two sides. -/
structure TopOfBook (ticks : List (Tick D)) (ms : MarketState D) : Prop where
  bid : IsTop true (levels true ticks) ms.bestBidPrice ms.bestBidSize
  ask : IsTop false (levels false ticks) ms.bestAskPrice ms.bestAskSize

/-- The last tick of each side leaves a size at the price that it reports as the best one. -/
def LastAtTop (token : Str) (ticks : List (Tick D)) : Prop :=
  ∀ bid, ∀ t ∈ OrderBook.latest token bid ticks, 0 < t.size ∧ t.price = reported bid t

/-! ## One side -/

theorem levels_concat_of_ne {bid : Bool} {t : Tick D} (other : decide (t.side = 0) ≠ bid)
    (ticks : List (Tick D)) : levels bid (ticks ++ [t]) = levels bid ticks := by
  have none : decide (decide (t.side = 0) = bid) = false := decide_eq_false other
  rw [levels, sideTicks, List.filter_append, List.filter_singleton, none]
  exact congrArg _ (congrArg _ (List.append_nil _))

theorem levels_concat_self {bid : Bool} {t : Tick D} (same : decide (t.side = 0) = bid)
    (ticks : List (Tick D)) :
    levels bid (ticks ++ [t]) = Function.update (levels bid ticks) t.price t.size := by
  rw [levels, sideTicks, List.filter_append, List.filter_singleton, decide_eq_true same,
    List.map_append]
  exact levelsOf_concat _ t.price t.size

/-- After the last tick of a side nothing changes there. -/
theorem levels_latest {token : Str} (bid : Bool) {ticks : List (Tick D)}
    (only : ∀ t ∈ ticks, t.key = token) :
    match OrderBook.latest token bid ticks with
    | none => levels bid ticks = fun _ => 0
    | some t => ∃ before after, ticks = before ++ t :: after ∧
        levels bid ticks = levels bid (before ++ [t]) ∧ levels bid ticks t.price = t.size := by
  induction ticks using List.reverseRecOn with
  | nil => rfl
  | append_singleton ticks t ih =>
      rcases List.forall_mem_append.mp only with ⟨earlier, here⟩
      have key := here t (List.mem_singleton_self t)
      rw [OrderBook.latest_concat]
      by_cases same : decide (t.side = 0) = bid
      · rw [if_pos ⟨key, same⟩]
        refine ⟨ticks, [], rfl, rfl, ?_⟩
        rw [levels_concat_self same, Function.update_self]
      · rw [if_neg fun both => same both.2, levels_concat_of_ne same]
        have before := ih earlier
        cases found : OrderBook.latest token bid ticks with
        | none =>
            rw [found] at before
            exact before
        | some last =>
            rw [found] at before
            rcases before with ⟨before, after, eq, unchanged, size⟩
            exact ⟨before, after ++ [t], by rw [eq]; simp, unchanged, size⟩

/-- **One side.** The last price and size of a side are its top exactly if the tick was at the
top. -/
theorem isTop_latest_iff {token : Str} {ticks : List (Tick D)} (describes : Describes token ticks)
    (bid : Bool) :
    IsTop bid (levels bid ticks) (((OrderBook.latest token bid ticks).map Tick.price).getD 0)
        (((OrderBook.latest token bid ticks).map Tick.size).getD 0) ↔
      ∀ t ∈ OrderBook.latest token bid ticks, 0 < t.size ∧ t.price = reported bid t := by
  have last := levels_latest bid describes.token
  cases found : OrderBook.latest token bid ticks with
  | none =>
      rw [found] at last
      rw [last]
      exact iff_of_true (isTop_empty bid) nofun
  | some t =>
      rw [found] at last
      rcases last with ⟨before, after, eq, unchanged, size⟩
      have mem : t ∈ ticks := by
        rw [eq]
        exact List.mem_append_right _ List.mem_cons_self
      have best := describes.reports before t after eq bid
      rw [← unchanged] at best
      refine (isTop_iff size (describes.priced t mem).ne' best).trans ?_
      exact ⟨fun top u same => by cases same; exact top, fun top => top t rfl⟩

/-! ## The view -/

omit [LinearOrder D] [Zero D] in
theorem bookEvents_of_priceChange {ticks : List (Tick D)}
    (all : ∀ t ∈ ticks, t.eventType = 0) : System.bookEvents ticks = ticks :=
  List.filter_eq_self.mpr fun t mem => decide_eq_true (all t mem)

omit [LinearOrder D] in
/-- A token that is alone has a slot, and the reader finds it. -/
theorem view_ofTicks {token : Str} {ticks : List (Tick D)} (only : ∀ t ∈ ticks, t.key = token) :
    view (OrderBook.ofTicks ticks) token = OrderBook.quotes token ticks := by
  have routing := OrderBook.routing ticks
  cases found : (OrderBook.ofTicks ticks).findIndex token with
  | some idx =>
      rw [view, found, Option.bind_some, routing.state token idx found]
      rfl
  | none =>
      have absent : token ∉ OrderBook.keys ticks := by
        intro mem
        -- the token is the first one, so its rank is 0
        have first : rank token (OrderBook.keys ticks) = 0 := by
          cases ticks with
          | nil => cases mem
          | cons t ticks => simp [rank, OrderBook.keys, only t List.mem_cons_self]
        have slot := (routing.found token 0).mpr ⟨mem, by rw [first]; decide, by rw [first]; rfl⟩
        rw [found] at slot
        cases slot
      rw [view, found, OrderBook.quotes_of_not_mem absent]
      rfl

/-- The reader's view of the book that is fed with the ticks. -/
theorem view_bookEvents {token : Str} {ticks : List (Tick D)} (describes : Describes token ticks) :
    view (OrderBook.ofTicks (System.bookEvents ticks)) token = OrderBook.quotes token ticks := by
  rw [bookEvents_of_priceChange describes.priceChange, view_ofTicks describes.token]

theorem topOfBook_quotes_iff {token : Str} {ticks : List (Tick D)}
    (describes : Describes token ticks) :
    TopOfBook ticks (OrderBook.quotes token ticks) ↔ LastAtTop token ticks := by
  have bid := isTop_latest_iff describes true
  have ask := isTop_latest_iff describes false
  constructor
  · intro top side
    cases side with
    | true => exact bid.mp top.bid
    | false => exact ask.mp top.ask
  · exact fun last => ⟨bid.mpr (last true), ask.mpr (last false)⟩

/-- When `run()` is over, the book shows the top of the ticks it was given exactly if the last tick
of each side was there. -/
theorem topOfBook_of_complete {s : System D} {token : Str} {ticks : List (Tick D)}
    (complete : s.Complete ticks) (describes : Describes token ticks) :
    TopOfBook ticks (view s.book token) ↔ LastAtTop token ticks := by
  rw [complete.book, view_bookEvents describes]
  exact topOfBook_quotes_iff describes

/-- **The top of the book.** After the ticks of an order book have been fed to the book, the reader
sees its top if and only if the last tick of each side was there. -/
theorem topOfBook_iff {token : Str} {ticks : List (Tick D)} (describes : Describes token ticks) :
    TopOfBook ticks (view (OrderBook.ofTicks (System.bookEvents ticks)) token) ↔
      LastAtTop token ticks := by
  rw [view_bookEvents describes]
  exact topOfBook_quotes_iff describes

/-! ## Two bids -/

theorem describes_nil (token : Str) : Describes token ([] : List (Tick D)) where
  token := nofun
  priceChange := nofun
  priced := nofun
  reports := fun before t after eq => by
    cases (List.append_ne_nil_of_right_ne_nil before (List.cons_ne_nil t after)) eq.symm

/-- One more tick of the same book. -/
theorem Describes.concat {token : Str} {ticks : List (Tick D)} (describes : Describes token ticks)
    {t : Tick D} (key : t.key = token) (priceChange : t.eventType = 0) (priced : 0 < t.price)
    (reports : ∀ bid, (active (levels bid (ticks ++ [t]))).Nonempty →
      IsBest bid (active (levels bid (ticks ++ [t]))) (reported bid t)) :
    Describes token (ticks ++ [t]) where
  token := List.forall_mem_append.mpr
    ⟨describes.token, List.forall_mem_singleton.mpr key⟩
  priceChange := List.forall_mem_append.mpr
    ⟨describes.priceChange, List.forall_mem_singleton.mpr priceChange⟩
  priced := List.forall_mem_append.mpr
    ⟨describes.priced, List.forall_mem_singleton.mpr priced⟩
  reports := fun before u after eq => by
    rcases List.eq_nil_or_concat' after with rfl | ⟨after, v, rfl⟩
    · obtain ⟨rfl, last⟩ := List.append_inj' eq rfl
      cases last
      exact reports
    · rw [← List.cons_append, ← List.append_assoc] at eq
      obtain ⟨rfl, -⟩ := List.append_inj' eq rfl
      exact describes.reports before u after rfl

end

/-- A bid of the token "1", after which 60 is the best bid. -/
def bidTick (price size : Nat) : Tick Nat where
  timestamp := 0
  price := price
  size := size
  bestBid := 60
  bestAsk := 0
  side := 0
  eventType := 0
  assetId := ⟨49 :: List.replicate 79 0, rfl, by decide⟩

theorem asks_bidTick (ticks : List (Nat × Nat)) :
    levels false (ticks.map fun t => bidTick t.1 t.2) = fun _ => 0 := by
  have none : sideTicks false (ticks.map fun t => bidTick t.1 t.2) = [] := by
    refine List.filter_eq_nil_iff.mpr fun t mem => ?_
    obtain ⟨_, -, rfl⟩ := List.mem_map.mp mem
    exact Bool.false_ne_true
  rw [levels, none]
  rfl

/-- The best bid is 60 when it has a size and no higher bid has one. -/
theorem isBest_bidTick (ticks : List (Nat × Nat))
    (rests : 0 < levels true (ticks.map fun t => bidTick t.1 t.2) 60)
    (highest : ∀ p, 60 < p → levels true (ticks.map fun t => bidTick t.1 t.2) p = 0) (t : Nat × Nat)
    (bid : Bool)
    (some : (active (levels bid (ticks.map fun t => bidTick t.1 t.2))).Nonempty) :
    IsBest bid (active (levels bid (ticks.map fun t => bidTick t.1 t.2)))
      (reported bid (bidTick t.1 t.2)) := by
  cases bid with
  | true =>
      refine ⟨rests, fun p resting => Nat.not_lt.mp fun above => ?_⟩
      exact absurd (highest p above) (Nat.ne_of_gt resting)
  | false =>
      rw [asks_bidTick] at some
      rcases some with ⟨p, resting⟩
      exact (Nat.lt_irrefl 0 resting).elim

theorem describes_oneBid : Describes (ascii "1") [bidTick 60 10] :=
  (describes_nil _).concat (t := bidTick 60 10) rfl rfl (by decide)
    (isBest_bidTick [(60, 10)] (by decide) (fun p above => by
      simp [levels, sideTicks, levelsOf, bidTick, Function.update_of_ne (Nat.ne_of_gt above)])
      (60, 10))

theorem describes_twoBids : Describes (ascii "1") [bidTick 60 10, bidTick 50 5] :=
  describes_oneBid.concat (t := bidTick 50 5) rfl rfl (by decide)
    (isBest_bidTick [(60, 10), (50, 5)] (by decide) (fun p above => by
      have other : p ≠ 50 := by omega
      simp [levels, sideTicks, levelsOf, bidTick, Function.update_of_ne (Nat.ne_of_gt above),
        Function.update_of_ne other]) (50, 5))

theorem topOfBook_iff_oneBid :
    TopOfBook [bidTick 60 10]
        (view (OrderBook.ofTicks (System.bookEvents [bidTick 60 10])) (ascii "1")) ↔
      LastAtTop (ascii "1") [bidTick 60 10] :=
  topOfBook_iff describes_oneBid

/-- A bid below the top is shown as the best one. -/
theorem bid_below_top_shown :
    ¬ ∀ (token : Str) (ticks : List (Tick Nat)), Describes token ticks →
      TopOfBook ticks (view (OrderBook.ofTicks (System.bookEvents ticks)) token) := by
  intro always
  have top := always (ascii "1") _ describes_twoBids
  rw [view_bookEvents describes_twoBids, topOfBook_quotes_iff describes_twoBids] at top
  exact absurd (top true (bidTick 50 5) rfl).2 (by decide)

end Tickscope.Tickerplant
