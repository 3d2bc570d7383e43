import Mathlib.Data.List.Forall2
import Tickscope.Bot.BookMirror

/-!
# Book snapshots

`handle_book_snapshot` takes the first element of `bids` and of `asks`, which its comments say is
the best one. `leg_of_snapshot` says what the leg of a token holds after a snapshot, whatever the
order of the levels, and when that is the best bid and the best ask.
-/

namespace Tickscope.Bot

open Tickscope.Lib Tickscope.Lib.OnDemand

namespace FeedHandler

/-! ## What a snapshot says -/

/-- The prices of one side, in the order of the message. -/
structure Levels where
  first : ℚ
  rest : List ℚ
  positive : ∀ p ∈ first :: rest, 0 < p

namespace Levels

def prices (levels : Levels) : List ℚ := levels.first :: levels.rest

def Highest (levels : Levels) (p : ℚ) : Prop := p ∈ levels.prices ∧ ∀ q ∈ levels.prices, q ≤ p

def Lowest (levels : Levels) (p : ℚ) : Prop := p ∈ levels.prices ∧ ∀ q ∈ levels.prices, p ≤ q

theorem first_pos (levels : Levels) : 0 < levels.first :=
  levels.positive _ List.mem_cons_self

theorem highest_first {levels : Levels} (sorted : levels.prices.Pairwise (· ≥ ·)) :
    levels.Highest levels.first :=
  ⟨List.mem_cons_self, List.forall_mem_cons.mpr ⟨le_rfl, (List.pairwise_cons.mp sorted).1⟩⟩

theorem lowest_first {levels : Levels} (sorted : levels.prices.Pairwise (· ≤ ·)) :
    levels.Lowest levels.first :=
  ⟨List.mem_cons_self, List.forall_mem_cons.mpr ⟨le_rfl, (List.pairwise_cons.mp sorted).1⟩⟩

end Levels

/-- A book object of a snapshot. -/
structure Book where
  assetId : Str
  bids : Levels
  asks : Levels

/-- What `handle_book_snapshot` reads of it. -/
def Book.quote (book : Book) : Quote ℚ := ⟨book.assetId, book.bids.first, book.asks.first⟩

/-- The parser shows one level with each price. -/
def ShowsLevels (json : Simdjson ℚ) (side : Result Value) (levels : Levels) : Prop :=
  ∃ elements, side = .ok (.array elements) ∧
    List.Forall₂ (fun element p => ∃ level, element = .ok (.object level) ∧
      json.getDoubleInString (field level (ascii "price")) = .ok p) elements levels.prices

def ShowsBook (json : Simdjson ℚ) (element : Result Value) (book : Book) : Prop :=
  ∃ snap, element = .ok (.object snap) ∧
    json.getString (field snap (ascii "asset_id")) = .ok book.assetId ∧
    ShowsLevels json (field snap (ascii "bids")) book.bids ∧
    ShowsLevels json (field snap (ascii "asks")) book.asks

/-- The document is an array of these books. -/
def ShowsBooks (json : Simdjson ℚ) (doc : Result Value) (books : List Book) : Prop :=
  ∃ elements, doc = .ok (.array elements) ∧ List.Forall₂ (ShowsBook json) elements books

/-! ## What is read of it -/

theorem firstPrice_of_shows {json : Simdjson ℚ} {side : Result Value} {levels : Levels}
    (shown : ShowsLevels json side levels) : firstPrice json side = .ok levels.first := by
  obtain ⟨elements, rfl, all⟩ := shown
  obtain ⟨_, rest, ⟨level, rfl, read⟩, -, rfl⟩ := List.forall₂_cons_right_iff.mp all
  show Except.ok (price json (field level (ascii "price"))) = _
  rw [price, read]

theorem snapshot_of_shows {json : Simdjson ℚ} {snap : Fields} {book : Book}
    (shown : ShowsBook json (.ok (.object snap)) book) :
    snapshot json snap = .ok [book.quote] := by
  obtain ⟨_, same, read, bids, asks⟩ := shown
  cases same
  have positive : ¬ (book.bids.first ≤ 0 ∨ book.asks.first ≤ 0) :=
    not_or.mpr ⟨not_le.mpr book.bids.first_pos, not_le.mpr book.asks.first_pos⟩
  rw [snapshot, read, firstPrice_of_shows bids, firstPrice_of_shows asks]
  exact congrArg _ (if_neg positive)

/-- One quote is handed on for each book, and nothing is thrown. -/
theorem handleBookSnapshot_of_shows {json : Simdjson ℚ} {doc : Result Value} {books : List Book}
    (shown : ShowsBooks json doc books) :
    handleBookSnapshot json doc = .done (books.map Book.quote) := by
  obtain ⟨elements, rfl, all⟩ := shown
  rw [handleBookSnapshot, getArray]
  dsimp only
  induction all with
  | nil => rfl
  | cons first _ ih =>
      obtain ⟨snap, rfl, -⟩ := id first
      rw [forObjects, getObject]
      dsimp only
      rw [snapshot_of_shows first, ih]
      rfl

/-- The last book of the message for a token. -/
def lastBook (token : Str) (books : List Book) : Option Book :=
  (books.filter fun book => book.assetId = token).getLast?

theorem getLast?_quotes (token : Str) (books : List Book) :
    ((books.map Book.quote).filter fun q => q.assetId = token).getLast? =
      (lastBook token books).map Book.quote := by
  rw [List.filter_map, List.getLast?_map]
  rfl

end FeedHandler

open FeedHandler

namespace BookState

/-- What `handle_book_snapshot` of a document does to the books. -/
def snapshot (json : Simdjson ℚ) (state : BookState) (doc : Result Value) : BookState :=
  (handleBookSnapshot json doc).out.foldl apply state

/-- `on_message` passes on a snapshot that is not too large. -/
theorem message_of_shows {json : Simdjson ℚ} {state : BookState} {payload : Str}
    {books : List Book} (shown : ShowsBooks json (json.iterate payload) books)
    (taken : payload ≠ [] ∧ payload.length ≤ maxPayload) :
    state.message json payload = state.snapshot json (json.iterate payload) := by
  obtain ⟨elements, document, -⟩ := shown
  have taken : ¬ (payload = [] ∨ maxPayload < payload.length) :=
    not_or.mpr ⟨taken.1, not_lt.mpr taken.2⟩
  rw [message, snapshot, onMessage, if_neg taken, document]

/-- The leg holds the best prices of the book. -/
def HoldsBest (state : BookState) (token : Str) (book : Book) : Prop :=
  ∃ bid ask, state.leg token = some (bid, ask) ∧ book.bids.Highest bid ∧ book.asks.Lowest ask

/-- **A snapshot seeds the first prices.** Whatever has happened before, after a snapshot the leg
of a tracked token in it holds the first bid and the first ask of the last book for the token.
These are the best prices exactly if both sides begin with them, as when they are sorted. -/
theorem leg_of_snapshot (json : Simdjson ℚ) (events : List Event) (doc : Result Value)
    (books : List Book) (shown : ShowsBooks json doc books) (token : Str)
    (tracked : (after json events).tracked token = true) (book : Book)
    (last : lastBook token books = some book) :
    ((after json events).snapshot json doc).leg token =
        some (book.bids.first, book.asks.first) ∧
      (((after json events).snapshot json doc).HoldsBest token book ↔
        book.bids.Highest book.bids.first ∧ book.asks.Lowest book.asks.first) ∧
      (book.bids.prices.Pairwise (· ≥ ·) → book.asks.prices.Pairwise (· ≤ ·) →
        ((after json events).snapshot json doc).HoldsBest token book) := by
  have wf := wellFormed_after json events
  have leg : ((after json events).snapshot json doc).leg token =
      some (book.bids.first, book.asks.first) := by
    rw [← isSome_leg wf] at tracked
    obtain ⟨before, held⟩ := Option.isSome_iff_exists.mp tracked
    rw [snapshot, handleBookSnapshot_of_shows shown]
    dsimp only [Ran.done]
    rw [leg_foldl_apply wf, held, getLast?_quotes, last]
    rfl
  have best : ((after json events).snapshot json doc).HoldsBest token book ↔
      book.bids.Highest book.bids.first ∧ book.asks.Lowest book.asks.first := by
    constructor
    · rintro ⟨bid, ask, held, highest, lowest⟩
      cases leg.symm.trans held
      exact ⟨highest, lowest⟩
    · exact fun both => ⟨_, _, leg, both⟩
  refine ⟨leg, best, fun bids asks => best.mpr ⟨?_, ?_⟩⟩
  · exact Levels.highest_first bids
  · exact Levels.lowest_first asks

/-- A snapshot of one token with the levels of either side in this order. -/
def oneBook (bids asks : List Str) : Result Value :=
  let level (p : Str) : Result Value := .ok (.object [(ascii "price", .ok (.string p))])
  .ok (.array [.ok (.object [(ascii "asset_id", .ok (.string (ascii "Y"))),
    (ascii "bids", .ok (.array (bids.map level))), (ascii "asks", .ok (.array (asks.map level)))])])

/-- A parser that knows four prices. -/
def levelJson : Simdjson ℚ where
  iterate _ := .error (.parse 3)
  unescape := .ok
  uint64InString _ := .error (.parse 9)
  doubleInString raw :=
    if raw = ascii "0.1" then .ok (1 / 10) else if raw = ascii "0.4" then .ok (2 / 5)
    else if raw = ascii "0.5" then .ok (1 / 2) else if raw = ascii "0.9" then .ok (9 / 10)
    else .error (.parse 9)

/-- The books of these snapshots, best levels first and best levels last. -/
def bestFirst : Book :=
  ⟨ascii "Y", ⟨2 / 5, [1 / 10], by decide +kernel⟩, ⟨1 / 2, [9 / 10], by decide +kernel⟩⟩

def bestLast : Book :=
  ⟨ascii "Y", ⟨1 / 10, [2 / 5], by decide +kernel⟩, ⟨9 / 10, [1 / 2], by decide +kernel⟩⟩

theorem shows_oneBook (bid bid' ask ask' : Str) {book : Book} (token : book.assetId = ascii "Y")
    (bids : [bid, bid'].map levelJson.doubleInString = book.bids.prices.map Except.ok)
    (asks : [ask, ask'].map levelJson.doubleInString = book.asks.prices.map Except.ok) :
    ShowsBooks levelJson (oneBook [bid, bid'] [ask, ask']) [book] := by
  have levels : ∀ {texts : List Str} {levels : Levels},
      texts.map levelJson.doubleInString = levels.prices.map Except.ok →
        ShowsLevels levelJson (.ok (.array (texts.map fun p =>
          .ok (.object [(ascii "price", .ok (.string p))])))) levels := by
    intro texts levels read
    refine ⟨_, rfl, List.forall₂_map_left_iff.mpr ?_⟩
    have all : List.Forall₂ (fun p q => p = q) (texts.map levelJson.doubleInString)
        (levels.prices.map Except.ok) := List.forall₂_eq_eq_eq ▸ read
    rw [List.forall₂_map_left_iff, List.forall₂_map_right_iff] at all
    exact all.imp fun text p eq => ⟨_, rfl, eq⟩
  exact ⟨_, rfl, .cons ⟨_, rfl, congrArg Except.ok token.symm, levels bids, levels asks⟩ .nil⟩

theorem leg_of_snapshot_sorted :
    let state := (after levelJson [.market feedMarket]).snapshot levelJson
      (oneBook [ascii "0.4", ascii "0.1"] [ascii "0.5", ascii "0.9"])
    state.leg (ascii "Y") = some (2 / 5, 1 / 2) ∧
      (state.HoldsBest (ascii "Y") bestFirst ↔
        bestFirst.bids.Highest (2 / 5) ∧ bestFirst.asks.Lowest (1 / 2)) ∧
      state.HoldsBest (ascii "Y") bestFirst := by
  have shown : ShowsBooks levelJson (oneBook [ascii "0.4", ascii "0.1"] [ascii "0.5", ascii "0.9"])
      [bestFirst] := shows_oneBook _ _ _ _ rfl (by decide +kernel) (by decide +kernel)
  have seeded := leg_of_snapshot levelJson [.market feedMarket] _ _ shown (ascii "Y")
    (by decide +kernel) bestFirst (by rfl)
  exact ⟨seeded.1, seeded.2.1, seeded.2.2 (by decide +kernel) (by decide +kernel)⟩

/-- The best levels come last, and the leg holds the worst. -/
theorem leg_of_snapshot_fails_unsorted :
    let doc := oneBook [ascii "0.1", ascii "0.4"] [ascii "0.9", ascii "0.5"]
    let state := after levelJson [.market feedMarket]
    ShowsBooks levelJson doc [bestLast] ∧ state.tracked (ascii "Y") = true ∧
      (state.snapshot levelJson doc).leg (ascii "Y") = some (1 / 10, 9 / 10) ∧
      ¬ (state.snapshot levelJson doc).HoldsBest (ascii "Y") bestLast := by
  have held : ((after levelJson [.market feedMarket]).snapshot levelJson
      (oneBook [ascii "0.1", ascii "0.4"] [ascii "0.9", ascii "0.5"])).leg (ascii "Y") =
        some (1 / 10, 9 / 10) := by decide +kernel
  refine ⟨shows_oneBook _ _ _ _ rfl (by decide +kernel) (by decide +kernel), by decide +kernel, held,
    ?_⟩
  rintro ⟨bid, ask, held', highest, -⟩
  cases held.symm.trans held'
  exact absurd (highest.2 (2 / 5) (by decide +kernel)) (by decide +kernel)

end BookState

end Tickscope.Bot
