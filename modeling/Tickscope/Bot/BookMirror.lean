import Mathlib.Algebra.Order.Field.Rat
import Mathlib.Data.List.Induction
import Tickscope.Bot.BookState
import Tickscope.Bot.FeedHandler

/-!
# What the books show of the feed

The handlers read an asset id and two prices of every entry and hand on only quotes of which both
prices are positive. `reported` are the entries as they are read. `books_mirror` says what the leg
of every token holds after any messages: the latest entry for it that has both prices, so that an
entry with an empty side leaves the leg as it was.
-/

namespace Tickscope.Bot

open Tickscope.Lib Tickscope.Lib.OnDemand

namespace FeedHandler

/-! ## Entries as they are read -/

/-- Both prices are positive. -/
def Quote.twoSided (q : Quote ℚ) : Bool := 0 < q.bestBid ∧ 0 < q.bestAsk

def Quote.prices (q : Quote ℚ) : ℚ × ℚ := (q.bestBid, q.bestAsk)

/-- An entry of `price_changes`. -/
def changeEntry (json : Simdjson ℚ) (leg : Fields) : List (Quote ℚ) :=
  match json.getString (field leg (ascii "asset_id")) with
  | .error _ => []
  | .ok assetId =>
      [⟨assetId, price json (field leg (ascii "best_bid")),
        price json (field leg (ascii "best_ask"))⟩]

/-- A snapshot, with the first price of either side. -/
def snapshotEntry (json : Simdjson ℚ) (snap : Fields) : Result (List (Quote ℚ)) :=
  match json.getString (field snap (ascii "asset_id")) with
  | .error _ => .ok []
  | .ok assetId =>
      match firstPrice json (field snap (ascii "bids")) with
      | .error e => .error e
      | .ok bestBid =>
          match firstPrice json (field snap (ascii "asks")) with
          | .error e => .error e
          | .ok bestAsk => .ok [⟨assetId, bestBid, bestAsk⟩]

/-- The entries of a message that the loops reach. -/
def reported (json : Simdjson ℚ) (payload : Str) : List (Quote ℚ) :=
  if payload = [] ∨ maxPayload < payload.length then []
  else
    match json.iterate payload with
    | .ok (.array elements) => (forObjects (snapshotEntry json) elements).out
    | .ok (.object obj) =>
        match json.getString (field obj (ascii "event_type")) with
        | .error _ => []
        | .ok eventType =>
            if eventType = ascii "price_change" then
              match getArray (field obj (ascii "price_changes")) with
              | .error _ => []
              | .ok changes => (forObjects (fun leg => .ok (changeEntry json leg)) changes).out
            else []
    | _ => []

theorem quote_eq (assetId : Str) (bestBid bestAsk : ℚ) :
    quote assetId bestBid bestAsk =
      [(⟨assetId, bestBid, bestAsk⟩ : Quote ℚ)].filter Quote.twoSided := by
  unfold quote
  by_cases oneSided : bestBid ≤ 0 ∨ bestAsk ≤ 0
  · rw [if_pos oneSided, List.filter_cons_of_neg, List.filter_nil]
    simp only [Quote.twoSided, decide_eq_true_eq, not_and_or, not_lt]
    exact oneSided
  · rw [if_neg oneSided, List.filter_cons_of_pos, List.filter_nil]
    simp only [Quote.twoSided, decide_eq_true_eq]
    simpa [not_or, not_le] using oneSided

theorem change_eq (json : Simdjson ℚ) (leg : Fields) :
    change json leg = (changeEntry json leg).filter Quote.twoSided := by
  unfold change changeEntry
  cases json.getString (field leg (ascii "asset_id")) with
  | error e => rfl
  | ok assetId => exact quote_eq ..

theorem snapshot_eq (json : Simdjson ℚ) (snap : Fields) :
    snapshot json snap = (snapshotEntry json snap).map (List.filter Quote.twoSided) := by
  unfold snapshot snapshotEntry
  cases json.getString (field snap (ascii "asset_id")) with
  | error e => rfl
  | ok assetId =>
      cases firstPrice json (field snap (ascii "bids")) with
      | error e => rfl
      | ok bestBid =>
          cases firstPrice json (field snap (ascii "asks")) with
          | error e => rfl
          | ok bestAsk => exact congrArg _ (quote_eq ..)

/-- **The guard.** What is handed on are the entries with both prices. -/
theorem onMessage_out (json : Simdjson ℚ) (payload : Str) :
    (onMessage json payload).out = (reported json payload).filter Quote.twoSided := by
  have snapshots : snapshot json = fun snap =>
      (snapshotEntry json snap).map (List.filter Quote.twoSided) := funext (snapshot_eq json)
  have changes : (fun leg => Except.ok (change json leg) : Fields → Result (List (Quote ℚ))) =
      fun leg => Except.map (List.filter Quote.twoSided) (.ok (changeEntry json leg)) :=
    funext fun leg => congrArg _ (change_eq json leg)
  unfold onMessage reported
  by_cases refused : payload = [] ∨ maxPayload < payload.length
  · rw [if_pos refused, if_pos refused]
    rfl
  · rw [if_neg refused, if_neg refused]
    cases json.iterate payload with
    | error e => rfl
    | ok doc =>
        cases doc with
        | array elements =>
            dsimp only
            rw [handleBookSnapshot, getArray, snapshots, forObjects_filter]
        | object obj =>
            dsimp only
            rw [handlePriceChange, getObject, changes]
            dsimp only
            cases json.getString (field obj (ascii "event_type")) with
            | error e => rfl
            | ok eventType =>
                dsimp only
                by_cases priceChange : eventType = ascii "price_change"
                · rw [if_pos priceChange, if_pos priceChange]
                  cases getArray (field obj (ascii "price_changes")) with
                  | error e => rfl
                  | ok elements => exact forObjects_filter ..
                · rw [if_neg priceChange, if_neg priceChange]
                  rfl
        | _ => rfl

/-- The last entry for a token that has both prices. -/
def latest (token : Str) (entries : List (Quote ℚ)) : Option (Quote ℚ) :=
  (entries.filter fun q => q.assetId = token ∧ q.twoSided = true).getLast?

end FeedHandler

open FeedHandler

namespace BookState

/-! ## Legs -/

/-- The two prices of a token's leg, on the side that `on_tick` writes for it. -/
def legOf (info : MarketMeta) (token : Str) (bk : MarketBook) : ℚ × ℚ :=
  if info.yesTokenId = token then (bk.yesBid, bk.yesAsk) else (bk.noBid, bk.noAsk)

/-- The leg of a token in the market that it was last added with. -/
def leg (state : BookState) (token : Str) : Option (ℚ × ℚ) :=
  (state.tokenToCid.lookup token).bind fun cid =>
  (state.books.lookup cid).bind fun bk =>
  (state.metas.lookup cid).map fun info => legOf info token bk

def tracked (state : BookState) (token : Str) : Bool := (state.tokenToCid.lookup token).isSome

/-- `books_.on_tick` of a quote. -/
def apply (state : BookState) (q : Quote ℚ) : BookState :=
  (state.onTick q.assetId q.bestBid q.bestAsk).1

/-- What a message does to the books. -/
def message (json : Simdjson ℚ) (state : BookState) (payload : Str) : BookState :=
  (onMessage json payload).out.foldl apply state

/-- What changes the books: the discovery, and the feed. -/
inductive Event where
  | market (info : MarketMeta)
  | message (payload : Str)

def event (json : Simdjson ℚ) (state : BookState) : Event → BookState
  | .market info => state.addMarket info
  | .message payload => state.message json payload

/-- The books after some events. -/
def after (json : Simdjson ℚ) (events : List Event) : BookState := events.foldl (event json) new

/-- Every token belongs to a market that has a book, as one of its two tokens. -/
def WellFormed (state : BookState) : Prop :=
  ∀ token cid, state.tokenToCid.lookup token = some cid →
    ∃ bk info, state.books.lookup cid = some bk ∧ state.metas.lookup cid = some info ∧
      (token = info.yesTokenId ∨ token = info.noTokenId)

theorem isSome_leg {state : BookState} (wf : WellFormed state) (token : Str) :
    (state.leg token).isSome = state.tracked token := by
  unfold leg tracked
  cases found : state.tokenToCid.lookup token with
  | none => rfl
  | some cid =>
      obtain ⟨bk, info, book, meta_, -⟩ := wf token cid found
      rw [Option.bind_some, book, Option.bind_some, meta_]
      rfl

theorem wellFormed_new : WellFormed new := by
  intro token cid found
  rw [new, AList.lookup_empty] at found
  cases found

theorem wellFormed_addMarket {state : BookState} (wf : WellFormed state) (info : MarketMeta) :
    WellFormed (state.addMarket info) := by
  unfold addMarket
  split
  · exact wf
  · rename_i untracked
    rw [Option.not_isSome_iff_eq_none] at untracked
    intro token cid found
    dsimp only at found ⊢
    by_cases no : token = info.noTokenId
    · rw [no, AList.lookup_insert] at found
      cases found
      exact ⟨_, _, AList.lookup_insert _, AList.lookup_insert _, .inr no⟩
    · rw [AList.lookup_insert_ne no] at found
      by_cases yes : token = info.yesTokenId
      · rw [yes, AList.lookup_insert] at found
        cases found
        exact ⟨_, _, AList.lookup_insert _, AList.lookup_insert _, .inl yes⟩
      · rw [AList.lookup_insert_ne yes] at found
        obtain ⟨bk, info', book, meta_, either⟩ := wf token cid found
        have other : cid ≠ info.conditionId := by
          intro same
          rw [same, untracked] at book
          cases book
        exact ⟨bk, info', (AList.lookup_insert_ne other).trans book,
          (AList.lookup_insert_ne other).trans meta_, either⟩

@[simp] theorem tokenToCid_apply (state : BookState) (q : Quote ℚ) :
    (state.apply q).tokenToCid = state.tokenToCid := by
  unfold apply onTick
  split
  · rfl
  · split <;> rfl

theorem apply_of_untracked {state : BookState} {q : Quote ℚ}
    (untracked : state.tracked q.assetId = false) : state.apply q = state := by
  rw [tracked, Option.isSome_eq_false_iff, Option.isNone_iff_eq_none] at untracked
  rw [apply, onTick, untracked]

theorem wellFormed_apply {state : BookState} (wf : WellFormed state) (q : Quote ℚ) :
    WellFormed (state.apply q) := by
  intro token cid found
  rw [tokenToCid_apply] at found
  obtain ⟨bk, info, book, meta_, either⟩ := wf token cid found
  have kept : ∃ bk', (state.apply q).books.lookup cid = some bk' := by
    unfold apply onTick
    split
    · exact ⟨bk, book⟩
    · rename_i cid' _
      split
      · by_cases same : cid = cid'
        · rw [same]
          exact ⟨_, AList.lookup_insert _⟩
        · exact ⟨bk, (AList.lookup_insert_ne same).trans book⟩
      · exact ⟨bk, book⟩
  obtain ⟨bk', book'⟩ := kept
  have metas : (state.apply q).metas = state.metas := metas_onTick ..
  exact ⟨bk', info, book', by rw [metas, meta_], either⟩

/-- `bk` with the quote on the leg of its token. -/
def written (info : MarketMeta) (q : Quote ℚ) (bk : MarketBook) : MarketBook :=
  if info.yesTokenId = q.assetId then { bk with yesBid := q.bestBid, yesAsk := q.bestAsk }
  else { bk with noBid := q.bestBid, noAsk := q.bestAsk }

theorem legOf_written (info : MarketMeta) (q : Quote ℚ) (bk : MarketBook) :
    legOf info q.assetId (written info q bk) = q.prices := by
  unfold legOf written
  split <;> rfl

theorem legOf_written_of_ne {info : MarketMeta} {q : Quote ℚ} {token : Str} (bk : MarketBook)
    (own : q.assetId = info.yesTokenId ∨ q.assetId = info.noTokenId)
    (other : token = info.yesTokenId ∨ token = info.noTokenId) (ne : q.assetId ≠ token) :
    legOf info token (written info q bk) = legOf info token bk := by
  unfold legOf written
  by_cases yes : info.yesTokenId = q.assetId
  · rw [if_pos yes, if_neg (yes ▸ ne), if_neg (yes ▸ ne)]
  · -- the quote is for the other leg
    have no : q.assetId = info.noTokenId := own.resolve_left (Ne.symm yes)
    have here : info.yesTokenId = token := by
      refine (other.resolve_right fun same => ne ?_).symm
      rw [no, same]
    rw [if_neg yes, if_pos here, if_pos here]

theorem books_apply {state : BookState} {q : Quote ℚ} {cid : Str} {bk : MarketBook}
    {info : MarketMeta} (own : state.tokenToCid.lookup q.assetId = some cid)
    (book : state.books.lookup cid = some bk) (meta_ : state.metas.lookup cid = some info) :
    (state.apply q).books = state.books.insert cid (written info q bk) := by
  rw [apply, onTick, own]
  dsimp only
  rw [book, meta_]
  rfl

/-- A quote reaches the leg of its token and no other. -/
theorem leg_apply {state : BookState} (wf : WellFormed state) (q : Quote ℚ) (token : Str) :
    (state.apply q).leg token =
      if q.assetId = token then (state.leg token).map fun _ => q.prices else state.leg token := by
  have metas : (state.apply q).metas = state.metas := metas_onTick ..
  cases own : state.tokenToCid.lookup q.assetId with
  | none =>
      have untracked : state.tracked q.assetId = false := by
        rw [tracked, own]
        rfl
      rw [apply_of_untracked untracked]
      split
      · rename_i same
        rw [← same, leg, own]
        rfl
      · rfl
  | some cid =>
      obtain ⟨bk, info, book, meta_, either⟩ := wf _ _ own
      rw [leg, leg, tokenToCid_apply, metas, books_apply own book meta_]
      by_cases same : q.assetId = token
      · rw [if_pos same, ← same, own, Option.bind_some, Option.bind_some, AList.lookup_insert,
          book, meta_, Option.bind_some, Option.bind_some, Option.map_some, Option.map_some,
          Option.map_some, legOf_written]
      · rw [if_neg same]
        cases found : state.tokenToCid.lookup token with
        | none => rfl
        | some cid' =>
            rw [Option.bind_some, Option.bind_some]
            by_cases market : cid' = cid
            · -- the other token of the same market
              obtain ⟨-, info', -, meta', either'⟩ := wf _ _ found
              rw [market] at meta' ⊢
              cases meta_.symm.trans meta'
              rw [AList.lookup_insert, book, meta_, Option.bind_some, Option.bind_some,
                Option.map_some, Option.map_some, legOf_written_of_ne bk either either' same]
            · rw [AList.lookup_insert_ne market]

/-! ## Runs -/

theorem wellFormed_foldl_apply {state : BookState} (wf : WellFormed state) (qs : List (Quote ℚ)) :
    WellFormed (qs.foldl apply state) := by
  induction qs generalizing state with
  | nil => exact wf
  | cons q qs ih => exact ih (wellFormed_apply wf q)

theorem wellFormed_after (json : Simdjson ℚ) (events : List Event) :
    WellFormed (after json events) := by
  induction events using List.reverseRecOn with
  | nil => exact wellFormed_new
  | append_singleton events e ih =>
      rw [after, List.foldl_concat]
      cases e with
      | market info => exact wellFormed_addMarket ih info
      | message payload => exact wellFormed_foldl_apply ih _

@[simp] theorem tokenToCid_foldl_apply (state : BookState) (qs : List (Quote ℚ)) :
    (qs.foldl apply state).tokenToCid = state.tokenToCid := by
  induction qs generalizing state with
  | nil => rfl
  | cons q qs ih => rw [List.foldl_cons, ih, tokenToCid_apply]

/-- After some quotes, a leg shows the last one for its token. -/
theorem leg_foldl_apply {state : BookState} (wf : WellFormed state) (qs : List (Quote ℚ))
    (token : Str) :
    (qs.foldl apply state).leg token =
      (state.leg token).map fun before =>
        (((qs.filter fun q => q.assetId = token).getLast?).map Quote.prices).getD before := by
  induction qs using List.reverseRecOn with
  | nil => simp
  | append_singleton qs q ih =>
      rw [List.foldl_concat, leg_apply (wellFormed_foldl_apply wf qs), ih, List.filter_append]
      by_cases same : q.assetId = token
      · have own : [q].filter (fun q => decide (q.assetId = token)) = [q] := by simp [same]
        rw [if_pos same, own, List.getLast?_concat, Option.map_map]
        rfl
      · have other : [q].filter (fun q => decide (q.assetId = token)) = [] := by simp [same]
        rw [if_neg same, other, List.append_nil]

/-- Quotes for tokens that are not tracked do not count. -/
theorem foldl_apply_filter (state : BookState) (qs : List (Quote ℚ)) :
    qs.foldl apply state = (qs.filter fun q => state.tracked q.assetId).foldl apply state := by
  induction qs using List.reverseRecOn with
  | nil => rfl
  | append_singleton qs q ih =>
      rw [List.foldl_concat, List.filter_append, List.foldl_append, ← ih]
      have same : (qs.foldl apply state).tracked q.assetId = state.tracked q.assetId := by
        rw [tracked, tracked, tokenToCid_foldl_apply]
      cases own : state.tracked q.assetId with
      | true => simp [own]
      | false =>
          rw [apply_of_untracked (same.trans own)]
          simp [own]

theorem messages_eq (json : Simdjson ℚ) (state : BookState) (payloads : List Str) :
    payloads.foldl (message json) state =
      ((payloads.flatMap (reported json)).filter Quote.twoSided).foldl apply state := by
  rw [List.filter_flatMap, List.foldl_flatMap]
  refine congrFun (congrFun (congrArg _ (funext fun state' => funext fun payload => ?_)) _) _
  rw [message, onMessage_out]

/-- **The books and the feed.** Whatever has happened before, after any messages every tracked
token has a leg; it holds the prices of the latest entry for the token that has both, and without
one what it held before. Entries for tokens that are not tracked change nothing. -/
theorem books_mirror (json : Simdjson ℚ) (events : List Event) (payloads : List Str) :
    (∀ token, (payloads.foldl (message json) (after json events)).leg token =
        ((after json events).leg token).map fun before =>
          ((latest token (payloads.flatMap (reported json))).map Quote.prices).getD before) ∧
      (∀ token, ((after json events).leg token).isSome = (after json events).tracked token) ∧
      payloads.foldl (message json) (after json events) =
        ((payloads.flatMap (reported json)).filter fun q =>
          (after json events).tracked q.assetId && q.twoSided).foldl apply (after json events) := by
  have wf := wellFormed_after json events
  refine ⟨fun token => ?_, isSome_leg wf, ?_⟩
  · rw [messages_eq, leg_foldl_apply wf, List.filter_filter, latest]
    simp only [Bool.decide_and, Bool.decide_eq_true]
  · rw [messages_eq, foldl_apply_filter, List.filter_filter]

/-! ## A side that becomes empty -/

def feedMarket : MarketMeta := ⟨ascii "0xc", ascii "Bitcoin?", ascii "Y", ascii "N", 0⟩

/-- A `price_change` for the YES token with this bid, and an ask of 0.5. -/
def bidMessage (bid : Str) : Str :=
  ascii "\x7b\"event_type\":\"price_change\",\"price_changes\":[\x7b\"asset_id\":\"Y\"," ++
    ascii "\"best_bid\":\"" ++ bid ++ ascii "\",\"best_ask\":\"0.5\"\x7d]\x7d"

def bidFields (bid : Str) : Fields :=
  [(ascii "event_type", .ok (.string (ascii "price_change"))),
    (ascii "price_changes", .ok (.array [.ok (.object
      [(ascii "asset_id", .ok (.string (ascii "Y"))), (ascii "best_bid", .ok (.string bid)),
        (ascii "best_ask", .ok (.string (ascii "0.5")))])]))]

/-- A parser that knows the messages with a bid of 0.4 and without a bid. -/
def bidJson : Simdjson ℚ where
  iterate text :=
    if text = bidMessage (ascii "0.4") then .ok (.object (bidFields (ascii "0.4")))
    else if text = bidMessage (ascii "0") then .ok (.object (bidFields (ascii "0")))
    else .error (.parse 3)
  unescape := .ok
  uint64InString _ := .error (.parse 9)
  doubleInString raw :=
    if raw = ascii "0.4" then .ok (2 / 5)
    else if raw = ascii "0.5" then .ok (1 / 2)
    else if raw = ascii "0" then .ok 0
    else .error (.parse 9)

/-- The bids go, and the leg keeps the bid of 0.4 and stays valid. -/
theorem books_mirror_fails_at_empty_side :
    ((reported bidJson (bidMessage (ascii "0.4")) ++
        reported bidJson (bidMessage (ascii "0"))).map Quote.prices =
      [(2 / 5, 1 / 2), (0, 1 / 2)]) ∧
    ([bidMessage (ascii "0.4"), bidMessage (ascii "0")].foldl (message bidJson)
      (after bidJson [.market feedMarket])).getBook (ascii "0xc") = some ⟨2 / 5, 1 / 2, 0, 0⟩ ∧
    MarketBook.yesValid ⟨2 / 5, 1 / 2, 0, 0⟩ = true ∧
    ¬ ∀ token q, ([bidMessage (ascii "0.4"), bidMessage (ascii "0")].flatMap
          (reported bidJson)).reverse.find? (fun e => e.assetId = token) = some q →
        ([bidMessage (ascii "0.4"), bidMessage (ascii "0")].foldl (message bidJson)
          (after bidJson [.market feedMarket])).leg token = some q.prices := by
  have kept : ([bidMessage (ascii "0.4"), bidMessage (ascii "0")].foldl (message bidJson)
      (after bidJson [.market feedMarket])).leg (ascii "Y") = some (2 / 5, 1 / 2) := by
    decide +kernel
  refine ⟨by decide +kernel, by decide +kernel, by decide +kernel, fun mirrors => ?_⟩
  have emptied := mirrors (ascii "Y") ⟨ascii "Y", 0, 1 / 2⟩ (by rfl)
  rw [kept] at emptied
  exact absurd emptied (by decide +kernel)

end BookState

end Tickscope.Bot
