import Mathlib.Data.List.Induction
import Tickscope.Bot.BookState

/-!
# The legs of the books

`add_market` and `on_tick` in any order. Which leg a tick is for is not stored: `on_tick` compares
the token with the metadata of its market. `Shows` says what the three maps contain after some
calls, in terms of the calls alone; `shows_call` is the step and `leg_routing` reads the accessors
off it.
-/

namespace Tickscope.Bot

open Tickscope.Lib

/-- The token is that of one of the two legs. -/
def MarketMeta.HasToken (info : MarketMeta) (token : Str) : Prop :=
  token = info.yesTokenId ∨ token = info.noTokenId

instance (info : MarketMeta) (token : Str) : Decidable (info.HasToken token) :=
  inferInstanceAs (Decidable (_ ∨ _))

namespace BookState

/-- A call on the books. -/
inductive Call where
  | addMarket (info : MarketMeta)
  | onTick (tokenId : Str) (bid ask : ℚ)

def call (state : BookState) : Call → BookState
  | .addMarket info => state.addMarket info
  | .onTick tokenId bid ask => (state.onTick tokenId bid ask).1

def afterCalls (calls : List Call) : BookState := calls.foldl call new

/-! ## The calls as a record -/

/-- The market that a call adds. -/
def Call.added : Call → Option MarketMeta
  | .addMarket info => some info
  | .onTick .. => none

/-- The prices that a call has for a token. -/
def Call.prices (token : Str) : Call → Option (ℚ × ℚ)
  | .addMarket _ => none
  | .onTick tokenId bid ask => if tokenId = token then some (bid, ask) else none

/-- The first metadata that was added for a market. -/
def firstMeta (calls : List Call) (cid : Str) : Option MarketMeta :=
  (calls.filterMap Call.added).find? fun info => info.conditionId = cid

/-- The calls since a market was first added. -/
def sinceAdded (cid : Str) : List Call → List Call
  | [] => []
  | c :: calls =>
      if c.added.map MarketMeta.conditionId = some cid then calls else sinceAdded cid calls

/-- The prices of the last tick for a token. -/
def lastTick (token : Str) (calls : List Call) : Option (ℚ × ℚ) :=
  (calls.filterMap (Call.prices token)).getLast?

/-- The last prices for a token since its market was first added, zeros without a tick. -/
def legSince (calls : List Call) (cid token : Str) : ℚ × ℚ :=
  (lastTick token (sinceAdded cid calls)).getD (0, 0)

/-- The book of a market: each leg has the last prices for its token. -/
def bookSince (calls : List Call) (info : MarketMeta) : MarketBook where
  yesBid := (legSince calls info.conditionId info.yesTokenId).1
  yesAsk := (legSince calls info.conditionId info.yesTokenId).2
  noBid := (legSince calls info.conditionId info.noTokenId).1
  noAsk := (legSince calls info.conditionId info.noTokenId).2

/-- The tracked markets have two tokens each and share none. -/
structure Apart (calls : List Call) : Prop where
  legs : ∀ {cid info}, firstMeta calls cid = some info → info.yesTokenId ≠ info.noTokenId
  markets : ∀ {cid cid' info info' token}, firstMeta calls cid = some info →
    firstMeta calls cid' = some info' → info.HasToken token → info'.HasToken token → cid = cid'

theorem firstMeta_addMarket (calls : List Call) (info : MarketMeta) (cid : Str) :
    firstMeta (calls ++ [.addMarket info]) cid =
      (firstMeta calls cid).or (if info.conditionId = cid then some info else none) := by
  rw [firstMeta, List.filterMap_append, List.find?_append]
  refine congrArg _ ?_
  by_cases same : info.conditionId = cid <;> simp [Call.added, same]

theorem firstMeta_onTick (calls : List Call) (tokenId : Str) (bid ask : ℚ) (cid : Str) :
    firstMeta (calls ++ [.onTick tokenId bid ask]) cid = firstMeta calls cid := by
  rw [firstMeta, List.filterMap_append]
  exact congrArg _ (List.append_nil _)

theorem conditionId_of_firstMeta {calls : List Call} {cid : Str} {info : MarketMeta}
    (first : firstMeta calls cid = some info) : info.conditionId = cid := by
  simpa using List.find?_some first

theorem firstMeta_concat_of_some {calls : List Call} {cid : Str} {info : MarketMeta}
    (first : firstMeta calls cid = some info) (c : Call) :
    firstMeta (calls ++ [c]) cid = some info := by
  cases c with
  | addMarket info' => rw [firstMeta_addMarket, first, Option.some_or]
  | onTick tokenId bid ask => rw [firstMeta_onTick, first]

theorem Apart.of_concat {calls : List Call} {c : Call} (apart : Apart (calls ++ [c])) :
    Apart calls where
  legs first := apart.legs (firstMeta_concat_of_some first c)
  markets first first' :=
    apart.markets (firstMeta_concat_of_some first c) (firstMeta_concat_of_some first' c)

theorem sinceAdded_concat_of_some {calls : List Call} {cid : Str} {info : MarketMeta}
    (first : firstMeta calls cid = some info) (c : Call) :
    sinceAdded cid (calls ++ [c]) = sinceAdded cid calls ++ [c] := by
  induction calls with
  | nil => cases first
  | cons c' calls ih =>
      rw [List.cons_append, sinceAdded, sinceAdded]
      split
      · rfl
      · rename_i other
        refine ih ?_
        rw [← first, firstMeta, firstMeta]
        cases c' with
        | onTick tokenId bid ask => rfl
        | addMarket info' =>
            have ne : info'.conditionId ≠ cid := fun same => other (congrArg some same)
            simp [Call.added, ne]

theorem sinceAdded_of_none {calls : List Call} {cid : Str} (none : firstMeta calls cid = none)
    {info : MarketMeta} (own : info.conditionId = cid) :
    sinceAdded cid (calls ++ [.addMarket info]) = [] := by
  induction calls with
  | nil => exact if_pos (congrArg some own)
  | cons c calls ih =>
      rw [List.cons_append, sinceAdded]
      cases c with
      | onTick tokenId bid ask => exact ih none
      | addMarket info' =>
          by_cases same : info'.conditionId = cid
          · simp [firstMeta, Call.added, same] at none
          · rw [if_neg (by simpa [Call.added] using same)]
            refine ih ?_
            simpa [firstMeta, Call.added, same] using none

/-! ## One call -/

theorem legSince_addMarket {calls : List Call} {cid : Str} {info : MarketMeta}
    (first : firstMeta calls cid = some info) (info' : MarketMeta) (token : Str) :
    legSince (calls ++ [.addMarket info']) cid token = legSince calls cid token := by
  rw [legSince, sinceAdded_concat_of_some first, lastTick, List.filterMap_append]
  exact congrArg (fun ticks => (List.getLast? ticks).getD (0, 0)) (List.append_nil _)

theorem legSince_of_none {calls : List Call} {info : MarketMeta}
    (none : firstMeta calls info.conditionId = none) (token : Str) :
    legSince (calls ++ [.addMarket info]) info.conditionId token = (0, 0) := by
  rw [legSince, sinceAdded_of_none none rfl]
  rfl

theorem legSince_onTick {calls : List Call} {cid : Str} {info : MarketMeta}
    (first : firstMeta calls cid = some info) (tokenId : Str) (bid ask : ℚ) (token : Str) :
    legSince (calls ++ [.onTick tokenId bid ask]) cid token =
      if tokenId = token then (bid, ask) else legSince calls cid token := by
  rw [legSince, sinceAdded_concat_of_some first, lastTick, List.filterMap_append]
  by_cases same : tokenId = token
  · simp [Call.prices, same]
  · simp [Call.prices, same, legSince, lastTick]

theorem bookSince_addMarket {calls : List Call} {cid : Str} {info : MarketMeta}
    (first : firstMeta calls cid = some info) (info' : MarketMeta) :
    bookSince (calls ++ [.addMarket info']) info = bookSince calls info := by
  rw [← conditionId_of_firstMeta first] at first
  simp only [bookSince, legSince_addMarket first]

/-- A market that is added has no prices. -/
theorem bookSince_of_none {calls : List Call} {info : MarketMeta}
    (none : firstMeta calls info.conditionId = none) :
    bookSince (calls ++ [.addMarket info]) info = .empty := by
  simp only [bookSince, legSince_of_none none, MarketBook.empty]

/-- A tick for one of the two tokens is on that leg. -/
theorem bookSince_onTick {calls : List Call} {cid : Str} {info : MarketMeta}
    (first : firstMeta calls cid = some info) (legs : info.yesTokenId ≠ info.noTokenId)
    {tokenId : Str} (own : info.HasToken tokenId) (bid ask : ℚ) :
    bookSince (calls ++ [.onTick tokenId bid ask]) info =
      if info.yesTokenId = tokenId then { bookSince calls info with yesBid := bid, yesAsk := ask }
      else { bookSince calls info with noBid := bid, noAsk := ask } := by
  rw [← conditionId_of_firstMeta first] at first
  simp only [bookSince, legSince_onTick first]
  rcases own with rfl | rfl
  · simp [legs]
  · simp [legs, legs.symm]

theorem bookSince_onTick_of_ne {calls : List Call} {cid : Str} {info : MarketMeta}
    (first : firstMeta calls cid = some info) {tokenId : Str} (other : ¬ info.HasToken tokenId)
    (bid ask : ℚ) : bookSince (calls ++ [.onTick tokenId bid ask]) info = bookSince calls info := by
  rw [← conditionId_of_firstMeta first] at first
  obtain ⟨yes, no⟩ := not_or.mp other
  simp only [bookSince, legSince_onTick first, if_neg yes, if_neg no]

/-! ## What the maps contain -/

/-- The three maps after some calls. -/
structure Shows (calls : List Call) (state : BookState) : Prop where
  metas : ∀ cid, state.metas.lookup cid = firstMeta calls cid
  books : ∀ cid, state.books.lookup cid = (firstMeta calls cid).map (bookSince calls)
  owner : ∀ {token cid}, state.tokenToCid.lookup token = some cid ↔
    ∃ info, firstMeta calls cid = some info ∧ info.HasToken token

theorem shows_new : Shows [] new where
  metas _ := rfl
  books _ := rfl
  owner := by
    intro token cid
    rw [new, AList.lookup_empty]
    exact iff_of_false nofun fun ⟨_, first, _⟩ => nomatch first

theorem Shows.addMarket_eq {calls : List Call} {state : BookState} (contents : Shows calls state)
    {info : MarketMeta} (tracked : (firstMeta calls info.conditionId).isSome) :
    state.addMarket info = state := by
  refine if_pos ?_
  rw [contents.books, Option.isSome_map]
  exact tracked

theorem Shows.onTick_eq {calls : List Call} {state : BookState} (contents : Shows calls state)
    {token : Str} (untracked : ∀ cid info, firstMeta calls cid = some info → ¬ info.HasToken token)
    (bid ask : ℚ) : state.onTick token bid ask = (state, []) := by
  have absent : state.tokenToCid.lookup token = none := by
    rw [Option.eq_none_iff_forall_ne_some]
    intro cid found
    obtain ⟨info, first, own⟩ := contents.owner.mp found
    exact untracked cid info first own
  rw [onTick, absent]

/-- Both tokens of the market are its own, the others those of whoever had them. -/
theorem lookup_insert_tokens (tokens : AList fun _ : Str => Str) (info : MarketMeta) (token : Str) :
    ((tokens.insert info.yesTokenId info.conditionId).insert info.noTokenId
        info.conditionId).lookup token =
      if info.HasToken token then some info.conditionId else tokens.lookup token := by
  by_cases no : token = info.noTokenId
  · rw [no, AList.lookup_insert, if_pos (.inr rfl)]
  · rw [AList.lookup_insert_ne no]
    by_cases yes : token = info.yesTokenId
    · rw [yes, AList.lookup_insert, if_pos (.inl rfl)]
    · have other : ¬ info.HasToken token := not_or.mpr ⟨yes, no⟩
      rw [AList.lookup_insert_ne yes, if_neg other]

/-- A market that is added again changes nothing, neither in the maps nor in what they should
contain. -/
theorem Shows.addTracked {calls : List Call} {state : BookState} (contents : Shows calls state)
    {info first : MarketMeta} (tracked : firstMeta calls info.conditionId = some first) :
    Shows (calls ++ [.addMarket info]) (state.addMarket info) := by
  have same : ∀ cid, firstMeta (calls ++ [.addMarket info]) cid = firstMeta calls cid := by
    intro cid
    rw [firstMeta_addMarket]
    split
    · rename_i own
      rw [← own, tracked, Option.some_or]
    · exact Option.or_none
  rw [contents.addMarket_eq (by rw [tracked]; rfl)]
  refine ⟨fun cid => by rw [same, contents.metas], fun cid => ?_, ?_⟩
  · rw [same, contents.books]
    exact Option.map_congr fun info' found => (bookSince_addMarket found info).symm
  · intro token cid
    rw [same, contents.owner]

/-- A market that is not tracked becomes so. -/
theorem Shows.addNew {calls : List Call} {state : BookState} (contents : Shows calls state)
    {info : MarketMeta} (untracked : firstMeta calls info.conditionId = none)
    (apart : Apart (calls ++ [.addMarket info])) :
    Shows (calls ++ [.addMarket info]) (state.addMarket info) := by
  have added : firstMeta (calls ++ [.addMarket info]) info.conditionId = some info := by
    rw [firstMeta_addMarket, untracked, Option.none_or, if_pos rfl]
  have others : ∀ cid, cid ≠ info.conditionId →
      firstMeta (calls ++ [.addMarket info]) cid = firstMeta calls cid := by
    intro cid ne
    rw [firstMeta_addMarket, if_neg ne.symm, Option.or_none]
  have absent : ¬ (state.books.lookup info.conditionId).isSome = true := by
    rw [contents.books, untracked]
    exact Bool.false_ne_true
  rw [BookState.addMarket, if_neg absent]
  refine ⟨fun cid => ?_, fun cid => ?_, ?_⟩
  · by_cases same : cid = info.conditionId
    · rw [same, AList.lookup_insert, added]
    · rw [AList.lookup_insert_ne same, others cid same, contents.metas]
  · by_cases same : cid = info.conditionId
    · rw [same, AList.lookup_insert, added, Option.map_some, bookSince_of_none untracked]
    · rw [AList.lookup_insert_ne same, others cid same, contents.books]
      exact Option.map_congr fun info' found => (bookSince_addMarket found info).symm
  · intro token cid
    dsimp only
    rw [lookup_insert_tokens]
    by_cases own : info.HasToken token
    · rw [if_pos own, Option.some_inj]
      constructor
      · rintro rfl
        exact ⟨info, added, own⟩
      · rintro ⟨info', found, own'⟩
        exact apart.markets added found own own'
    · rw [if_neg own, contents.owner]
      by_cases same : cid = info.conditionId
      · rw [same, added, untracked]
        refine iff_of_false (fun ⟨_, found, _⟩ => nomatch found) ?_
        rintro ⟨info', ⟨⟩, own'⟩
        exact own own'
      · rw [others cid same]

theorem Shows.addMarket {calls : List Call} {state : BookState} (contents : Shows calls state)
    {info : MarketMeta} (apart : Apart (calls ++ [.addMarket info])) :
    Shows (calls ++ [.addMarket info]) (state.addMarket info) := by
  cases first : firstMeta calls info.conditionId with
  | some info' => exact contents.addTracked first
  | none => exact contents.addNew first apart

/-- A tick of a tracked token. -/
theorem Shows.onTick {calls : List Call} {state : BookState} (contents : Shows calls state)
    {tokenId : Str} {bid ask : ℚ} (apart : Apart (calls ++ [.onTick tokenId bid ask])) :
    Shows (calls ++ [.onTick tokenId bid ask]) (state.onTick tokenId bid ask).1 := by
  have before := apart.of_concat
  have same := firstMeta_onTick calls tokenId bid ask
  by_cases tracked : ∃ cid info, firstMeta calls cid = some info ∧ info.HasToken tokenId
  · obtain ⟨cid, info, first, own⟩ := tracked
    have found : state.tokenToCid.lookup tokenId = some cid := contents.owner.mpr ⟨info, first, own⟩
    have book : state.books.lookup cid = some (bookSince calls info) := by
      rw [contents.books, first, Option.map_some]
    have meta' : state.metas.lookup cid = some info := (contents.metas cid).trans first
    have ticked : (state.onTick tokenId bid ask).1 = { state with
        books := state.books.insert cid (bookSince (calls ++ [.onTick tokenId bid ask]) info) } := by
      rw [BookState.onTick, found]
      dsimp only
      rw [book, meta', bookSince_onTick first (before.legs first) own]
    rw [ticked]
    refine ⟨fun cid' => by rw [same, contents.metas], fun cid' => ?_, ?_⟩
    · by_cases here : cid' = cid
      · rw [here, AList.lookup_insert, same, first, Option.map_some]
      · rw [AList.lookup_insert_ne here, same, contents.books]
        refine Option.map_congr fun info' first' => (bookSince_onTick_of_ne first' ?_ bid ask).symm
        exact fun own' => here (before.markets first' first own' own)
    · intro token cid'
      rw [same, contents.owner]
  · have untracked : ∀ cid info, firstMeta calls cid = some info → ¬ info.HasToken tokenId :=
      fun cid info first own => tracked ⟨cid, info, first, own⟩
    rw [contents.onTick_eq untracked]
    refine ⟨fun cid => by rw [same, contents.metas], fun cid => ?_, ?_⟩
    · rw [same, contents.books]
      refine Option.map_congr fun info first => (bookSince_onTick_of_ne first ?_ bid ask).symm
      exact untracked cid info first
    · intro token cid
      rw [same, contents.owner]

theorem shows_afterCalls (calls : List Call) (apart : Apart calls) :
    Shows calls (afterCalls calls) := by
  induction calls using List.reverseRecOn with
  | nil => exact shows_new
  | append_singleton calls c ih =>
      rw [afterCalls, List.foldl_concat]
      have before := ih apart.of_concat
      cases c with
      | addMarket info => exact before.addMarket apart
      | onTick tokenId bid ask => exact before.onTick apart

/-- **Routing by leg.** After any calls with markets that share no token, the metadata of a market
are the first that were added, and each leg of its book has the prices of the last tick for its
token since then. Adding a tracked market again changes nothing, and neither does a tick for a
token of no tracked market. -/
theorem leg_routing (calls : List Call) (apart : Apart calls) :
    (∀ cid, (afterCalls calls).getMeta cid = firstMeta calls cid) ∧
      (∀ cid, (afterCalls calls).getBook cid = (firstMeta calls cid).map (bookSince calls)) ∧
      (∀ info, (firstMeta calls info.conditionId).isSome →
        (afterCalls calls).addMarket info = afterCalls calls) ∧
      ∀ token, (∀ cid info, firstMeta calls cid = some info → ¬ info.HasToken token) →
        ∀ bid ask, (afterCalls calls).onTick token bid ask = (afterCalls calls, []) := by
  have contents := shows_afterCalls calls apart
  exact ⟨contents.metas, contents.books, fun _ => contents.addMarket_eq,
    fun _ untracked => contents.onTick_eq untracked⟩

/-- Two markets; the first is added again with other tokens, after a tick for each of its legs. -/
def twoMarkets : List Call :=
  [.addMarket ⟨ascii "a", [], ascii "1", ascii "2", 0⟩, .onTick (ascii "1") (2 / 5) (1 / 2),
    .addMarket ⟨ascii "b", [], ascii "3", ascii "4", 0⟩, .onTick (ascii "2") (3 / 5) (7 / 10),
    .addMarket ⟨ascii "a", [], ascii "3", ascii "5", 0⟩, .onTick (ascii "1") (1 / 5) (3 / 10)]

theorem leg_routing_twoMarkets :
    (afterCalls twoMarkets).getBook (ascii "a") = some ⟨1 / 5, 3 / 10, 3 / 5, 7 / 10⟩ := by
  have first : ∀ cid info, firstMeta twoMarkets cid = some info →
      info = ⟨ascii "a", [], ascii "1", ascii "2", 0⟩ ∨
        info = ⟨ascii "b", [], ascii "3", ascii "4", 0⟩ := by
    intro cid info found
    simp only [firstMeta, twoMarkets, Call.added, List.filterMap_cons, List.filterMap_nil,
      List.find?_cons] at found
    split at found
    · exact .inl (Option.some.inj found).symm
    · rename_i other
      rw [other] at found
      split at found
      · exact .inr (Option.some.inj found).symm
      · cases found
  have apart : Apart twoMarkets := by
    constructor
    · intro cid info found
      rcases first cid info found with rfl | rfl <;> decide
    · intro cid cid' info info' token found found' own own'
      rw [← conditionId_of_firstMeta found, ← conditionId_of_firstMeta found']
      rcases first cid info found with rfl | rfl <;> rcases first cid' info' found' with rfl | rfl
      · rfl
      · rcases own with rfl | rfl <;> exact absurd own' (by decide)
      · rcases own with rfl | rfl <;> exact absurd own' (by decide)
      · rfl
  rw [(leg_routing twoMarkets apart).2.1]
  decide +kernel

end BookState

end Tickscope.Bot
