import Mathlib.Data.List.AList
import Mathlib.Data.Rat.Defs
import Tickscope.Lib.Str

/-!
# The bot's books

`src/bot/BookState.hpp` and `BookState.cpp`: one book of two legs for each tracked
market. Every operation runs under one mutex, so it is one step. Prices are
rational numbers.
-/

namespace Tickscope.Bot

open Tickscope.Lib

structure MarketBook where
  yesBid : ℚ
  yesAsk : ℚ
  noBid : ℚ
  noAsk : ℚ
deriving DecidableEq

namespace MarketBook

/-- `MarketBook{}`. -/
def empty : MarketBook := ⟨0, 0, 0, 0⟩

def yesMid (bk : MarketBook) : ℚ := (bk.yesBid + bk.yesAsk) / 2

def noMid (bk : MarketBook) : ℚ := (bk.noBid + bk.noAsk) / 2

def yesValid (bk : MarketBook) : Bool := 0 < bk.yesBid ∧ bk.yesBid < bk.yesAsk

def noValid (bk : MarketBook) : Bool := 0 < bk.noBid ∧ bk.noBid < bk.noAsk

end MarketBook

structure MarketMeta where
  conditionId : Str
  question : Str
  yesTokenId : Str
  noTokenId : Str
  /-- epoch ms, 0 = unknown -/
  endTimeMs : Int
deriving DecidableEq

structure BookState where
  books : AList fun _ : Str => MarketBook
  metas : AList fun _ : Str => MarketMeta
  tokenToCid : AList fun _ : Str => Str

namespace BookState

def new : BookState := ⟨∅, ∅, ∅⟩

/-- `add_market`: a market that is tracked already is left alone. -/
def addMarket (state : BookState) (info : MarketMeta) : BookState :=
  if (state.books.lookup info.conditionId).isSome then state
  else
    { books := state.books.insert info.conditionId .empty
      metas := state.metas.insert info.conditionId info
      tokenToCid :=
        (state.tokenToCid.insert info.yesTokenId info.conditionId).insert
          info.noTokenId info.conditionId }

/-- `on_tick`: the books afterwards, and the market's id or the empty string. -/
def onTick (state : BookState) (tokenId : Str) (bid ask : ℚ) : BookState × Str :=
  match state.tokenToCid.lookup tokenId with
  | none => (state, [])
  | some cid =>
      match state.books.lookup cid, state.metas.lookup cid with
      | some bk, some info =>
          let bk :=
            if info.yesTokenId = tokenId then { bk with yesBid := bid, yesAsk := ask }
            else { bk with noBid := bid, noAsk := ask }
          ({ state with books := state.books.insert cid bk }, cid)
      | _, _ => (state, [])

def has (state : BookState) (cid : Str) : Bool := (state.books.lookup cid).isSome

def getBook (state : BookState) (cid : Str) : Option MarketBook := state.books.lookup cid

def getMeta (state : BookState) (cid : Str) : Option MarketMeta := state.metas.lookup cid

def size (state : BookState) : Nat := state.books.entries.length

/-- A market is tracked once it is added. -/
theorem has_addMarket (state : BookState) (info : MarketMeta) (cid : Str) :
    (state.addMarket info).has cid = true ↔ state.has cid = true ∨ cid = info.conditionId := by
  unfold addMarket has
  split
  · rename_i tracked
    refine ⟨.inl, fun either => either.elim id ?_⟩
    intro same
    subst same
    exact tracked
  · by_cases same : cid = info.conditionId
    · rw [same, AList.lookup_insert]
      exact ⟨fun _ => .inr rfl, fun _ => rfl⟩
    · rw [AList.lookup_insert_ne same]
      exact (or_iff_left same).symm

/-- A tick changes books only. -/
@[simp] theorem metas_onTick (state : BookState) (tokenId : Str) (bid ask : ℚ) :
    (state.onTick tokenId bid ask).1.metas = state.metas := by
  unfold onTick
  split
  · rfl
  · split <;> rfl

end BookState

end Tickscope.Bot
