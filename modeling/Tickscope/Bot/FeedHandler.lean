import Mathlib.Algebra.Notation.Defs
import Tickscope.Lib.OnDemand

/-!
# The bot's feed handler

`src/bot/FeedHandler.cpp`. The output of a message are the quotes that it hands to
`books_.on_tick` and, where that knows the market, to the strategy.
-/

namespace Tickscope.Bot.FeedHandler

open Tickscope.Lib Tickscope.Lib.OnDemand

/-- `MAX_PAYLOAD`. -/
def maxPayload : Nat := 64 * 1024

/-- The arguments of a call of `books_.on_tick`. -/
structure Quote (D : Type) where
  assetId : Str
  bestBid : D
  bestAsk : D

variable {D : Type}

/-- A price keeps the 0.0 that it starts with when it cannot be read. -/
def price [Zero D] (json : Simdjson D) (value : Result Value) : D :=
  match json.getDoubleInString value with
  | .ok x => x
  | .error _ => 0

/-- The loop over `bids` or `asks`, which breaks after the first element. -/
def firstPrice [Zero D] (json : Simdjson D) (side : Result Value) : Result D :=
  match getArray side with
  | .error _ => .ok 0
  | .ok [] => .ok 0
  | .ok (first :: _) =>
      match getObject first with
      | .error e => .error e
      | .ok level => .ok (price json (field level (ascii "price")))

variable [Zero D] [LE D] [DecidableLE D]

/-- The quote that is handed on, when both prices are positive. -/
def quote (assetId : Str) (bestBid bestAsk : D) : List (Quote D) :=
  if bestBid ≤ 0 ∨ bestAsk ≤ 0 then [] else [⟨assetId, bestBid, bestAsk⟩]

/-- The body of the loop over the snapshots. -/
def snapshot (json : Simdjson D) (snap : Fields) : Result (List (Quote D)) :=
  match json.getString (field snap (ascii "asset_id")) with
  | .error _ => .ok []
  | .ok assetId =>
      match firstPrice json (field snap (ascii "bids")) with
      | .error e => .error e
      | .ok bestBid =>
          match firstPrice json (field snap (ascii "asks")) with
          | .error e => .error e
          | .ok bestAsk => .ok (quote assetId bestBid bestAsk)

/-- The body of the loop over `price_changes`. -/
def change (json : Simdjson D) (leg : Fields) : List (Quote D) :=
  match json.getString (field leg (ascii "asset_id")) with
  | .error _ => []
  | .ok assetId =>
      quote assetId (price json (field leg (ascii "best_bid")))
        (price json (field leg (ascii "best_ask")))

def handleBookSnapshot (json : Simdjson D) (doc : Result Value) : Ran (Quote D) :=
  match getArray doc with
  | .error _ => .done []
  | .ok arr => forObjects (snapshot json) arr

def handlePriceChange (json : Simdjson D) (doc : Result Value) : Ran (Quote D) :=
  match getObject doc with
  | .error _ => .done []
  | .ok obj =>
      match json.getString (field obj (ascii "event_type")) with
      | .error _ => .done []
      | .ok eventType =>
          if eventType = ascii "price_change" then
            match getArray (field obj (ascii "price_changes")) with
            | .error _ => .done []
            | .ok changes => forObjects (fun leg => .ok (change json leg)) changes
          else .done []

/-- `on_message`: each handler parses the payload once more. -/
def onMessage (json : Simdjson D) (payload : Str) : Ran (Quote D) :=
  if payload = [] ∨ maxPayload < payload.length then .done []
  else
    match json.iterate payload with
    | .ok (.array elements) => handleBookSnapshot json (.ok (.array elements))
    | .ok (.object fields) => handlePriceChange json (.ok (.object fields))
    | _ => .done []

/-! ## When nothing is thrown -/

/-- When the side is an array with an element, its first one is an object. -/
def FirstConverts (side : Result Value) : Prop :=
  ∀ first rest, getArray side = .ok (first :: rest) → IsObject first

/-- The snapshot is an object, and with an asset id its sides start with objects. -/
def SnapshotConverts (json : Simdjson D) (element : Result Value) : Prop :=
  ∃ snap, element = .ok (.object snap) ∧
    ∀ assetId, json.getString (field snap (ascii "asset_id")) = .ok assetId →
      FirstConverts (field snap (ascii "bids")) ∧ FirstConverts (field snap (ascii "asks"))

/-- What the loops over the document convert are objects. -/
def ElementsConvert (json : Simdjson D) (payload : Str) : Prop :=
  (∀ elements, json.iterate payload = .ok (.array elements) →
    ∀ element ∈ elements, SnapshotConverts json element) ∧
  ∀ obj changes, json.iterate payload = .ok (.object obj) →
    json.getString (field obj (ascii "event_type")) = .ok (ascii "price_change") →
    getArray (field obj (ascii "price_changes")) = .ok changes →
    ∀ element ∈ changes, IsObject element

omit [LE D] [DecidableLE D] in
theorem firstPrice_ok (json : Simdjson D) (side : Result Value) :
    (∃ x, firstPrice json side = .ok x) ↔ FirstConverts side := by
  unfold firstPrice FirstConverts
  split
  · rename_i e failed
    exact ⟨fun _ _ _ eq => (by rw [failed] at eq; cases eq), fun _ => ⟨0, rfl⟩⟩
  · rename_i empty
    exact ⟨fun _ _ _ eq => (by rw [empty] at eq; cases eq), fun _ => ⟨0, rfl⟩⟩
  · rename_i first rest found
    cases converted : getObject first with
    | error e =>
        refine ⟨fun ⟨_, eq⟩ => (nomatch eq), fun convert => ?_⟩
        rcases convert first rest found with ⟨level, isObject⟩
        rw [getObject_eq_ok.mpr isObject] at converted
        cases converted
    | ok level =>
        refine ⟨fun _ first' rest' found' => ?_, fun _ => ⟨_, rfl⟩⟩
        cases found.symm.trans found'
        exact ⟨level, getObject_eq_ok.mp converted⟩

theorem snapshot_ok (json : Simdjson D) (snap : Fields) :
    (∃ out, snapshot json snap = .ok out) ↔
      ∀ assetId, json.getString (field snap (ascii "asset_id")) = .ok assetId →
        FirstConverts (field snap (ascii "bids")) ∧ FirstConverts (field snap (ascii "asks")) := by
  unfold snapshot
  rw [← firstPrice_ok json, ← firstPrice_ok json]
  cases json.getString (field snap (ascii "asset_id")) with
  | error e => exact ⟨fun _ => nofun, fun _ => ⟨[], rfl⟩⟩
  | ok assetId =>
      dsimp only
      cases firstPrice json (field snap (ascii "bids")) with
      | error e =>
          refine ⟨fun ⟨_, eq⟩ => (nomatch eq), fun both => ?_⟩
          rcases both assetId rfl with ⟨⟨_, eq⟩, -⟩
          cases eq
      | ok bestBid =>
          dsimp only
          cases firstPrice json (field snap (ascii "asks")) with
          | error e =>
              refine ⟨fun ⟨_, eq⟩ => (nomatch eq), fun both => ?_⟩
              rcases both assetId rfl with ⟨-, ⟨_, eq⟩⟩
              cases eq
          | ok bestAsk =>
              exact ⟨fun _ _ _ => ⟨⟨bestBid, rfl⟩, bestAsk, rfl⟩, fun _ => ⟨_, rfl⟩⟩

theorem handleBookSnapshot_thrown (json : Simdjson D) (elements : List (Result Value)) :
    (handleBookSnapshot json (.ok (.array elements))).thrown = none ↔
      ∀ element ∈ elements, SnapshotConverts json element := by
  rw [handleBookSnapshot, getArray, forObjects_thrown]
  refine forall₂_congr fun element _ => exists_congr fun snap => ?_
  rw [exists_and_left, snapshot_ok]

theorem handlePriceChange_thrown (json : Simdjson D) (obj : Fields) :
    (handlePriceChange json (.ok (.object obj))).thrown = none ↔
      ∀ changes, json.getString (field obj (ascii "event_type")) = .ok (ascii "price_change") →
        getArray (field obj (ascii "price_changes")) = .ok changes →
        ∀ element ∈ changes, IsObject element := by
  rw [handlePriceChange, getObject]
  dsimp only
  split
  · rename_i e failed
    exact ⟨fun _ changes read => (by rw [failed] at read; cases read), fun _ => rfl⟩
  · rename_i eventType read
    split
    · rename_i priceChange
      split
      · rename_i e failed
        exact ⟨fun _ changes _ found => (by rw [failed] at found; cases found), fun _ => rfl⟩
      · rename_i changes found
        rw [forObjects_thrown_total]
        constructor
        · intro all changes' _ found'
          cases found.symm.trans found'
          exact all
        · exact fun all => all changes (priceChange ▸ read) found
    · rename_i other
      refine ⟨fun _ changes read' => ?_, fun _ => rfl⟩
      cases read.symm.trans read'
      exact (other rfl).elim

/-- The callback returns normally exactly when it takes no payload or everything converts. -/
theorem onMessage_thrown (json : Simdjson D) (payload : Str) :
    (onMessage json payload).thrown = none ↔
      (payload ≠ [] → payload.length ≤ maxPayload → ElementsConvert json payload) := by
  unfold onMessage ElementsConvert
  split
  · rename_i refused
    refine ⟨fun _ nonempty small => ?_, fun _ => rfl⟩
    rcases refused with empty | large
    · exact (nonempty empty).elim
    · exact absurd small (Nat.not_le_of_lt large)
  · rename_i taken
    rcases not_or.mp taken with ⟨nonempty, small⟩
    have taken : ∀ P : Prop, (payload ≠ [] → payload.length ≤ maxPayload → P) ↔ P := fun P =>
      ⟨fun convert => convert nonempty (Nat.le_of_not_lt small), fun convert _ _ => convert⟩
    rw [taken]
    split
    · rename_i elements document
      rw [handleBookSnapshot_thrown, document]
      constructor
      · intro all
        refine ⟨fun elements' eq => ?_, nofun⟩
        cases eq
        exact all
      · exact fun both => both.1 elements rfl
    · rename_i fields document
      rw [handlePriceChange_thrown, document]
      constructor
      · intro all
        refine ⟨nofun, fun obj changes eq => ?_⟩
        cases eq
        exact all changes
      · exact fun both changes => both.2 fields changes rfl
    · rename_i notArray notObject
      refine ⟨fun _ => ⟨fun elements eq => (notArray elements eq).elim,
        fun obj changes eq => (notObject obj eq).elim⟩, fun _ => rfl⟩

end Tickscope.Bot.FeedHandler
