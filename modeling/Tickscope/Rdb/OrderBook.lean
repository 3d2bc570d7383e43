import Mathlib.Data.List.AList
import Tickscope.Core.Tick
import Tickscope.Lib.FirstSeen

/-!
# The order book

`include/polymarket/rdb/OrderBook.hpp`: a map from token to slot, a flat array of
slots and a 16-bit counter. A reference into the array is the slot's content, and
an index outside the array has none.

`OrderBook.Holds` says what a book contains after a list of ticks: the tokens are
numbered in the order of their first appearance, up to the size of the table, and
each numbered slot holds the last tick of each side. `holds_apply` is the step,
`holds_ofTicks` the run, and `routing` reads the accessors off it.
-/

namespace Tickscope.Rdb

open Tickscope.Lib Tickscope.Core

/-- `MarketState`: the top of the book of one token. -/
structure MarketState (D : Type) where
  bestBidPrice : D
  bestBidSize : D
  bestAskPrice : D
  bestAskSize : D

/-- `OrderBook::MAX_TOKENS`. -/
def maxTokens : Nat := 4096

structure OrderBook (D : Type) where
  tokenToIdx : AList fun _ : Str => BitVec 16
  books : List (MarketState D)
  nextIdx : BitVec 16

namespace OrderBook

variable {D : Type}

/-- The write of step 4: the bid fields for side 0, the ask fields for every other side. -/
def quote (ms : MarketState D) (tick : Tick D) : MarketState D :=
  if tick.side = 0 then { ms with bestBidPrice := tick.price, bestBidSize := tick.size }
  else { ms with bestAskPrice := tick.price, bestAskSize := tick.size }

/-- `books_[idx]` is written. -/
def write (book : OrderBook D) (idx : BitVec 16) (tick : Tick D) : OrderBook D :=
  { book with books := book.books.modify idx.toNat fun ms => quote ms tick }

def applyTick (book : OrderBook D) (tick : Tick D) : OrderBook D :=
  match book.tokenToIdx.lookup tick.key with
  | some idx => book.write idx tick
  | none =>
      let idx := book.nextIdx
      if maxTokens ≤ idx.toNat then book
      else
        { book with
          nextIdx := idx + 1
          tokenToIdx := book.tokenToIdx.insert tick.key idx }.write idx tick

def state (book : OrderBook D) (idx : BitVec 16) : Option (MarketState D) :=
  book.books[idx.toNat]?

def tokenCount (book : OrderBook D) : BitVec 16 := book.nextIdx

def findIndex (book : OrderBook D) (token : Str) : Option (BitVec 16) :=
  book.tokenToIdx.lookup token

theorem books_write_self {book : OrderBook D} {idx : BitVec 16} {ms : MarketState D}
    (slot : book.books[idx.toNat]? = some ms) (tick : Tick D) :
    (book.write idx tick).books[idx.toNat]? = some (quote ms tick) := by
  simp [write, slot]

theorem books_write_of_ne {idx : BitVec 16} {i : Nat} (ne : idx.toNat ≠ i) (book : OrderBook D)
    (tick : Tick D) : (book.write idx tick).books[i]? = book.books[i]? := by
  simp [write, ne]

@[simp] theorem length_write (book : OrderBook D) (idx : BitVec 16) (tick : Tick D) :
    (book.write idx tick).books.length = book.books.length := List.length_modify ..

variable [Zero D]

def emptyState : MarketState D := ⟨0, 0, 0, 0⟩

/-- The constructor. -/
def new : OrderBook D := ⟨∅, List.replicate maxTokens emptyState, 0⟩

/-- The fold of `apply_tick` over a list of ticks. -/
def ofTicks (ticks : List (Tick D)) : OrderBook D := ticks.foldl applyTick new

/-! ## What the book holds -/

def keys {D : Type} (ticks : List (Tick D)) : List Str := ticks.map Tick.key

/-- The last tick of `token` on the given side, `bid` for side 0. -/
def latest {D : Type} (token : Str) (bid : Bool) (ticks : List (Tick D)) : Option (Tick D) :=
  ticks.reverse.find? fun t => decide (t.key = token) && (decide (t.side = 0) == bid)

/-- The slot of `token`: price and size of its last tick on either side, zeros without one. -/
def quotes (token : Str) (ticks : List (Tick D)) : MarketState D where
  bestBidPrice := ((latest token true ticks).map Tick.price).getD 0
  bestBidSize := ((latest token true ticks).map Tick.size).getD 0
  bestAskPrice := ((latest token false ticks).map Tick.price).getD 0
  bestAskSize := ((latest token false ticks).map Tick.size).getD 0

omit [Zero D] in
theorem latest_concat (token : Str) (bid : Bool) (ticks : List (Tick D)) (t : Tick D) :
    latest token bid (ticks ++ [t]) =
      if t.key = token ∧ (decide (t.side = 0) = bid) then some t else latest token bid ticks := by
  rw [latest, List.reverse_append, List.reverse_singleton, List.singleton_append, List.find?_cons]
  by_cases same : t.key = token
  · by_cases side : decide (t.side = 0) = bid
    · simp [same, side]
    · have other : (decide (t.side = 0) == bid) = false := beq_false_of_ne side
      rw [if_neg fun both => side both.2, other, Bool.and_false]
      rfl
  · rw [if_neg fun both => same both.1, decide_eq_false same, Bool.false_and]
    rfl

/-- A tick of another token leaves the slot alone. -/
theorem quotes_concat_of_ne {token : Str} {t : Tick D} (ne : t.key ≠ token)
    (ticks : List (Tick D)) : quotes token (ticks ++ [t]) = quotes token ticks := by
  simp only [quotes, latest_concat, ne, false_and, if_false]

theorem quotes_concat_self (ticks : List (Tick D)) (t : Tick D) :
    quotes t.key (ticks ++ [t]) = quote (quotes t.key ticks) t := by
  by_cases bid : t.side = 0
  · simp [quotes, latest_concat, quote, bid]
  · simp [quotes, latest_concat, quote, bid]

omit [Zero D] in
theorem latest_of_not_mem {token : Str} {ticks : List (Tick D)} (absent : token ∉ keys ticks)
    (bid : Bool) : latest token bid ticks = none := by
  rw [latest, List.find?_eq_none]
  intro t mem
  have ne : t.key ≠ token := fun same =>
    absent (List.mem_map.mpr ⟨t, List.mem_reverse.mp mem, same⟩)
  simp [ne]

/-- A token that has not appeared has the zeros the table starts with. -/
theorem quotes_of_not_mem {token : Str} {ticks : List (Tick D)} (absent : token ∉ keys ticks) :
    quotes token ticks = emptyState := by
  simp [quotes, latest_of_not_mem absent, emptyState]

omit [Zero D] in
theorem keys_concat (ticks : List (Tick D)) (t : Tick D) :
    keys (ticks ++ [t]) = keys ticks ++ [t.key] := List.map_append

/-! ## One tick -/

/-- What the book holds after `ticks`. -/
structure Holds (ticks : List (Tick D)) (book : OrderBook D) : Prop where
  next : book.nextIdx.toNat = min maxTokens (keys ticks).toFinset.card
  lookup : ∀ (token : Str) (idx : BitVec 16), book.tokenToIdx.lookup token = some idx ↔
    token ∈ keys ticks ∧ rank token (keys ticks) < maxTokens ∧
      idx.toNat = rank token (keys ticks)
  length : book.books.length = maxTokens
  slots : ∀ token ∈ keys ticks, rank token (keys ticks) < maxTokens →
    book.books[rank token (keys ticks)]? = some (quotes token ticks)
  unused : ∀ i, book.nextIdx.toNat ≤ i → i < maxTokens → book.books[i]? = some emptyState

theorem holds_new : Holds ([] : List (Tick D)) new where
  next := rfl
  lookup := fun token idx => by
    refine ⟨fun found => ?_, fun mem => nomatch mem.1⟩
    rw [new, AList.lookup_empty] at found
    cases found
  length := List.length_replicate
  slots := fun token mem => nomatch mem
  unused := fun i _ lt => by
    rw [new, List.getElem?_replicate, if_pos lt]

/-- A token of the table that is seen again. -/
theorem Holds.known {ticks : List (Tick D)} {book : OrderBook D} (holds : Holds ticks book)
    {t : Tick D} {idx : BitVec 16} (found : book.tokenToIdx.lookup t.key = some idx) :
    Holds (ticks ++ [t]) (book.write idx t) := by
  obtain ⟨mem, lt, at_rank⟩ := (holds.lookup t.key idx).mp found
  have ranks := rank_concat_of_mem mem
  have mems : ∀ token, token ∈ keys ticks ++ [t.key] ↔ token ∈ keys ticks := fun token => by
    rw [List.mem_append, List.mem_singleton]
    exact ⟨fun seen => seen.elim id fun same => same ▸ mem, .inl⟩
  have card : (keys ticks ++ [t.key]).toFinset.card = (keys ticks).toFinset.card := by
    congr 1
    ext token
    rw [List.mem_toFinset, List.mem_toFinset, mems]
  constructor
  · rw [keys_concat, card]
    exact holds.next
  · intro token i
    rw [keys_concat, ranks, mems]
    exact holds.lookup token i
  · rw [length_write]
    exact holds.length
  · intro token seen small
    rw [keys_concat, mems] at seen
    rw [keys_concat, ranks] at small ⊢
    have slot := holds.slots token seen small
    by_cases same : token = t.key
    · subst same
      rw [← at_rank] at slot ⊢
      rw [books_write_self slot, quotes_concat_self]
    · have ne : idx.toNat ≠ rank token (keys ticks) := fun eq =>
        same (rank_inj seen (at_rank ▸ eq).symm)
      rw [books_write_of_ne ne, slot, quotes_concat_of_ne (Ne.symm same)]
  · intro i le lt_max
    have le : book.nextIdx.toNat ≤ i := le
    have ne : idx.toNat ≠ i := by
      have below := rank_lt_card mem
      have next := holds.next
      omega
    rw [books_write_of_ne ne]
    exact holds.unused i le lt_max

omit [Zero D] in
/-- A token that is not this tick's is ranked as before. -/
theorem ranked_concat {ticks : List (Tick D)} {t : Tick D} {token : Str} (ne : token ≠ t.key)
    (P : Nat → Prop) :
    (token ∈ keys (ticks ++ [t]) ∧ P (rank token (keys (ticks ++ [t])))) ↔
      (token ∈ keys ticks ∧ P (rank token (keys ticks))) := by
  rw [keys_concat]
  exact ranked_concat_iff ne (keys ticks) P

/-- A token that comes after the table is full. -/
theorem Holds.dropped {ticks : List (Tick D)} {book : OrderBook D} (holds : Holds ticks book)
    {t : Tick D} (late : maxTokens ≤ rank t.key (keys ticks)) : Holds (ticks ++ [t]) book := by
  have full := late.trans (rank_le_card t.key (keys ticks))
  have late' := late.trans (rank_le_rank_append t.key (keys ticks) [t.key])
  rw [← keys_concat] at late'
  have early : ∀ token, rank token (keys (ticks ++ [t])) < maxTokens → token ≠ t.key := by
    intro token small same
    rw [same] at small
    omega
  have grows : (keys ticks).toFinset.card ≤ (keys ticks ++ [t.key]).toFinset.card := by
    rw [List.toFinset_append]
    exact Finset.card_le_card Finset.subset_union_left
  constructor
  · rw [keys_concat, holds.next]
    omega
  · intro token idx
    rw [holds.lookup]
    by_cases same : token = t.key
    · refine iff_of_false (fun ranked => ?_) fun ranked => early token ranked.2.1 same
      rw [same] at ranked
      exact Nat.not_lt_of_ge late ranked.2.1
    · exact (ranked_concat same fun r => r < maxTokens ∧ idx.toNat = r).symm
  · exact holds.length
  · intro token mem small
    have ne := early token small
    obtain ⟨mem, small⟩ := (ranked_concat ne (· < maxTokens)).mp ⟨mem, small⟩
    rw [keys_concat, rank_append_of_mem mem, holds.slots token mem small,
      quotes_concat_of_ne (Ne.symm ne)]
  · exact holds.unused

/-- A token that takes the next slot. -/
theorem Holds.inserted {ticks : List (Tick D)} {book : OrderBook D} (holds : Holds ticks book)
    {t : Tick D} (absent : t.key ∉ keys ticks) (room : book.nextIdx.toNat < maxTokens) :
    Holds (ticks ++ [t])
      ({ book with
        nextIdx := book.nextIdx + 1
        tokenToIdx := book.tokenToIdx.insert t.key book.nextIdx }.write book.nextIdx t) := by
  have next := holds.next
  have card := card_concat_of_not_mem absent
  have count : book.nextIdx.toNat = (keys ticks).toFinset.card := by omega
  have own : rank t.key (keys ticks ++ [t.key]) = book.nextIdx.toNat := by
    rw [rank, takeWhile_append_of_not_mem absent, count]
    simp
  have succ : (book.nextIdx + 1).toNat = book.nextIdx.toNat + 1 := by
    have small : maxTokens < 2 ^ 16 := by decide
    rw [BitVec.toNat_add]
    exact Nat.mod_eq_of_lt (by show book.nextIdx.toNat + 1 < _; omega)
  constructor
  · rw [keys_concat, card]
    show (book.nextIdx + 1).toNat = _
    omega
  · intro token idx
    show AList.lookup token (book.tokenToIdx.insert t.key book.nextIdx) = some idx ↔ _
    by_cases same : token = t.key
    · subst same
      rw [AList.lookup_insert, keys_concat, own]
      constructor
      · intro eq
        cases eq
        exact ⟨List.mem_append_right _ (List.mem_singleton_self _), room, rfl⟩
      · intro ranked
        rcases ranked with ⟨-, -, eq⟩
        rw [BitVec.eq_of_toNat_eq eq]
    · rw [AList.lookup_insert_ne same, holds.lookup]
      exact (ranked_concat same fun r => r < maxTokens ∧ idx.toNat = r).symm
  · rw [length_write]
    exact holds.length
  · intro token mem small
    by_cases same : token = t.key
    · subst same
      rw [keys_concat, own, quotes_concat_self, quotes_of_not_mem absent]
      exact books_write_self (holds.unused _ le_rfl room) t
    · obtain ⟨mem, small⟩ := (ranked_concat same (· < maxTokens)).mp ⟨mem, small⟩
      have ne : book.nextIdx.toNat ≠ rank token (keys ticks) := by
        have := rank_lt_card mem
        omega
      rw [keys_concat, rank_append_of_mem mem, books_write_of_ne ne,
        quotes_concat_of_ne (Ne.symm same)]
      exact holds.slots token mem small
  · intro i le lt_max
    have le : (book.nextIdx + 1).toNat ≤ i := le
    have ne : book.nextIdx.toNat ≠ i := by omega
    rw [books_write_of_ne ne]
    exact holds.unused i (by omega) lt_max

/-- **One tick.** -/
theorem holds_apply {ticks : List (Tick D)} {book : OrderBook D} (holds : Holds ticks book)
    (t : Tick D) : Holds (ticks ++ [t]) (book.applyTick t) := by
  have next := holds.next
  unfold applyTick
  split
  · rename_i idx found
    exact holds.known found
  · rename_i unknown
    have late : t.key ∈ keys ticks → maxTokens ≤ rank t.key (keys ticks) := fun mem => by
      by_contra small
      have big : maxTokens < 2 ^ 16 := by decide
      have found := (holds.lookup t.key (BitVec.ofNat 16 (rank t.key (keys ticks)))).mpr
        ⟨mem, by omega, by rw [BitVec.toNat_ofNat]; exact Nat.mod_eq_of_lt (by omega)⟩
      rw [unknown] at found
      cases found
    dsimp only
    split
    · rename_i full
      refine holds.dropped ?_
      by_cases mem : t.key ∈ keys ticks
      · exact late mem
      · rw [rank_of_not_mem mem]
        omega
    · rename_i room
      refine holds.inserted (fun mem => room ?_) (Nat.not_le.mp room)
      have := late mem
      have := rank_lt_card mem
      omega

/-! ## Any number of ticks -/

theorem ofTicks_concat (ticks : List (Tick D)) (t : Tick D) :
    ofTicks (ticks ++ [t]) = (ofTicks ticks).applyTick t := List.foldl_concat ..

theorem holds_ofTicks (ticks : List (Tick D)) : Holds ticks (ofTicks ticks) := by
  induction ticks using List.reverseRecOn with
  | nil => exact holds_new
  | append_singleton ticks t ih =>
      rw [ofTicks_concat]
      exact holds_apply ih t

/-! ## Routing and capacity -/

theorem ofTicks_append (ticks later : List (Tick D)) :
    ofTicks (ticks ++ later) = later.foldl applyTick (ofTicks ticks) := List.foldl_append

/-- What the accessors return after any list of ticks. -/
structure Routing (ticks : List (Tick D)) : Prop where
  count : (ofTicks ticks).tokenCount.toNat = min maxTokens (keys ticks).toFinset.card
  /-- The tokens of the table are the first distinct ones, by rank of first appearance. -/
  found : ∀ (token : Str) (idx : BitVec 16), (ofTicks ticks).findIndex token = some idx ↔
    token ∈ keys ticks ∧ rank token (keys ticks) < maxTokens ∧ idx.toNat = rank token (keys ticks)
  /-- The index of a token never changes. -/
  stable : ∀ (token : Str) (idx : BitVec 16) (later : List (Tick D)),
    (ofTicks ticks).findIndex token = some idx →
    (ofTicks (ticks ++ later)).findIndex token = some idx
  state : ∀ (token : Str) (idx : BitVec 16), (ofTicks ticks).findIndex token = some idx →
    (ofTicks ticks).state idx = some (quotes token ticks)
  /-- Ticks of other tokens do not touch the slot. -/
  unaffected : ∀ (token : Str) (idx : BitVec 16) (later : List (Tick D)),
    (ofTicks ticks).findIndex token = some idx → (∀ t ∈ later, t.key ≠ token) →
    (ofTicks (ticks ++ later)).state idx = (ofTicks ticks).state idx
  /-- Ticks of tokens that come after the table is full change nothing. -/
  dropped : ∀ later : List (Tick D), (∀ t ∈ later, maxTokens ≤ rank t.key (keys ticks)) →
    ofTicks (ticks ++ later) = ofTicks ticks

omit [Zero D] in
theorem keys_append (ticks later : List (Tick D)) :
    keys (ticks ++ later) = keys ticks ++ keys later := List.map_append

theorem findIndex_append {ticks : List (Tick D)} {token : Str} {idx : BitVec 16}
    (found : (ofTicks ticks).findIndex token = some idx) (later : List (Tick D)) :
    (ofTicks (ticks ++ later)).findIndex token = some idx := by
  obtain ⟨mem, small, eq⟩ := ((holds_ofTicks ticks).lookup token idx).mp found
  refine ((holds_ofTicks (ticks ++ later)).lookup token idx).mpr ?_
  rw [keys_append, rank_append_of_mem mem]
  exact ⟨List.mem_append_left _ mem, small, eq⟩

theorem state_of_findIndex {ticks : List (Tick D)} {token : Str} {idx : BitVec 16}
    (found : (ofTicks ticks).findIndex token = some idx) :
    (ofTicks ticks).state idx = some (quotes token ticks) := by
  have holds := holds_ofTicks ticks
  obtain ⟨mem, small, eq⟩ := (holds.lookup token idx).mp found
  rw [state, eq]
  exact holds.slots token mem small

theorem quotes_append_of_ne {token : Str} {later : List (Tick D)}
    (others : ∀ t ∈ later, t.key ≠ token) (ticks : List (Tick D)) :
    quotes token (ticks ++ later) = quotes token ticks := by
  induction later generalizing ticks with
  | nil => rw [List.append_nil]
  | cons t later ih =>
      have tail := ih (fun u mem => others u (List.mem_cons_of_mem t mem)) (ticks ++ [t])
      rw [List.append_assoc, List.singleton_append] at tail
      rw [tail, quotes_concat_of_ne (others t List.mem_cons_self)]

theorem applyTick_of_late {ticks : List (Tick D)} {book : OrderBook D} (holds : Holds ticks book)
    {t : Tick D} (late : maxTokens ≤ rank t.key (keys ticks)) : book.applyTick t = book := by
  have full := late.trans (rank_le_card t.key (keys ticks))
  have next := holds.next
  unfold applyTick
  split
  · rename_i idx found
    have small := ((holds.lookup t.key idx).mp found).2.1
    omega
  · exact if_pos (by omega)

theorem ofTicks_append_of_late {ticks later : List (Tick D)}
    (late : ∀ t ∈ later, maxTokens ≤ rank t.key (keys ticks)) :
    ofTicks (ticks ++ later) = ofTicks ticks := by
  rw [ofTicks_append]
  induction later with
  | nil => rfl
  | cons t later ih =>
      rw [List.foldl_cons, applyTick_of_late (holds_ofTicks ticks) (late t List.mem_cons_self)]
      exact ih fun u mem => late u (List.mem_cons_of_mem t mem)

/-- **Routing and capacity.** -/
theorem routing (ticks : List (Tick D)) : Routing ticks where
  count := (holds_ofTicks ticks).next
  found := (holds_ofTicks ticks).lookup
  stable := fun _ _ later found => findIndex_append found later
  state := fun _ _ found => state_of_findIndex found
  unaffected := fun token idx later found others => by
    rw [state_of_findIndex found, state_of_findIndex (findIndex_append found later),
      quotes_append_of_ne others]
  dropped := fun _ late => ofTicks_append_of_late late

end OrderBook

end Tickscope.Rdb
