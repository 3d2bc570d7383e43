import Tickscope.Backtest.AssetsApart
import Tickscope.Lib.Bytes
import Tickscope.Lib.FirstSeen
import Tickscope.Research.ResolutionDetector

/-!
# Resolutions and profit

The second half of `research/scripts/resolution_detector.py`: each condition is resolved from its
last NO book and its last NO trade, an entry is taken for each cross with a NO book near it, what is
unresolved is looked up, and each entry gets its profit. The lookup is a parameter. The profits are
the ones that `_compute_pnl` books for a buy and a sale of each entry (`true_pnl_same_books`). A
condition without a trade has the trade price 0, which resolves it for YES before anything is looked
up (`untraded_lost`).
-/

namespace Tickscope.Research

open Tickscope.Backtest Tickscope.Lib

/-! ## Resolutions -/

inductive Resolution where
  | noWins
  | yesWins
  | unresolved
  | resolvedUnknown
  | stillOpen
deriving DecidableEq

/-- `mid` of a book. -/
def Book.mid (book : Book) : ℚ := (book.bid + book.ask) / 2

/-- An entry of `resolutions`, with the mid; a trade price that is missing is 0. -/
def resolve (book : Book) (trade : Option Trade) : Resolution × ℚ :=
  let mid := book.mid
  let tradePrice := (trade.map Trade.price).getD 0
  if 95 / 100 ≤ mid ∨ 95 / 100 ≤ tradePrice then (.noWins, mid)
  else if mid ≤ 5 / 100 ∨ tradePrice ≤ 5 / 100 then (.yesWins, mid)
  else (.unresolved, mid)

/-! ## Entries -/

/-- A row of `merged`, with the columns that the profit needs. -/
structure Entry where
  conditionId : Text
  entryTs : Int
  noEntryAsk : ℚ
  noEntryBid : ℚ
  resolution : Resolution
  lastNoMid : ℚ
deriving DecidableEq

/-- `cid in cid_to_no_asset`. -/
def hasNoAsset (info : List MetaRow) (cid : Text) : Bool :=
  info.any fun row => row.outcome = "NO".toList ∧ row.conditionId = cid

/-- The entry of a condition that has crossed. -/
def entryOf (info : List MetaRow) (s : Aggregates) (cid : Text) : Option Entry :=
  (s.firstYesCross cid).bind fun crossTs =>
    (s.noBookAtCross cid).bind fun nearBook =>
      if hasNoAsset info cid then
        let noMid := (nearBook.bid + nearBook.ask) / 2
        let found := (s.lastNoBook cid).map fun book => resolve book (s.lastNoTrade cid)
        let (resolution, lastMid) := found.getD (.unresolved, noMid)
        some ⟨cid, crossTs, nearBook.ask, nearBook.bid, resolution, lastMid⟩
      else none

/-- The keys of `first_yes_cross`, in the order in which they came in. -/
def crossed (df : List Observation) : List Text :=
  firstSeen ((df.filter Observation.isYesCross).map Observation.conditionId)

/-- `merged`. -/
def entries (info : List MetaRow) (batches : List (List File)) : List Entry :=
  (crossed (readBatch info batches.flatten)).filterMap (entryOf info (stream info batches))

/-- A row of `api_df`. -/
structure ApiAnswer where
  /-- `str(api_outcome).strip().upper()` -/
  outcome : Text
  closed : Bool
  resolved : Bool

/-- `map_api`. -/
def mapApi (answer : ApiAnswer) : Resolution :=
  if answer.outcome ∈ ["NO".toList, "FALSE".toList, "0".toList] then .noWins
  else if answer.outcome ∈ ["YES".toList, "TRUE".toList, "1".toList] then .yesWins
  else if answer.closed || answer.resolved then .resolvedUnknown
  else .stillOpen

/-- `final_resolution`. -/
def finalResolution (api : Text → ApiAnswer) (entry : Entry) : Resolution :=
  if entry.resolution ≠ .unresolved then entry.resolution else mapApi (api entry.conditionId)

/-! ## Profit -/

/-- `SIZE`. -/
def tradeSize : ℚ := 10

/-- `SLIPPAGE`. -/
def entrySlippage : ℚ := 5 / 10000

/-- `calc_fee`. -/
def calcFee (price shares : ℚ) (isBuy : Bool) : ℚ :=
  let fb := 1 / 4 * (price * (1 - price)) ^ 2
  if isBuy then shares * fb * price else shares * fb

inductive Status where
  | win
  | loss
  | isOpen
deriving DecidableEq

/-- A row of `pnl_df`. -/
structure Outcome where
  conditionId : Text
  entryTs : Int
  entryPrice : ℚ
  cost : ℚ
  resolution : Resolution
  status : Status
  pnl : ℚ

/-- The body of the loop over `merged`. -/
def outcomeOf (api : Text → ApiAnswer) (entry : Entry) : Outcome :=
  let ep := entry.noEntryAsk + entrySlippage
  let cost := ep * tradeSize
  let bf := calcFee ep tradeSize true
  let res := finalResolution api entry
  let (status, pnl) : Status × ℚ :=
    match res with
    | .noWins => (.win, 1 * tradeSize - cost - bf - calcFee 1 tradeSize false)
    | .yesWins => (.loss, -cost - bf)
    | _ =>
        let lp := entry.lastNoMid
        (.isOpen, lp * tradeSize - cost - bf - calcFee lp tradeSize false)
  ⟨entry.conditionId, entry.entryTs, ep, cost, res, status, pnl⟩

/-- `pnl_df`. -/
def results (info : List MetaRow) (api : Text → ApiAnswer) (batches : List (List File)) :
    List Outcome :=
  (entries info batches).map (outcomeOf api)

/-! ## The same books -/

/-- What the NO token is taken to be worth in the end. -/
def settlement (entry : Entry) : Resolution → ℚ
  | .noWins => 1
  | .yesWins => 0
  | _ => entry.lastNoMid

/-- The two fills of an entry. -/
def entryFills (api : Text → ApiAnswer) (entry : Entry) : List (Fill ℚ) :=
  let ep := entry.noEntryAsk + entrySlippage
  let settled := settlement entry (finalResolution api entry)
  [⟨entry.entryTs, encodeUtf8 entry.conditionId, .bid, tradeSize, ep, calcFee ep tradeSize true,
      entrySlippage⟩,
    ⟨entry.entryTs, encodeUtf8 entry.conditionId, .ask, tradeSize, settled,
      calcFee settled tradeSize false, 0⟩]

theorem pnl_outcomeOf (api : Text → ApiAnswer) (entry : Entry) :
    (outcomeOf api entry).pnl =
      tradeSize * (settlement entry (finalResolution api entry) - (entry.noEntryAsk + entrySlippage)) -
        calcFee (entry.noEntryAsk + entrySlippage) tradeSize true -
        calcFee (settlement entry (finalResolution api entry)) tradeSize false := by
  have free : calcFee 0 tradeSize false = 0 := by decide +kernel
  rw [outcomeOf]
  cases finalResolution api entry with
  | noWins =>
      show 1 * tradeSize - _ - _ - calcFee 1 tradeSize false = _
      rw [settlement]
      ring
  | yesWins =>
      show -((entry.noEntryAsk + entrySlippage) * tradeSize) - _ = _
      rw [settlement, free]
      ring
  | unresolved | resolvedUnknown | stillOpen =>
      show entry.lastNoMid * tradeSize - _ - _ - calcFee entry.lastNoMid tradeSize false =
        tradeSize * (entry.lastNoMid - _) - _ - calcFee entry.lastNoMid tradeSize false
      ring

/-- A position that is opened and closed in full realizes its profit once. -/
theorem emitted_roundTrip {bought sold : Fill ℚ} (bid : bought.side = .bid) (ask : sold.side = .ask)
    (positive : 0 < bought.size) (whole : sold.size = bought.size) :
    emitted Holding.book Holding.realized .none [bought, sold] =
      [bought.size * (sold.price - bought.price) - bought.fee - sold.fee] := by
  have nothing : Holding.realized .none bought = [] := by
    rw [Holding.realized, bookedPnl, bid]
    rfl
  have held : Holding.book .none bought =
      ⟨some bought.size, some (bought.price + bought.fee / bought.size)⟩ := by
    have grown : 0 < 0 + bought.size := by linarith
    have opens : setsCost 0 bought = true := by
      rw [setsCost, bid]
      exact decide_eq_true (.inl le_rfl)
    have cost : bookedCost 0 0 bought = bought.price + bought.fee / bought.size := by
      rw [bookedCost, bid]
      dsimp only
      rw [if_pos le_rfl, if_pos grown]
      field_simp
      ring
    show Holding.mk (some (0 + bought.change)) (if setsCost 0 bought then
      some (bookedCost 0 0 bought) else Option.none) = _
    rw [opens, if_pos rfl, cost, zero_add, Fill.change, bid]
  have realized : Holding.realized
      ⟨some bought.size, some (bought.price + bought.fee / bought.size)⟩ sold =
        [bought.size * (sold.price - bought.price) - bought.fee - sold.fee] := by
    show (bookedPnl bought.size (bought.price + bought.fee / bought.size) sold).toList = _
    rw [bookedPnl, ask]
    dsimp only
    rw [if_neg (not_le.mpr positive), whole, min_self, Option.toList_some]
    refine congrArg (fun pnl => [pnl]) ?_
    field_simp
    ring
  rw [emitted, nothing, held, emitted, realized, emitted, List.nil_append, List.append_nil]

/-- The engine books the profit of the entry on its two fills. -/
theorem emitted_entryFills (api : Text → ApiAnswer) (entry : Entry) :
    emitted Holding.book Holding.realized .none (entryFills api entry) =
      [(outcomeOf api entry).pnl] := by
  rw [pnl_outcomeOf]
  refine emitted_roundTrip rfl rfl ?_ rfl
  show (0 : ℚ) < 10
  norm_num

theorem pos_foldl_book (h : Holding) (fills : List (Fill ℚ)) :
    (fills.foldl Holding.book h).pos = h.pos + (fills.map Fill.change).sum := by
  induction fills generalizing h with
  | nil => exact (add_zero _).symm
  | cons fill fills ih =>
      rw [List.foldl_cons, ih, List.map_cons, List.sum_cons, ← add_assoc]
      rfl

/-- The positions are closed. -/
theorem net_entryFills (api : Text → ApiAnswer) (es : List Entry) :
    ((es.flatMap (entryFills api)).map Fill.change).sum = 0 := by
  induction es with
  | nil => rfl
  | cons entry es ih =>
      rw [List.flatMap_cons, List.map_append, List.sum_append, ih]
      show tradeSize + (-tradeSize + 0) + 0 = 0
      ring

/-! ## One entry for each condition -/

theorem encodeUtf8_injective : Function.Injective encodeUtf8 := by
  intro text text' same
  have decoded := decodeUtf8_eq_some_iff.mpr same
  rw [decodeUtf8_eq_some_iff.mpr rfl] at decoded
  exact (Option.some.inj decoded).symm

theorem conditionId_entryOf {info : List MetaRow} {s : Aggregates} {cid : Text} {entry : Entry}
    (found : entryOf info s cid = some entry) : entry.conditionId = cid := by
  obtain ⟨crossTs, -, found⟩ := Option.bind_eq_some_iff.mp found
  obtain ⟨nearBook, -, found⟩ := Option.bind_eq_some_iff.mp found
  split at found
  · cases found
    rfl
  · cases found

theorem nodup_entries (info : List MetaRow) (batches : List (List File)) :
    ((entries info batches).map Entry.conditionId).Nodup := by
  have sublist : ∀ cids : List Text,
      ((cids.filterMap (entryOf info (stream info batches))).map Entry.conditionId).Sublist
        cids := by
    intro cids
    induction cids with
    | nil => exact List.Sublist.refl _
    | cons cid cids ih =>
        cases found : entryOf info (stream info batches) cid with
        | none =>
            rw [List.filterMap_cons_none found]
            exact ih.cons cid
        | some entry =>
            rw [List.filterMap_cons_some found, List.map_cons, conditionId_entryOf found]
            exact ih.cons_cons cid
  exact (nodup_firstSeen _).sublist (sublist _)

theorem fillsOf_entryFills (api : Text → ApiAnswer) (asset : Str) (es : List Entry) :
    fillsOf asset (es.flatMap (entryFills api)) =
      (es.filter fun entry => encodeUtf8 entry.conditionId = asset).flatMap (entryFills api) := by
  induction es with
  | nil => rfl
  | cons entry es ih =>
      rw [List.flatMap_cons, fillsOf, List.filter_append, ← fillsOf, ← fillsOf, ih]
      by_cases own : encodeUtf8 entry.conditionId = asset
      · rw [List.filter_cons_of_pos (by simpa using own), List.flatMap_cons]
        refine congrArg (· ++ _) (List.filter_eq_self.mpr fun fill mem => decide_eq_true ?_)
        rcases List.mem_pair.mp mem with rfl | rfl <;> exact own
      · rw [List.filter_cons_of_neg (by simpa using own)]
        have nothing : fillsOf asset (entryFills api entry) = [] := by
          refine List.filter_eq_nil_iff.mpr fun fill mem => ?_
          rcases List.mem_pair.mp mem with rfl | rfl <;> simpa using own
        rw [nothing, List.nil_append]

/-- The asset of the entry's fills. -/
def Entry.asset (entry : Entry) : Str := encodeUtf8 entry.conditionId

/-- The fills of one condition are those of its entry. -/
theorem fillsOf_entry {api : Text → ApiAnswer} {es : List Entry}
    (nodup : (es.map Entry.asset).Nodup) {entry : Entry} (mem : entry ∈ es) :
    fillsOf entry.asset (es.flatMap (entryFills api)) = entryFills api entry := by
  have one : (es.filter fun other => other.asset = entry.asset) = [entry] := by
    rw [filter_key_of_nodup nodup, rowOf_of_mem nodup mem]
    rfl
  rw [fillsOf_entryFills]
  exact (congrArg _ one).trans (List.flatMap_singleton ..)

/-- **The same books.** The profits of the script are the round trips that `_compute_pnl` books, when
each entry is bought and then sold at what it is taken to be worth, in whatever order the
conditions are interleaved. -/
theorem true_pnl_same_books (info : List MetaRow) (api : Text → ApiAnswer)
    (batches : List (List File)) {fills : List (Fill ℚ)}
    (same : ∀ asset, fillsOf asset fills =
      fillsOf asset ((entries info batches).flatMap (entryFills api))) :
    (computePnl fills).roundTripPnls.Perm ((results info api batches).map Outcome.pnl) ∧
      totalPnl (computePnl fills).pnlCurve = ((results info api batches).map Outcome.pnl).sum ∧
      ∀ asset, (pnlAfter fills).account.pos asset = 0 := by
  have nodup := nodup_entries info batches
  rw [results, List.map_map]
  generalize entries info batches = es at same nodup
  have assets : (es.map Entry.asset).Nodup := by
    have injective := nodup.map encodeUtf8_injective
    rwa [List.map_map] at injective
  have all : ∀ fill ∈ fills, fill.assetId ∈ es.map Entry.asset := by
    intro fill mem
    have own : fill ∈ fillsOf fill.assetId fills := List.mem_filter.mpr ⟨mem, decide_eq_true rfl⟩
    rw [same, fillsOf_entryFills] at own
    obtain ⟨entry, memEntry, -⟩ := List.mem_flatMap.mp own
    have here := List.mem_filter.mp memEntry
    exact List.mem_map.mpr ⟨entry, here.1, of_decide_eq_true here.2⟩
  have perm : (pnlAfter fills).roundTripPnls.Perm (es.map (Outcome.pnl ∘ outcomeOf api)) := by
    refine (roundTripPnls_perm assets fills all).trans (.of_eq ?_)
    rw [List.flatMap_map, List.map_eq_flatMap]
    refine List.flatMap_congr fun entry mem => ?_
    rw [same, fillsOf_entry assets mem, emitted_entryFills]
    rfl
  refine ⟨?_, ?_, fun asset => ?_⟩
  · rw [(computePnl_eq fills).2.2.2.2]
    exact perm
  · rw [totalPnl_computePnl, (pnlAfter_byKey fills).2.2]
    exact perm.sum_eq
  · show ((pnlAfter fills).account.holding asset).pos = 0
    rw [(pnlAfter_byKey fills).1, holdings, foldByKey_apply, ← fillsOf, same, fillsOf_entryFills,
      pos_foldl_book, net_entryFills, add_zero]
    rfl

/-- Two conditions cross. One is still quoted and traded in the middle, and the lookup says NO; the
other ends at 0.97. -/
def twoConditions : List MetaRow :=
  [⟨"1".toList, "0x1".toList, "YES".toList⟩, ⟨"2".toList, "0x1".toList, "NO".toList⟩,
    ⟨"3".toList, "0x2".toList, "YES".toList⟩, ⟨"4".toList, "0x2".toList, "NO".toList⟩]

def twoCrosses : List (List File) :=
  [[[quote "2" 0 (7 / 10), quote "1" 1000 (3 / 10), quote "4" 1500 (3 / 5),
      quote "3" 2000 (3 / 10)]],
    [[{ quote "2" 3000 (7 / 10) with eventType := some .lastTrade }, quote "4" 4000 (24 / 25)]]]

theorem true_pnl_same_books_twoCrosses :
    let api : Text → ApiAnswer := fun _ => ⟨"NO".toList, true, true⟩
    let fills := (entries twoConditions twoCrosses).flatMap (entryFills api)
    fills.length = 4 ∧
      (computePnl fills).roundTripPnls.Perm
        ((results twoConditions api twoCrosses).map Outcome.pnl) ∧
      totalPnl (computePnl fills).pnlCurve =
        ((results twoConditions api twoCrosses).map Outcome.pnl).sum ∧
      ∀ asset, (pnlAfter fills).account.pos asset = 0 :=
  ⟨by decide +kernel, true_pnl_same_books twoConditions _ twoCrosses fun _ => rfl⟩

/-! ## Conditions without a trade -/

theorem isSome_foldl_argAux {α β : Type*} (r : β → β → Prop) [DecidableRel r] (f : α → β)
    {held : Option β} {rows : List α} (some : held.isSome ∨ rows ≠ []) :
    (rows.foldl (fun held row => List.argAux r held (f row)) held).isSome := by
  induction rows generalizing held with
  | nil => exact some.resolve_right fun ne => ne rfl
  | cons row rows ih =>
      refine ih (.inl ?_)
      cases held with
      | none => rfl
      | some best =>
          show (if r (f row) best then Option.some (f row) else Option.some best).isSome
          split <;> rfl

/-- A condition with a book near its cross has a last book. -/
def Quoted (s : Aggregates) : Prop :=
  ∀ cid, (s.noBookAtCross cid).isSome → (s.lastNoBook cid).isSome

theorem quoted_process {s : Aggregates} (quoted : Quoted s) (df : List Observation) :
    Quoted (s.process df) := by
  intro cid near
  have last : (s.process df).lastNoBook cid =
      ((df.filter Observation.isNoBook).filter fun o => o.conditionId = cid).foldl noteBook
        (s.lastNoBook cid) := foldByKey_apply _ _ cid
  rw [last]
  refine isSome_foldl_argAux _ (fun o : Observation => (⟨o.tsMs, o.bestBid, o.bestAsk⟩ : Book)) ?_
  by_contra neither
  obtain ⟨none, nothing⟩ := not_or.mp neither
  refine none (quoted cid ?_)
  rw [Aggregates.noBookAtCross_process] at near
  cases crossed : (s.process df).firstYesCross cid with
  | none =>
      rw [crossed] at near
      exact near
  | some crossTs =>
      rw [crossed] at near
      dsimp only at near
      rw [nearRows, not_not.mp nothing] at near
      exact near

theorem quoted_stream (info : List MetaRow) (batches : List (List File)) :
    Quoted (stream info batches) := by
  rw [stream_eq]
  generalize batches.map (readBatch info) = dfs
  induction dfs using List.reverseRecOn with
  | nil => exact nofun
  | append_singleton dfs df ih =>
      rw [List.foldl_concat]
      exact quoted_process ih df

/-- How an entry is resolved. -/
theorem resolution_entryOf {info : List MetaRow} {batches : List (List File)} {cid : Text}
    {entry : Entry} (found : entryOf info (stream info batches) cid = some entry) :
    ∃ book, (stream info batches).lastNoBook cid = some book ∧
      (entry.resolution, entry.lastNoMid) =
        resolve book ((stream info batches).lastNoTrade cid) := by
  obtain ⟨crossTs, -, found⟩ := Option.bind_eq_some_iff.mp found
  obtain ⟨nearBook, near, found⟩ := Option.bind_eq_some_iff.mp found
  obtain ⟨book, last⟩ := Option.isSome_iff_exists.mp
    (quoted_stream info batches cid (by rw [near]; rfl))
  refine ⟨book, last, ?_⟩
  split at found
  · rw [last] at found
    cases found
    rfl
  · cases found

theorem lastNoTrade_stream {info : List MetaRow} {batches : List (List File)} {cid : Text}
    (untraded : ∀ o ∈ readBatch info batches.flatten, o.isNoTrade = true → o.conditionId ≠ cid) :
    (stream info batches).lastNoTrade cid = none := by
  rw [stream_eq, (Aggregates.foldl_process .empty _).2.1, ← readBatch_flatten]
  refine (foldByKey_apply _ _ cid).trans ?_
  have nothing : ((readBatch info batches.flatten).filter Observation.isNoTrade).filter
      (fun o => o.conditionId = cid) = [] := by
    refine List.filter_eq_nil_iff.mpr fun o mem own => ?_
    obtain ⟨memRows, trade⟩ := List.mem_filter.mp mem
    exact untraded o memRows trade (of_decide_eq_true own)
  rw [nothing]
  rfl

/-- **Without a trade.** An entry whose NO token was quoted but never traded, and was last quoted
below 0.95, is booked as lost in full, whatever a lookup would say. -/
theorem untraded_lost (info : List MetaRow) (api : Text → ApiAnswer) (batches : List (List File))
    {entry : Entry} (mem : entry ∈ entries info batches)
    (untraded : ∀ o ∈ readBatch info batches.flatten,
      o.isNoTrade = true → o.conditionId ≠ entry.conditionId)
    (low : entry.lastNoMid < 95 / 100) :
    (outcomeOf api entry).status = .loss ∧
      (outcomeOf api entry).pnl = -((outcomeOf api entry).cost +
        calcFee (outcomeOf api entry).entryPrice tradeSize true) := by
  obtain ⟨cid, -, found⟩ := List.mem_filterMap.mp mem
  rw [conditionId_entryOf found] at untraded
  obtain ⟨book, -, resolved⟩ := resolution_entryOf found
  rw [lastNoTrade_stream untraded, resolve] at resolved
  have lost : entry.resolution = .yesWins := by
    dsimp only [Option.map_none, Option.getD_none] at resolved
    split at resolved
    · rename_i high
      obtain ⟨-, mid⟩ := Prod.mk.inj resolved
      rw [mid] at low
      rcases high with high | high
      · exact absurd high (not_le.mpr low)
      · norm_num at high
    · split at resolved
      · exact (Prod.mk.inj resolved).1
      · rename_i between
        exact (between (.inr (by norm_num))).elim
  have final : finalResolution api entry = .yesWins := by
    rw [finalResolution, lost]
    rfl
  rw [outcomeOf, final]
  exact ⟨rfl, (neg_add' _ _).symm⟩

/-- The NO token is quoted at 0.71 to the end, and the market has resolved NO. -/
theorem untraded_lost_quotedOnly :
    let batches := [[[quote "1" 1000 (3 / 10), quote "2" 1001 (7 / 10)]]]
    let entry : Entry := ⟨"0x1".toList, 1000, 18 / 25, 7 / 10, .yesWins, 71 / 100⟩
    let outcome := outcomeOf (fun _ => ⟨"NO".toList, true, true⟩) entry
    entry ∈ entries btcUpOrDown batches ∧ outcome.status = .loss ∧
      outcome.pnl = -(outcome.cost + calcFee outcome.entryPrice tradeSize true) :=
  ⟨by decide +kernel, untraded_lost btcUpOrDown _ [[[quote "1" 1000 (3 / 10),
    quote "2" 1001 (7 / 10)]]] (by decide +kernel) (by decide +kernel) (by decide +kernel)⟩

end Tickscope.Research
