import Tickscope.Journal.LogToParquet
import Tickscope.Lib.FirstMin
import Tickscope.Lib.KeyedFold
import Tickscope.Lib.KeyedTable
import Tickscope.Lib.PyText

/-!
# Streaming the parquet files

`research/scripts/resolution_detector.py` reads the files in batches and keeps four dictionaries by
condition. Three of them do not depend on where the batches are cut. The NO book nearest to the
first YES cross does: its rows are compared with the crosses that are known when the batch has been
read, and the second pass that a comment speaks of is not there. `batches_agree_iff` says for which
cuts nothing is missed.
-/

namespace Tickscope.Research

open Tickscope.Backtest Tickscope.Journal Tickscope.Lib

/-! ## The rows of a batch -/

/-- A row of `meta`, with the columns that the aggregation reads. -/
structure MetaRow where
  assetId : Text
  conditionId : Text
  outcome : Text

/-- A row of the data frame of a batch. -/
structure Observation where
  tsMs : Int
  price : ℚ
  bestBid : ℚ
  bestAsk : ℚ
  eventType : Option EventType
  conditionId : Text
  outcome : Text
deriving DecidableEq

/-- The rows of a parquet file. -/
abbrev File := List (Journal.Row ℚ)

/-- `epoch_ms(timestamp)`. -/
def tsMs (row : Journal.Row ℚ) : Int := row.timestampNs / 10 ^ 6

/-- A row of a target asset, with `asset_to_cid` and `asset_to_outcome`: of two rows of `meta` for
one asset both keep the last. -/
def enrich (info : List MetaRow) (row : Journal.Row ℚ) : Option Observation :=
  (lastRowOf MetaRow.assetId info row.assetId).map fun found =>
    { tsMs := tsMs row
      price := row.price
      bestBid := row.bestBid
      bestAsk := row.bestAsk
      eventType := row.eventType
      conditionId := found.conditionId
      outcome := found.outcome }

/-- `df`. -/
def readBatch (info : List MetaRow) (files : List File) : List Observation :=
  files.flatten.filterMap (enrich info)

def threshold : ℚ := 2 / 5

namespace Observation

def isBook (o : Observation) : Bool :=
  o.eventType = some .priceChange && 0 < o.bestBid && o.bestBid < o.bestAsk

/-- In `no_book`. -/
def isNoBook (o : Observation) : Bool := o.outcome = "NO".toList && o.isBook

/-- In `no_trades`. -/
def isNoTrade (o : Observation) : Bool :=
  o.outcome = "NO".toList && o.eventType = some .lastTrade

/-- In `yes_crosses`. -/
def isYesCross (o : Observation) : Bool :=
  o.outcome = "YES".toList && o.isBook && (o.bestBid + o.bestAsk) / 2 ≤ threshold

end Observation

/-! ## The dictionaries -/

/-- An entry of `last_no_book`. -/
structure Book where
  ts : Int
  bid : ℚ
  ask : ℚ
deriving DecidableEq

/-- An entry of `last_no_trade`. -/
structure Trade where
  ts : Int
  price : ℚ
deriving DecidableEq

/-- An entry of `no_book_at_cross`. -/
structure NearBook where
  ts : Int
  bid : ℚ
  ask : ℚ
  diff : Nat
deriving DecidableEq

@[ext]
structure Aggregates where
  lastNoBook : Text → Option Book
  lastNoTrade : Text → Option Trade
  firstYesCross : Text → Option Int
  noBookAtCross : Text → Option NearBook

/-- The row as an entry of `no_book_at_cross`, if it is within 5 s of the cross. -/
def near (crossTs : Int) (o : Observation) : Option NearBook :=
  let diff := (o.tsMs - crossTs).natAbs
  if diff ≤ 5000 then some ⟨o.tsMs, o.bestBid, o.bestAsk, diff⟩ else none

/-! Each loop replaces the entry of the row's condition if there is none, or a worse one. -/

def noteBook (held : Option Book) (o : Observation) : Option Book :=
  List.argAux (fun new old => old.ts < new.ts) held ⟨o.tsMs, o.bestBid, o.bestAsk⟩

def noteTrade (held : Option Trade) (o : Observation) : Option Trade :=
  List.argAux (fun new old => old.ts < new.ts) held ⟨o.tsMs, o.price⟩

def noteCross (held : Option Int) (o : Observation) : Option Int :=
  List.argAux (fun new old => new < old) held o.tsMs

def noteNear (firstYesCross : Text → Option Int) (held : Option NearBook) (o : Observation) :
    Option NearBook :=
  match (firstYesCross o.conditionId).bind fun crossTs => near crossTs o with
  | none => held
  | some found => List.argAux (fun new old => new.diff < old.diff) held found

namespace Aggregates

def empty : Aggregates := ⟨fun _ => none, fun _ => none, fun _ => none, fun _ => none⟩

/-- The loops over the rows of a batch; the crosses of the batch are known when the last begins. -/
def process (s : Aggregates) (df : List Observation) : Aggregates :=
  let noBook := df.filter Observation.isNoBook
  let firstYesCross := foldByKey Observation.conditionId noteCross s.firstYesCross
    (df.filter Observation.isYesCross)
  { lastNoBook := foldByKey Observation.conditionId noteBook s.lastNoBook noBook
    lastNoTrade := foldByKey Observation.conditionId noteTrade s.lastNoTrade
      (df.filter Observation.isNoTrade)
    firstYesCross := firstYesCross
    noBookAtCross := foldByKey Observation.conditionId (noteNear firstYesCross) s.noBookAtCross
      noBook }

def batch (info : List MetaRow) (s : Aggregates) (files : List File) : Aggregates :=
  let df := readBatch info files
  if df.length = 0 then s else s.process df

end Aggregates

/-- The aggregation over these batches, ten files each in the script. -/
def stream (info : List MetaRow) (batches : List (List File)) : Aggregates :=
  batches.foldl (Aggregates.batch info) .empty

/-! ## Batches as lists of rows -/

theorem readBatch_flatten (info : List MetaRow) (batches : List (List File)) :
    readBatch info batches.flatten = (batches.map (readBatch info)).flatten := by
  induction batches with
  | nil => rfl
  | cons files batches ih =>
      rw [List.flatten_cons, List.map_cons, List.flatten_cons, ← ih, readBatch,
        List.flatten_append, List.filterMap_append]
      rfl

theorem Aggregates.batch_eq (info : List MetaRow) (s : Aggregates) (files : List File) :
    s.batch info files = s.process (readBatch info files) := by
  unfold batch
  dsimp only
  split
  · rename_i nothing
    rw [List.length_eq_zero_iff.mp nothing]
    rfl
  · rfl

theorem stream_eq (info : List MetaRow) (batches : List (List File)) :
    stream info batches = (batches.map (readBatch info)).foldl Aggregates.process .empty := by
  rw [stream, List.foldl_map]
  exact congrArg (fun step => batches.foldl step _) (funext₂ (Aggregates.batch_eq info))

theorem sorted_readBatch (info : List MetaRow) {files : List File}
    (sorted : files.flatten.Pairwise fun row later => tsMs row ≤ tsMs later) :
    (readBatch info files).Pairwise fun o later => o.tsMs ≤ later.tsMs := by
  rw [readBatch, List.pairwise_filterMap]
  refine sorted.imp fun {row later} le o found o' found' => ?_
  obtain ⟨_, -, rfl⟩ := Option.map_eq_some_iff.mp found
  obtain ⟨_, -, rfl⟩ := Option.map_eq_some_iff.mp found'
  exact le

/-! ## What the dictionaries hold -/

/-- The times at which the condition crosses. -/
def crossTimes (cid : Text) (df : List Observation) : List Int :=
  ((df.filter Observation.isYesCross).filter fun o => o.conditionId = cid).map Observation.tsMs

/-- The rows of the NO book of the condition that are within 5 s of the cross. -/
def nearRows (cid : Text) (crossTs : Int) (df : List Observation) : List NearBook :=
  ((df.filter Observation.isNoBook).filter fun o => o.conditionId = cid).filterMap (near crossTs)

theorem crossTimes_append (cid : Text) (df later : List Observation) :
    crossTimes cid (df ++ later) = crossTimes cid df ++ crossTimes cid later := by
  rw [crossTimes, List.filter_append, List.filter_append, List.map_append]
  rfl

theorem nearRows_append (cid : Text) (crossTs : Int) (df later : List Observation) :
    nearRows cid crossTs (df ++ later) = nearRows cid crossTs df ++ nearRows cid crossTs later := by
  rw [nearRows, List.filter_append, List.filter_append, List.filterMap_append]
  rfl

namespace Aggregates

/-- Three of the dictionaries hold what they hold after one batch with all rows. -/
theorem foldl_process (s : Aggregates) (dfs : List (List Observation)) :
    (dfs.foldl process s).lastNoBook = (s.process dfs.flatten).lastNoBook ∧
      (dfs.foldl process s).lastNoTrade = (s.process dfs.flatten).lastNoTrade ∧
      (dfs.foldl process s).firstYesCross = (s.process dfs.flatten).firstYesCross := by
  induction dfs generalizing s with
  | nil => exact ⟨rfl, rfl, rfl⟩
  | cons df dfs ih =>
      obtain ⟨books, trades, crosses⟩ := ih (s.process df)
      rw [List.foldl_cons, List.flatten_cons, books, trades, crosses]
      simp only [process, List.filter_append, foldByKey, List.foldl_append, and_self]

/-- In the order of time, the first cross that is seen is the first. -/
theorem firstYesCross_foldl {dfs : List (List Observation)}
    (sorted : dfs.flatten.Pairwise fun o later => o.tsMs ≤ later.tsMs) (cid : Text) :
    (dfs.foldl process empty).firstYesCross cid = (crossTimes cid dfs.flatten).head? := by
  have inOrder : (crossTimes cid dfs.flatten).Pairwise fun ts later => id ts ≤ id later :=
    List.pairwise_map.mpr ((sorted.filter _).filter _)
  rw [(foldl_process empty dfs).2.2, ← argmin_of_sorted inOrder]
  refine (foldByKey_apply _ _ cid).trans ?_
  rw [crossTimes, List.argmin, List.foldl_map]
  rfl

/-- The rows of a condition that has not crossed are passed over. -/
theorem foldl_noteNear_of_none {crosses : Text → Option Int} {cid : Text}
    (no : crosses cid = none) {rows : List Observation} (own : ∀ o ∈ rows, o.conditionId = cid)
    (held : Option NearBook) : rows.foldl (noteNear crosses) held = held := by
  induction rows with
  | nil => rfl
  | cons o rows ih =>
      rw [List.forall_mem_cons] at own
      rw [List.foldl_cons, noteNear, own.1, no]
      exact ih own.2

theorem foldl_noteNear_of_some {crosses : Text → Option Int} {cid : Text} {crossTs : Int}
    (crossed : crosses cid = some crossTs) {rows : List Observation}
    (own : ∀ o ∈ rows, o.conditionId = cid) (held : Option NearBook) :
    rows.foldl (noteNear crosses) held =
      (rows.filterMap (near crossTs)).foldl
        (List.argAux fun new old => new.diff < old.diff) held := by
  induction rows generalizing held with
  | nil => rfl
  | cons o rows ih =>
      rw [List.forall_mem_cons] at own
      rw [List.foldl_cons, noteNear, own.1, crossed, Option.bind_some]
      cases found : near crossTs o with
      | none => rw [List.filterMap_cons_none found, ih own.2]
      | some nearBook => rw [List.filterMap_cons_some found, List.foldl_cons, ih own.2]

/-- One batch moves the nearest row of a condition that has crossed by its end. -/
theorem noBookAtCross_process (s : Aggregates) (df : List Observation) (cid : Text) :
    (s.process df).noBookAtCross cid =
      match (s.process df).firstYesCross cid with
      | none => s.noBookAtCross cid
      | some crossTs =>
          (nearRows cid crossTs df).foldl (List.argAux fun new old => new.diff < old.diff)
            (s.noBookAtCross cid) := by
  have own : ∀ o ∈ (df.filter Observation.isNoBook).filter fun o => o.conditionId = cid,
      o.conditionId = cid := fun o mem => of_decide_eq_true (List.mem_filter.mp mem).2
  refine (foldByKey_apply _ _ cid).trans ?_
  cases crossed : (s.process df).firstYesCross cid with
  | none => exact foldl_noteNear_of_none crossed own _
  | some crossTs => exact foldl_noteNear_of_some crossed own _

end Aggregates

/-- The batches before the first with a cross of the condition, and the batches from it on. -/
def beforeCross (cid : Text) (dfs : List (List Observation)) : List (List Observation) :=
  dfs.takeWhile fun df => crossTimes cid df = []

def fromCross (cid : Text) (dfs : List (List Observation)) : List (List Observation) :=
  dfs.dropWhile fun df => crossTimes cid df = []

theorem beforeCross_append_fromCross (cid : Text) (dfs : List (List Observation)) :
    beforeCross cid dfs ++ fromCross cid dfs = dfs := List.takeWhile_append_dropWhile

theorem fromCross_eq_nil {cid : Text} {dfs : List (List Observation)} :
    fromCross cid dfs = [] ↔ crossTimes cid dfs.flatten = [] := by
  rw [fromCross, List.dropWhile_eq_nil_iff]
  induction dfs with
  | nil => exact iff_of_true nofun rfl
  | cons df dfs ih =>
      rw [List.flatten_cons, crossTimes_append, List.append_eq_nil_iff, ← ih, List.forall_mem_cons,
        decide_eq_true_iff]

theorem fromCross_singleton {cid : Text} {df : List Observation}
    (crossed : crossTimes cid df ≠ []) : fromCross cid [df] = [df] :=
  List.dropWhile_cons_of_neg (by rwa [decide_eq_true_iff])

theorem fromCross_append_of_nil {cid : Text} {dfs : List (List Observation)}
    (nothing : crossTimes cid dfs.flatten = []) (later : List (List Observation)) :
    fromCross cid (dfs ++ later) = fromCross cid later := by
  have passed := fromCross_eq_nil.mpr nothing
  rw [fromCross] at passed
  rw [fromCross, List.dropWhile_append, passed]
  rfl

theorem fromCross_append_of_ne_nil {cid : Text} {dfs : List (List Observation)}
    (crossed : crossTimes cid dfs.flatten ≠ []) (later : List (List Observation)) :
    fromCross cid (dfs ++ later) = fromCross cid dfs ++ later := by
  have reached := mt fromCross_eq_nil.mp crossed
  rw [fromCross] at reached ⊢
  rw [List.dropWhile_append, if_neg (by rwa [List.isEmpty_iff])]
  rfl

/-- **The nearest row.** The loops find the first nearest row of those that are in the batch of the
cross or later. -/
theorem Aggregates.noBookAtCross_foldl {dfs : List (List Observation)}
    (sorted : dfs.flatten.Pairwise fun o later => o.tsMs ≤ later.tsMs) (cid : Text) :
    (dfs.foldl process empty).noBookAtCross cid =
      (crossTimes cid dfs.flatten).head?.bind fun crossTs =>
        (nearRows cid crossTs (fromCross cid dfs).flatten).argmin NearBook.diff := by
  induction dfs using List.reverseRecOn with
  | nil => rfl
  | append_singleton dfs df ih =>
      have known := firstYesCross_foldl sorted cid
      rw [List.flatten_concat] at sorted
      have held := ih (List.pairwise_append.mp sorted).1
      rw [List.foldl_concat, List.flatten_concat, crossTimes_append] at known
      rw [List.foldl_concat, noBookAtCross_process, known, held, List.flatten_concat,
        crossTimes_append]
      by_cases before : crossTimes cid dfs.flatten = []
      · rw [fromCross_append_of_nil before, before, List.nil_append]
        cases now : crossTimes cid df with
        | nil => rfl
        | cons crossTs _ =>
            rw [fromCross_singleton (by rw [now]; exact List.cons_ne_nil _ _),
              List.flatten_singleton]
            rfl
      · rw [fromCross_append_of_ne_nil before]
        cases first : crossTimes cid dfs.flatten with
        | nil => exact absurd first before
        | cons crossTs _ =>
            rw [List.flatten_concat, List.cons_append, List.head?_cons, List.head?_cons,
              Option.bind_some, Option.bind_some, nearRows_append, ← foldl_argmin]

/-! ## Where the batches are cut -/

/-- The first nearest row of the batches before the cross is not needed: the later ones have a
nearer row, or their first nearest row is the same. -/
def NearestKept (cid : Text) (dfs : List (List Observation)) : Prop :=
  ∀ crossTs ∈ (crossTimes cid dfs.flatten).head?,
    ∀ missed ∈ (nearRows cid crossTs (beforeCross cid dfs).flatten).argmin NearBook.diff,
      ∃ found ∈ (nearRows cid crossTs (fromCross cid dfs).flatten).argmin NearBook.diff,
        found.diff < missed.diff ∨ found = missed

/-- Wherever there is a row within 5 s of the first cross, one at the least distance is held. -/
def HoldsNearest (s : Aggregates) (df : List Observation) : Prop :=
  ∀ cid crossTs, s.firstYesCross cid = some crossTs → nearRows cid crossTs df ≠ [] →
    ∃ held ∈ nearRows cid crossTs df, s.noBookAtCross cid = some held ∧
      ∀ other ∈ nearRows cid crossTs df, held.diff ≤ other.diff

theorem noBookAtCross_one {df : List Observation}
    (sorted : df.Pairwise fun o later => o.tsMs ≤ later.tsMs) (cid : Text) :
    (Aggregates.empty.process df).noBookAtCross cid =
      (crossTimes cid df).head?.bind fun crossTs =>
        (nearRows cid crossTs df).argmin NearBook.diff := by
  rw [← List.flatten_singleton (l := df)] at sorted
  have found := Aggregates.noBookAtCross_foldl sorted cid
  rw [List.flatten_singleton] at found
  refine found.trans ?_
  cases first : crossTimes cid df with
  | nil => rfl
  | cons crossTs _ =>
      rw [fromCross_singleton (by rw [first]; exact List.cons_ne_nil _ _), List.flatten_singleton]

/-- One batch with all rows holds a nearest row. -/
theorem holdsNearest_one {df : List Observation}
    (sorted : df.Pairwise fun o later => o.tsMs ≤ later.tsMs) :
    HoldsNearest (Aggregates.empty.process df) df := by
  intro cid crossTs crossed rows
  have first : (crossTimes cid [df].flatten).head? = some crossTs :=
    (Aggregates.firstYesCross_foldl (by rwa [List.flatten_singleton]) cid).symm.trans crossed
  rw [List.flatten_singleton] at first
  obtain ⟨held, found⟩ : ∃ held, (nearRows cid crossTs df).argmin NearBook.diff = some held :=
    Option.ne_none_iff_exists'.mp (mt List.argmin_eq_none.mp rows)
  refine ⟨held, List.argmin_mem found, ?_, fun other mem => List.le_of_mem_argmin mem found⟩
  rw [noBookAtCross_one sorted, first]
  exact found

/-- **One condition.** The batches hold the row that one batch holds exactly if they keep it. -/
theorem noBookAtCross_eq_iff {dfs : List (List Observation)}
    (sorted : dfs.flatten.Pairwise fun o later => o.tsMs ≤ later.tsMs) (cid : Text) :
    (dfs.foldl Aggregates.process .empty).noBookAtCross cid =
        (Aggregates.empty.process dfs.flatten).noBookAtCross cid ↔ NearestKept cid dfs := by
  rw [Aggregates.noBookAtCross_foldl sorted, noBookAtCross_one sorted, NearestKept]
  cases (crossTimes cid dfs.flatten).head? with
  | none => exact iff_of_true rfl nofun
  | some crossTs =>
      have all : nearRows cid crossTs dfs.flatten =
          nearRows cid crossTs (beforeCross cid dfs).flatten ++
            nearRows cid crossTs (fromCross cid dfs).flatten := by
        rw [← nearRows_append, ← List.flatten_append, beforeCross_append_fromCross]
      rw [Option.bind_some, Option.bind_some, all, eq_comm, argmin_append_eq_right_iff]
      exact ⟨fun kept _ same => Option.some.inj same ▸ kept, fun kept => kept crossTs rfl⟩

/-- **Batches.** Rows in the order of time, cut in any way, give the dictionaries that they give as
one batch, with a nearest row wherever there is one, if and only if no condition needs a row of a
batch before its first cross. -/
theorem batches_agree_iff (info : List MetaRow) (batches : List (List File))
    (sorted : batches.flatten.flatten.Pairwise fun row later => tsMs row ≤ tsMs later) :
    stream info batches = stream info [batches.flatten] ∧
        HoldsNearest (stream info batches) (readBatch info batches.flatten) ↔
      ∀ cid, NearestKept cid (batches.map (readBatch info)) := by
  have inOrder := sorted_readBatch info sorted
  rw [stream_eq, stream_eq, List.map_singleton, List.foldl_cons, List.foldl_nil]
  rw [readBatch_flatten] at inOrder ⊢
  obtain ⟨books, trades, crosses⟩ := Aggregates.foldl_process .empty (batches.map (readBatch info))
  constructor
  · rintro ⟨same, -⟩ cid
    exact (noBookAtCross_eq_iff inOrder cid).mp (congrFun (congrArg _ same) cid)
  · intro kept
    have same := Aggregates.ext books trades crosses
      (funext fun cid => (noBookAtCross_eq_iff inOrder cid).mpr (kept cid))
    exact ⟨same, same ▸ holdsNearest_one inOrder⟩

def btcUpOrDown : List MetaRow :=
  [⟨"1".toList, "0x1".toList, "YES".toList⟩, ⟨"2".toList, "0x1".toList, "NO".toList⟩]

/-- A quote of the token, 2 cents wide. -/
def quote (assetId : String) (ms : Nat) (bid : ℚ) : Journal.Row ℚ :=
  { timestampNs := ms * 10 ^ 6, price := bid, size := 1, bestBid := bid, bestAsk := bid + 1 / 50
    side := some .bid, eventType := some .priceChange, assetId := assetId.toList }

theorem batches_agree_iff_oneCross :
    let batches := [[[quote "2" 0 (3 / 5)]], [[quote "1" 1000 (3 / 10), quote "2" 1001 (7 / 10)]]]
    stream btcUpOrDown batches = stream btcUpOrDown [batches.flatten] ∧
        HoldsNearest (stream btcUpOrDown batches) (readBatch btcUpOrDown batches.flatten) ↔
      ∀ cid, NearestKept cid (batches.map (readBatch btcUpOrDown)) :=
  batches_agree_iff _ _ (by decide)

/-- The NO quote is in the last file of a batch, and the YES quote one second later in the first
file of the next. -/
theorem nearest_missed_across_batches :
    let batches := [[[quote "2" 0 (3 / 5)]], [[quote "1" 1000 (3 / 10)]]]
    (stream btcUpOrDown batches).noBookAtCross "0x1".toList = none ∧
      (stream btcUpOrDown [batches.flatten]).noBookAtCross "0x1".toList =
        some ⟨0, 3 / 5, 31 / 50, 1000⟩ ∧
      ¬ (stream btcUpOrDown batches = stream btcUpOrDown [batches.flatten] ∧
        HoldsNearest (stream btcUpOrDown batches) (readBatch btcUpOrDown batches.flatten)) := by
  intro batches
  have missed : (stream btcUpOrDown batches).noBookAtCross "0x1".toList = none := by
    decide +kernel
  have held : (stream btcUpOrDown [batches.flatten]).noBookAtCross "0x1".toList =
      some ⟨0, 3 / 5, 31 / 50, 1000⟩ := by
    decide +kernel
  refine ⟨missed, held, fun both => ?_⟩
  rw [both.1, held] at missed
  cases missed

end Tickscope.Research
