import Mathlib.Algebra.Order.Field.Rat
import Mathlib.Algebra.Order.Group.Int
import Mathlib.Data.Int.ConditionallyCompleteOrder
import Mathlib.Data.List.Induction
import Mathlib.Logic.Function.Basic
import Tickscope.Lib.KeyedTable
import Tickscope.Lib.Machine
import Tickscope.Lib.PyText

/-!
# What the rows of the exchange show

`main` of `scripts/collectors/betfair_collector.py` takes the changes of a market into a book for each
runner. It writes a row when a price has changed and, after every message, a row for each runner that
has had none for a while. So the last row of a runner always shows its book, and the book holds what
the stream has said last (`rows_show_book`).
-/

namespace Tickscope.Collectors.Betfair

open Tickscope.Lib

/-! ## Messages -/

/-- A runner change. An entry of `batb` or `batl` has its level and its price. -/
structure RunnerChange (D : Type) where
  id : Int
  batb : Option (List (Int × D))
  batl : Option (List (Int × D))
  ltp : Option D

/-- One of `mc`; `status` is that of its `marketDefinition`. -/
structure MarketChange (D : Type) where
  rc : List (RunnerChange D)
  status : Option Text

structure Message (D : Type) where
  op : Option Text
  mc : List (MarketChange D)

/-- The runner changes of a message that is taken in. -/
def Message.changes {D : Type} (msg : Message D) : List (RunnerChange D) :=
  if msg.op = some "mcm".toList then msg.mc.flatMap MarketChange.rc else []

/-! ## The book of a runner -/

structure RunnerBook (D : Type) where
  bestBack : D
  bestLay : D
  ltp : D
deriving DecidableEq

variable {D : Type}

namespace RunnerBook

/-- The constructor. -/
def new [Zero D] : RunnerBook D := ⟨0, 0, 0⟩

/-- The price at level 0 after these entries, and whether it has changed on the way. -/
def bestPrice [DecidableEq D] : List (Int × D) → D → D × Bool
  | [], price => (price, false)
  | (level, new) :: entries, price =>
      if level = 0 ∧ new ≠ price then ((bestPrice entries new).1, true)
      else bestPrice entries price

/-- `apply`. -/
def apply [DecidableEq D] (book : RunnerBook D) (rc : RunnerChange D) : RunnerBook D × Bool :=
  let back := bestPrice (rc.batb.getD []) book.bestBack
  let lay := bestPrice (rc.batl.getD []) book.bestLay
  let ltp := rc.ltp.getD book.ltp
  (⟨back.1, lay.1, ltp⟩, back.2 || lay.2 || decide (ltp ≠ book.ltp))

/-- `implied_prob`; `round4` is `round(x, 4)`. -/
def impliedProb [Zero D] [One D] [Div D] [LT D] [DecidableLT D] (round4 : D → D)
    (book : RunnerBook D) : D :=
  if 1 < book.bestBack then round4 (1 / book.bestBack) else 0

end RunnerBook

/-! ## What the stream has said last -/

/-- The prices at level 0. -/
def bests (entries : List (Int × D)) : List D :=
  entries.filterMap fun entry => if entry.1 = 0 then some entry.2 else none

section Apply

variable [DecidableEq D]

theorem bestPrice_fst (entries : List (Int × D)) (price : D) :
    (RunnerBook.bestPrice entries price).1 = (bests entries).getLast?.getD price := by
  induction entries generalizing price with
  | nil => rfl
  | cons entry entries ih =>
      obtain ⟨level, new⟩ := entry
      have step : bests ((level, new) :: entries) =
          (if level = 0 then [new] else []) ++ bests entries := by
        rw [bests, List.filterMap_cons]
        by_cases zero : level = 0 <;> simp only [zero, if_true, if_false] <;> rfl
      rw [step, List.getLast?_append, RunnerBook.bestPrice]
      split
      case isTrue found =>
        dsimp only
        rw [ih new, if_pos found.1]
        cases (bests entries).getLast? <;> rfl
      case isFalse other =>
        rw [ih price]
        cases (bests entries).getLast? with
        | some => rfl
        | none =>
            by_cases zero : level = 0
            · rw [if_pos zero]
              exact (not_not.mp fun ne => other ⟨zero, ne⟩).symm
            · rw [if_neg zero]
              rfl

theorem bestPrice_of_unchanged {entries : List (Int × D)} {price : D}
    (unchanged : (RunnerBook.bestPrice entries price).2 = false) :
    (RunnerBook.bestPrice entries price).1 = price := by
  induction entries with
  | nil => rfl
  | cons entry entries ih =>
      rw [RunnerBook.bestPrice] at unchanged ⊢
      split
      case isTrue found =>
        rw [if_pos found] at unchanged
        cases unchanged
      case isFalse other =>
        rw [if_neg other] at unchanged
        exact ih unchanged

theorem apply_of_unchanged {book : RunnerBook D} {rc : RunnerChange D}
    (unchanged : (book.apply rc).2 = false) : (book.apply rc).1 = book := by
  simp only [RunnerBook.apply, Bool.or_eq_false_iff, decide_eq_false_iff_not, not_not] at unchanged
  obtain ⟨⟨back, lay⟩, ltp⟩ := unchanged
  rw [RunnerBook.apply]
  dsimp only
  rw [bestPrice_of_unchanged back, bestPrice_of_unchanged lay, ltp]

end Apply

variable [Zero D]

/-- The last of these prices. -/
def latest (prices : List D) : D := prices.getLast?.getD 0

/-- The last prices of a runner. -/
def lastPrices (changes : List (RunnerChange D)) (rid : Int) : RunnerBook D :=
  let own := changes.filter fun rc => rc.id = rid
  ⟨latest (own.flatMap fun rc => bests (rc.batb.getD [])),
    latest (own.flatMap fun rc => bests (rc.batl.getD [])),
    latest (own.filterMap RunnerChange.ltp)⟩

theorem latest_append (prices later : List D) :
    latest (prices ++ later) = later.getLast?.getD (latest prices) := by
  rw [latest, List.getLast?_append]
  cases later.getLast? <;> rfl

/-- `apply` keeps the book at the last prices. -/
theorem lastPrices_concat [DecidableEq D] (changes : List (RunnerChange D)) (rc : RunnerChange D) :
    lastPrices (changes ++ [rc]) =
      Function.update (lastPrices changes) rc.id ((lastPrices changes rc.id).apply rc).1 := by
  funext rid
  by_cases own : rc.id = rid
  · subst own
    have one : ([rc].filter fun rc' => rc'.id = rc.id) = [rc] := by simp
    rw [Function.update_self]
    simp only [lastPrices, List.filter_append, one, List.flatMap_append, List.filterMap_append,
      latest_append, RunnerBook.apply, bestPrice_fst, List.flatMap_singleton]
    cases ltp : rc.ltp <;> simp [ltp]
  · rw [Function.update_of_ne (Ne.symm own)]
    have none : ([rc].filter fun rc' => rc'.id = rid) = [] := by simp [own]
    simp only [lastPrices, List.filter_append, none, List.append_nil]

/-! ## The loop -/

inductive EventType where
  | priceChange
  | heartbeat
deriving DecidableEq

structure Row (D : Type) where
  tsMs : Int
  marketId : Text
  runnerId : Int
  runnerName : Text
  bestBack : D
  bestLay : D
  lastTradedPrice : D
  impliedProb : D
  eventType : EventType
deriving DecidableEq

/-- What is known before the loop, and what `now_ms()` returns from call to call. -/
structure Config (D : Type) where
  marketId : Text
  runnerNames : Int → Option Text
  hbIntervalMs : Int
  round4 : D → D
  clock : Nat → Int

/-- `books` and `last_heartbeat` have the keys `runners`. -/
structure Collector (D : Type) where
  runners : List Int
  books : Int → RunnerBook D
  lastHeartbeat : Int → Int
  rows : List (Row D)
  /-- calls of `now_ms()` -/
  reads : Nat
  tsNow : Int
  running : Bool

variable [One D] [Div D] [LT D] [DecidableLT D]

/-- The row of `write_row`. -/
def Config.row (cfg : Config D) (runnerId : Int) (book : RunnerBook D) (ts : Int)
    (eventType : EventType) : Row D where
  tsMs := ts
  marketId := cfg.marketId
  runnerId := runnerId
  runnerName := (cfg.runnerNames runnerId).getD (toString runnerId).toList
  bestBack := book.bestBack
  bestLay := book.bestLay
  lastTradedPrice := book.ltp
  impliedProb := book.impliedProb cfg.round4
  eventType := eventType

namespace Collector

/-- Before the first message. -/
def new : Collector D := ⟨[], fun _ => .new, fun _ => 0, [], 0, 0, true⟩

/-- `write_row`. -/
def writeRow (cfg : Config D) (s : Collector D) (runnerId : Int) (eventType : EventType) :
    Collector D :=
  { s with
    rows := s.rows ++ [cfg.row runnerId (s.books runnerId) (cfg.clock s.reads) eventType]
    reads := s.reads + 1 }

/-- `books[rid] = RunnerBook()` for a new runner. -/
def meet (s : Collector D) (rid : Int) : Collector D :=
  if rid ∈ s.runners then s
  else
    { s with
      runners := s.runners ++ [rid]
      books := Function.update s.books rid .new
      lastHeartbeat := Function.update s.lastHeartbeat rid 0 }

/-- One runner change. -/
def change [DecidableEq D] (cfg : Config D) (s : Collector D) (rc : RunnerChange D) : Collector D :=
  let s := s.meet rc.id
  let (book, changed) := (s.books rc.id).apply rc
  let s := { s with books := Function.update s.books rc.id book }
  if changed then
    let s := s.writeRow cfg rc.id .priceChange
    { s with
      lastHeartbeat := Function.update s.lastHeartbeat rc.id (cfg.clock s.reads)
      reads := s.reads + 1 }
  else s

/-- The heartbeat row of one runner, if it is due. -/
def heartbeat (cfg : Config D) (s : Collector D) (rid : Int) : Collector D :=
  if cfg.hbIntervalMs ≤ s.tsNow - s.lastHeartbeat rid then
    let s := s.writeRow cfg rid .heartbeat
    { s with lastHeartbeat := Function.update s.lastHeartbeat rid s.tsNow }
  else s

/-- `ts_now = now_ms()` and the loop over `books`. -/
def heartbeats (cfg : Config D) (s : Collector D) : Collector D :=
  s.runners.foldl (heartbeat cfg) { s with tsNow := cfg.clock s.reads, reads := s.reads + 1 }

/-- One turn of the loop. -/
def turn [DecidableEq D] (cfg : Config D) (s : Collector D) (msg : Message D) : Collector D :=
  if msg.op = some "_timeout".toList then s
  else
    let s := (msg.changes.foldl (change cfg) s).heartbeats cfg
    { s with running := msg.mc.all fun mc => mc.status ≠ some "CLOSED".toList }

/-- There is no turn once the script has ended. -/
def machine [DecidableEq D] (cfg : Config D) : Machine (Collector D) (Message D) where
  step s msg := if s.running then some (s.turn cfg msg) else none

theorem machine_step_eq_some [DecidableEq D] {cfg : Config D} {s s' : Collector D} {msg : Message D} :
    (machine cfg).step s msg = some s' ↔ s.running = true ∧ s.turn cfg msg = s' := by
  rw [machine, Option.ite_none_right_eq_some, Option.some.injEq]

end Collector

/-! ## The last row of a runner -/

namespace Collector

variable {cfg : Config D} {s : Collector D}

/-- The last row of a runner shows its book as it is now; it was written at reading `i` of the
clock. -/
def ShowsAt (cfg : Config D) (s : Collector D) (rid : Int) (i : Nat) : Prop :=
  ∃ eventType, lastRowOf Row.runnerId s.rows rid =
    some (cfg.row rid (s.books rid) (cfg.clock i) eventType)

/-- The last row of a runner shows its book, unless the runner has just been met. -/
def Shown (cfg : Config D) (s : Collector D) (rid : Int) : Prop :=
  s.lastHeartbeat rid = 0 ∨ ∃ i, s.ShowsAt cfg rid i ∧ s.lastHeartbeat rid ≤ cfg.clock (i + 1)

/-- The last row of a runner shows its book, and it has not been there for long. -/
def Current (cfg : Config D) (s : Collector D) (rid : Int) : Prop :=
  ∃ i, s.ShowsAt cfg rid i ∧ s.tsNow < cfg.clock (i + 1) + cfg.hbIntervalMs

/-- The books are those of these changes. -/
structure Holds (cfg : Config D) (s : Collector D) (changes : List (RunnerChange D)) : Prop where
  known : ∀ rid, rid ∈ s.runners ↔ ∃ rc ∈ changes, rc.id = rid
  books : ∀ rid ∈ s.runners, s.books rid = lastPrices changes rid
  shown : ∀ rid ∈ s.runners, s.Shown cfg rid

theorem ShowsAt.congr {s' : Collector D} {rid : Int} {i : Nat} (shows : s.ShowsAt cfg rid i)
    (books : s'.books rid = s.books rid)
    (rows : lastRowOf Row.runnerId s'.rows rid = lastRowOf Row.runnerId s.rows rid) :
    s'.ShowsAt cfg rid i := by
  obtain ⟨label, last⟩ := shows
  exact ⟨label, by rw [rows, books, last]⟩

/-- What is written of one runner says nothing of another. -/
theorem lastRowOf_other (cfg : Config D) (rows : List (Row D)) {rid rid' : Int} (other : rid' ≠ rid)
    (book : RunnerBook D) (ts : Int) (eventType : EventType) :
    lastRowOf Row.runnerId (rows ++ [cfg.row rid' book ts eventType]) rid =
      lastRowOf Row.runnerId rows rid := by
  rw [lastRowOf_concat]
  exact if_neg other

/-- A row that is written now is the last one of its runner. -/
theorem showsAt_writeRow (cfg : Config D) (s : Collector D) (rid : Int) (eventType : EventType) :
    (s.writeRow cfg rid eventType).ShowsAt cfg rid s.reads := by
  refine ⟨eventType, ?_⟩
  show lastRowOf Row.runnerId (s.rows ++ [_]) rid = _
  rw [lastRowOf_concat]
  exact if_pos rfl

/-! ### A heartbeat -/

/-- The heartbeat row of a runner says nothing of another. -/
theorem heartbeat_other (cfg : Config D) (s : Collector D) {rid rid' : Int} (other : rid' ≠ rid) :
    (s.Shown cfg rid → (s.heartbeat cfg rid').Shown cfg rid) ∧
      (s.Current cfg rid → (s.heartbeat cfg rid').Current cfg rid) := by
  unfold heartbeat
  split
  case isTrue due =>
    have kept {i : Nat} (shows : s.ShowsAt cfg rid i) :
        ({ s.writeRow cfg rid' .heartbeat with
          lastHeartbeat := Function.update s.lastHeartbeat rid' s.tsNow } :
            Collector D).ShowsAt cfg rid i  :=
      shows.congr rfl (lastRowOf_other cfg s.rows other ..)
    have beat : Function.update s.lastHeartbeat rid' s.tsNow rid = s.lastHeartbeat rid :=
      Function.update_of_ne (Ne.symm other) ..
    refine ⟨fun shown => ?_, fun ⟨i, shows, recent⟩ => ⟨i, kept shows, recent⟩⟩
    exact shown.imp beat.trans fun ⟨i, shows, le⟩ => ⟨i, kept shows, beat.trans_le le⟩
  case isFalse => exact ⟨id, id⟩

/-- A runner whose row is old enough gets a new one. -/
theorem heartbeat_current (forward : Monotone cfg.clock) (interval : 0 < cfg.hbIntervalMs)
    (epoch : cfg.hbIntervalMs ≤ cfg.clock 0) {k : Nat} (read : k < s.reads)
    (now : s.tsNow = cfg.clock k) {rid : Int} (shown : s.Shown cfg rid) :
    (s.heartbeat cfg rid).Shown cfg rid ∧ (s.heartbeat cfg rid).Current cfg rid := by
  have later : s.tsNow ≤ cfg.clock (s.reads + 1) := now.trans_le (forward (by omega))
  unfold heartbeat
  split
  case isTrue due =>
    have shows : ({ s.writeRow cfg rid .heartbeat with
        lastHeartbeat := Function.update s.lastHeartbeat rid s.tsNow } :
          Collector D).ShowsAt cfg rid s.reads := showsAt_writeRow cfg s rid .heartbeat
    have recent : s.tsNow < cfg.clock (s.reads + 1) + cfg.hbIntervalMs := by omega
    refine ⟨.inr ⟨s.reads, shows, ?_⟩, s.reads, shows, recent⟩
    show Function.update s.lastHeartbeat rid s.tsNow rid ≤ _
    rw [Function.update_self]
    exact later
  case isFalse early =>
    refine ⟨shown, ?_⟩
    rcases shown with never | ⟨i, shows, le⟩
    · have least := forward (Nat.zero_le k)
      rw [never] at early
      omega
    · exact ⟨i, shows, by omega⟩

/-- What a heartbeat leaves alone. -/
theorem heartbeat_frame (cfg : Config D) (s : Collector D) (rid : Int) :
    (s.heartbeat cfg rid).runners = s.runners ∧ (s.heartbeat cfg rid).books = s.books ∧
      (s.heartbeat cfg rid).tsNow = s.tsNow ∧ s.reads ≤ (s.heartbeat cfg rid).reads := by
  unfold heartbeat
  split
  · exact ⟨rfl, rfl, rfl, Nat.le_succ _⟩
  · exact ⟨rfl, rfl, rfl, le_rfl⟩

/-- The loop over the runners. -/
theorem foldl_heartbeat (forward : Monotone cfg.clock) (interval : 0 < cfg.hbIntervalMs)
    (epoch : cfg.hbIntervalMs ≤ cfg.clock 0) {k : Nat} (rids : List Int) {s : Collector D}
    (read : k < s.reads) (now : s.tsNow = cfg.clock k) :
    (rids.foldl (heartbeat cfg) s).runners = s.runners ∧
      (rids.foldl (heartbeat cfg) s).books = s.books ∧
      ∀ rid, s.Shown cfg rid → (rids.foldl (heartbeat cfg) s).Shown cfg rid ∧
        (s.Current cfg rid ∨ rid ∈ rids → (rids.foldl (heartbeat cfg) s).Current cfg rid) := by
  induction rids generalizing s with
  | nil => exact ⟨rfl, rfl, fun rid shown => ⟨shown, fun found => found.resolve_right nofun⟩⟩
  | cons first rids ih =>
      obtain ⟨runners, books, tsNow, le⟩ := heartbeat_frame cfg s first
      obtain ⟨runners', books', rest⟩ := ih (read.trans_le le) (tsNow.trans now)
      refine ⟨runners'.trans runners, books'.trans books, fun rid shown => ?_⟩
      by_cases own : first = rid
      · subst own
        obtain ⟨shown', current⟩ := heartbeat_current forward interval epoch read now shown
        obtain ⟨shown'', later⟩ := rest first shown'
        exact ⟨shown'', fun _ => later (.inl current)⟩
      · obtain ⟨kept, kept'⟩ := heartbeat_other cfg s own
        obtain ⟨shown'', later⟩ := rest rid (kept shown)
        refine ⟨shown'', fun found => later (found.imp kept' fun mem => ?_)⟩
        exact (List.mem_cons.mp mem).resolve_left (Ne.symm own)

/-- After the heartbeats every runner has a row that shows its book. -/
theorem Holds.heartbeats {changes : List (RunnerChange D)} (holds : s.Holds cfg changes)
    (forward : Monotone cfg.clock) (interval : 0 < cfg.hbIntervalMs)
    (epoch : cfg.hbIntervalMs ≤ cfg.clock 0) :
    (s.heartbeats cfg).Holds cfg changes ∧
      ∀ rid ∈ (s.heartbeats cfg).runners, (s.heartbeats cfg).Current cfg rid := by
  obtain ⟨runners, books, each⟩ := foldl_heartbeat forward interval epoch (k := s.reads) s.runners
    (s := { s with tsNow := cfg.clock s.reads, reads := s.reads + 1 }) (Nat.lt_succ_self _) rfl
  have runners : (s.heartbeats cfg).runners = s.runners := runners
  have books : (s.heartbeats cfg).books = s.books := books
  refine ⟨⟨?_, ?_, ?_⟩, ?_⟩
  · rw [runners]
    exact holds.known
  · rw [runners, books]
    exact holds.books
  · rw [runners]
    exact fun rid mem => (each rid (holds.shown rid mem)).1
  · rw [runners]
    exact fun rid mem => (each rid (holds.shown rid mem)).2 (.inr mem)

/-! ### A runner change -/

/-- A new runner has the book of no changes. -/
theorem Holds.meet {changes : List (RunnerChange D)} (holds : s.Holds cfg changes) (rid : Int) :
    (∀ r, r ∈ (s.meet rid).runners ↔ r = rid ∨ r ∈ s.runners) ∧
      (∀ r ∈ (s.meet rid).runners, (s.meet rid).books r = lastPrices changes r) ∧
      (∀ r ∈ (s.meet rid).runners, (s.meet rid).Shown cfg r) ∧
      (s.meet rid).reads = s.reads := by
  unfold Collector.meet
  split
  case isTrue known =>
    refine ⟨fun r => ⟨.inr, ?_⟩, holds.books, holds.shown, rfl⟩
    rintro (rfl | mem)
    · exact known
    · exact mem
  case isFalse unknown =>
    have mem (r : Int) : r ∈ s.runners ++ [rid] ↔ r = rid ∨ r ∈ s.runners := by
      rw [List.mem_append, List.mem_singleton, or_comm]
    have noChange : changes.filter (fun rc => rc.id = rid) = [] := by
      rw [List.filter_eq_nil_iff]
      intro rc here same
      exact unknown ((holds.known rid).mpr ⟨rc, here, of_decide_eq_true same⟩)
    refine ⟨mem, fun r here => ?_, fun r here => ?_, rfl⟩
    · show Function.update s.books rid .new r = _
      by_cases new : r = rid
      · subst new
        rw [Function.update_self, lastPrices, noChange]
        rfl
      · rw [Function.update_of_ne new]
        exact holds.books r (((mem r).mp here).resolve_left new)
    · by_cases new : r = rid
      · subst new
        exact .inl (Function.update_self ..)
      · have beat : Function.update s.lastHeartbeat rid 0 r = s.lastHeartbeat r :=
          Function.update_of_ne new ..
        have books : Function.update s.books rid .new r = s.books r := Function.update_of_ne new ..
        refine (holds.shown r (((mem r).mp here).resolve_left new)).imp beat.trans ?_
        exact fun ⟨i, shows, le⟩ => ⟨i, shows.congr books rfl, beat.trans_le le⟩

/-- **One runner change.** -/
theorem Holds.change [DecidableEq D] {changes : List (RunnerChange D)} (holds : s.Holds cfg changes)
    (rc : RunnerChange D) : (s.change cfg rc).Holds cfg (changes ++ [rc]) := by
  obtain ⟨mem, books, shown, reads⟩ := holds.meet rc.id
  have known (r : Int) : r ∈ (s.meet rc.id).runners ↔ ∃ rc' ∈ changes ++ [rc], rc'.id = r := by
    simp only [mem, holds.known, List.mem_append, List.mem_singleton]
    constructor
    · rintro (rfl | ⟨rc', here, same⟩)
      · exact ⟨rc, .inr rfl, rfl⟩
      · exact ⟨rc', .inl here, same⟩
    · rintro ⟨rc', here | rfl, same⟩
      · exact .inr ⟨rc', here, same⟩
      · exact .inl same.symm
  have own : rc.id ∈ (s.meet rc.id).runners := (mem rc.id).mpr (.inl rfl)
  have applied : ∀ r ∈ (s.meet rc.id).runners, Function.update (s.meet rc.id).books rc.id
      (((s.meet rc.id).books rc.id).apply rc).1 r = lastPrices (changes ++ [rc]) r := by
    intro r here
    rw [lastPrices_concat, ← books rc.id own]
    by_cases same : r = rc.id
    · rw [same, Function.update_self, Function.update_self]
    · rw [Function.update_of_ne same, Function.update_of_ne same, books r here]
  unfold Collector.change
  dsimp only
  cases changed : (((s.meet rc.id).books rc.id).apply rc).2 with
  | false =>
      have same : Function.update (s.meet rc.id).books rc.id
          (((s.meet rc.id).books rc.id).apply rc).1 = (s.meet rc.id).books := by
        rw [apply_of_unchanged changed, Function.update_eq_self]
      rw [if_neg Bool.false_ne_true]
      exact ⟨known, applied, by rw [same]; exact shown⟩
  | true =>
      rw [if_pos rfl]
      refine ⟨known, applied, fun r here => ?_⟩
      by_cases same : r = rc.id
      · subst same
        refine .inr ⟨(s.meet rc.id).reads, showsAt_writeRow cfg _ rc.id .priceChange, ?_⟩
        exact (Function.update_self ..).le
      · have books : Function.update (s.meet rc.id).books rc.id
            (((s.meet rc.id).books rc.id).apply rc).1 r = (s.meet rc.id).books r :=
          Function.update_of_ne same ..
        have beat : Function.update (s.meet rc.id).lastHeartbeat rc.id
            (cfg.clock ((s.meet rc.id).reads + 1)) r = (s.meet rc.id).lastHeartbeat r :=
          Function.update_of_ne same ..
        refine (shown r here).imp beat.trans ?_
        rintro ⟨i, shows, le⟩
        exact ⟨i, shows.congr books (lastRowOf_other cfg _ (Ne.symm same) ..), beat.trans_le le⟩

theorem Holds.foldl_change [DecidableEq D] {changes : List (RunnerChange D)}
    (holds : s.Holds cfg changes) (rcs : List (RunnerChange D)) :
    (rcs.foldl (Collector.change cfg) s).Holds cfg (changes ++ rcs) := by
  induction rcs generalizing s changes with
  | nil =>
      rw [List.append_nil]
      exact holds
  | cons rc rcs ih =>
      rw [List.append_cons]
      exact ih (holds.change rc)

/-! ## Runs -/

variable [DecidableEq D]

/-- After these messages. -/
structure After (cfg : Config D) (msgs : List (Message D)) (s : Collector D) : Prop where
  holds : s.Holds cfg (msgs.flatMap fun msg =>
    if msg.op = some "_timeout".toList then [] else msg.changes)
  current : ∀ rid ∈ s.runners, s.Current cfg rid

theorem after_of_run (forward : Monotone cfg.clock) (interval : 0 < cfg.hbIntervalMs)
    (epoch : cfg.hbIntervalMs ≤ cfg.clock 0) {msgs : List (Message D)}
    (reached : (machine cfg).run new msgs = some s) : After cfg msgs s := by
  induction msgs using List.reverseRecOn generalizing s with
  | nil =>
      cases reached
      exact ⟨⟨fun rid => iff_of_false nofun nofun, nofun, nofun⟩, nofun⟩
  | append_singleton msgs msg ih =>
      obtain ⟨s', before, step⟩ := Machine.run_concat_eq_some.mp reached
      obtain ⟨-, rfl⟩ := machine_step_eq_some.mp step
      obtain ⟨holds, current⟩ := ih before
      rw [turn]
      split
      case isTrue timeout =>
        refine ⟨?_, current⟩
        rw [List.flatMap_append, List.flatMap_singleton, if_pos timeout, List.append_nil]
        exact holds
      case isFalse message =>
        obtain ⟨holds', current'⟩ :=
          (holds.foldl_change msg.changes).heartbeats forward interval epoch
        refine ⟨?_, current'⟩
        rw [List.flatMap_append, List.flatMap_singleton, if_neg message]
        exact ⟨holds'.known, holds'.books, holds'.shown⟩

end Collector

end Tickscope.Collectors.Betfair
