import Tickscope.Coinbase.BtcToParquet
import Tickscope.Coinbase.SharedClock
import Tickscope.Coinbase.TicksOnDisk
import Tickscope.Journal.RoundTrip
import Tickscope.Lib.NamedFiles
import Tickscope.Tickerplant.JournalNames

/-!
# From ticker messages to rows

The Coinbase harvester is started again and again in one directory, and stopped or killed. Its files,
decoded in the order of their names, give the quotes of the messages, one process after the other:
all of a process that is stopped, and all but at most 1023 of one that is killed (`rows_of_quotes`).
-/

namespace Tickscope.Coinbase

open Tickscope.Journal Tickscope.Lib Tickscope.Lib.OnDemand
open Tickscope.Tickerplant (Dated printable_gmtime stamp stamp_lt_iff)

/-! ## Names in the order of their windows -/

theorem Config.segmentPath_eq (cfg : Config) (segmentStartMs : Nat) :
    cfg.segmentPath segmentStartMs = ((cfg.dataDir ++ ascii "/btc_") ++
      (stamp (Calendar.gmtime (segmentStartMs / 1000 : Nat)) ++ ascii ".bin")).take 127 := by
  simp only [segmentPath, stamp, List.append_assoc]

/-- `to_datetime` takes only times before the year 10000. -/
theorem dated_of_date {ms : Nat} (date : ms * 10 ^ 6 < 2 ^ 63) : Dated (ms / 1000 : Nat) := by
  have bound : Calendar.timegm ⟨10000, 1, 1, 0, 0, 0⟩ = 253402300800 := by decide
  refine ⟨by omega, ?_⟩
  rw [bound]
  omega

/-- The names of the windows are in their order. -/
theorem Config.segmentPath_mono (cfg : Config) {ms ms' : Nat} (le : ms ≤ ms')
    (date : ms' * 10 ^ 6 < 2 ^ 63) :
    cfg.segmentPath (BtcJournal.windowStart cfg ms) ≤
      cfg.segmentPath (BtcJournal.windowStart cfg ms') := by
  have minutes (ms : Nat) : BtcJournal.windowStart cfg ms / 1000 =
      ms / cfg.rotationMs * cfg.rotationMinutes * 60 := by
    have whole : BtcJournal.windowStart cfg ms =
        1000 * (ms / cfg.rotationMs * cfg.rotationMinutes * 60) := by
      rw [BtcJournal.windowStart, Config.rotationMs]
      ring
    rw [whole, Nat.mul_div_cancel_left _ (by decide)]
  have dated {ms : Nat} (date : ms * 10 ^ 6 < 2 ^ 63) :
      Dated (BtcJournal.windowStart cfg ms / 1000 : Nat) := by
    refine dated_of_date (lt_of_le_of_lt (Nat.mul_le_mul_right _ ?_) date)
    exact Nat.div_mul_le_self _ _
  have earlier : ms * 10 ^ 6 < 2 ^ 63 := lt_of_le_of_lt (Nat.mul_le_mul_right _ le) date
  have keys : Calendar.minuteKey (Calendar.gmtime (BtcJournal.windowStart cfg ms / 1000 : Nat)) ≤
      Calendar.minuteKey (Calendar.gmtime (BtcJournal.windowStart cfg ms' / 1000 : Nat)) := by
    rw [minutes, minutes]
    push_cast
    refine Calendar.strictMono_gmtime.monotone ?_
    exact_mod_cast Nat.mul_le_mul_right _ (Nat.div_le_div_right le)
  rw [segmentPath_eq, segmentPath_eq]
  refine take_le_take 127 (List.not_lt.mp fun lt => ?_)
  rw [append_lt_append_left_iff, append_lt_append_iff ?_,
    stamp_lt_iff (printable_gmtime (dated date)) (printable_gmtime (dated earlier))] at lt
  · rcases lt with lt | ⟨-, lt⟩
    · exact keys.not_gt lt
    · exact absurd lt (List.lt_irrefl _)
  · rw [Tickerplant.length_stamp (printable_gmtime (dated date)),
      Tickerplant.length_stamp (printable_gmtime (dated earlier))]

/-! ## One process -/

variable {D : Type}

namespace Recorded

/-- Without a failed `fopen` every tick is in the file of its window. -/
theorem placed_of_opens {cfg : Config} {calls : List (BtcTick D × Bool)} {r : Recorded D}
    (follows : (Machine.ofFold (write cfg)).Along Follows r calls)
    (opens : ∀ call ∈ calls, call.2 = true) (aligned : Aligned cfg r) (placed : Placed cfg r.total)
    (idle : r.journal.file = none → r.journal.buf = []) :
    Placed cfg (calls.foldl (write cfg) r).total := by
  induction calls generalizing r with
  | nil => exact placed
  | cons call calls ih =>
      rw [Machine.along_ofFold_cons] at follows
      rw [List.forall_mem_cons] at opens
      have opensInWindow : OpensInWindow cfg r call := by
        intro both tick mem
        rw [idle both.1] at mem
        cases mem
      obtain ⟨path, file⟩ : ∃ path, (r.write cfg call).journal.file = some path := by
        rw [file_write, opens.1]
        exact isOpen_rotateIfNeeded ..
      refine ih follows.2 opens.2 (aligned.write call)
        ((placed_write_iff aligned follows.1 placed).mpr opensInWindow) fun closed => ?_
      rw [file] at closed
      cases closed

theorem length_buf_after (cfg : Config) (now : Nat) (files : Str → Option (BinFile D))
    (calls : List (BtcTick D × Bool)) :
    (after cfg now files calls).journal.buf.length < BtcJournal.bufCap := by
  induction calls using List.reverseRecOn with
  | nil => exact Nat.succ_pos 1023
  | append_singleton calls call ih =>
      rw [after_concat]
      exact length_buf_flushIfFull _

end Recorded

/-- A log whose ticks are in their files, in the order of their timestamps, is in the order of the
names. -/
theorem names_sorted {cfg : Config} {log : List (Str × BtcTick D)}
    (placed : Recorded.Placed cfg log)
    (forward : log.Pairwise fun w w' => w.2.timestamp.toNat ≤ w'.2.timestamp.toNat)
    (dates : ∀ w ∈ log, w.2.timestamp.toNat * 10 ^ 6 < 2 ^ 63) :
    (log.map Prod.fst).Pairwise (· ≤ ·) := by
  rw [List.pairwise_map]
  refine forward.imp_of_mem fun {w w'} mem mem' le => ?_
  rw [placed w mem, placed w' mem']
  exact cfg.segmentPath_mono le (dates w' mem')

/-- The row that shows a tick. -/
def shown (tick : BtcTick D) : BtcRow D :=
  ⟨tick.timestamp.toNat * 10 ^ 6, tick.bid, tick.ask, tick.mid⟩

variable [Zero D] [Add D] [Div D] [OfNat D 2] [LE D] [DecidableLE D]

/-- A message that is received, with the clock and with what `fopen` would return. -/
structure Received where
  nowMs : BitVec 64
  payload : Str
  opened : Bool

/-- A process: when it starts, what it receives, and whether its destructor runs. -/
structure Session where
  now : Nat
  feed : List Received
  clean : Bool

namespace Session

/-- The calls of `write`. -/
def calls (json : Simdjson D) (session : Session) : List (BtcTick D × Bool) :=
  session.feed.filterMap fun msg =>
    (onMessage json msg.nowMs msg.payload).map fun tick => (tick, msg.opened)

/-- The quotes of the messages. -/
def quotes (json : Simdjson D) (session : Session) : List (BtcTick D) :=
  session.feed.filterMap fun msg => onMessage json msg.nowMs msg.payload

/-- The readings of the clock. -/
def clock (session : Session) : List Nat := session.feed.map fun msg => msg.nowMs.toNat

/-- Where the process ends. -/
def ends (cfg : Config) (json : Simdjson D) (files : Str → Option (BinFile D))
    (session : Session) : Recorded D :=
  let r := Recorded.after cfg session.now files (session.calls json)
  if session.clean then r.destroy else r

/-- What a process has left of its quotes. -/
structure Kept (json : Simdjson D) (session : Session) (ticks : List (BtcTick D)) : Prop where
  begun : ticks <+: session.quotes json
  all : session.clean = true → ticks = session.quotes json
  /-- Only what is in the buffer is lost. -/
  most : (session.quotes json).length < ticks.length + BtcJournal.bufCap

theorem map_fst_calls (json : Simdjson D) (session : Session) :
    (session.calls json).map Prod.fst = session.quotes json := by
  rw [calls, List.map_filterMap, quotes]
  refine List.filterMap_congr fun msg _ => ?_
  cases onMessage json msg.nowMs msg.payload <;> rfl

theorem opened_of_mem_calls (json : Simdjson D) {session : Session}
    (opens : ∀ msg ∈ session.feed, msg.opened = true) :
    ∀ call ∈ session.calls json, call.2 = true := by
  intro call mem
  obtain ⟨msg, here, eq⟩ := List.mem_filterMap.mp mem
  obtain ⟨tick, -, rfl⟩ := Option.map_eq_some_iff.mp eq
  exact opens msg here

/-- The quotes are stamped with the clock. -/
theorem timestamps_sublist (json : Simdjson D) (session : Session) :
    ((session.quotes json).map fun tick => tick.timestamp.toNat).Sublist session.clock := by
  unfold quotes clock
  induction session.feed with
  | nil => exact List.Sublist.refl _
  | cons msg feed ih =>
      cases accepted : onMessage json msg.nowMs msg.payload with
      | none =>
          simp only [List.filterMap_cons, accepted, List.map_cons]
          exact ih.cons _
      | some tick =>
          simp only [List.filterMap_cons, accepted, List.map_cons, timestamp_onMessage accepted]
          exact ih.cons_cons _

/-- What one process writes. -/
theorem wrote_of_ends (cfg : Config) (json : Simdjson D) (files : Str → Option (BinFile D))
    {session : Session} (forward : session.clock.Pairwise (· ≤ ·))
    (opens : ∀ msg ∈ session.feed, msg.opened = true) :
    (∀ path, Recorded.contents (session.ends cfg json files).journal.files path =
      Recorded.contents files path ++ Recorded.onFile path (session.ends cfg json files).fwritten) ∧
    Recorded.Placed cfg (session.ends cfg json files).fwritten ∧
    session.Kept json ((session.ends cfg json files).fwritten.map Prod.snd) := by
  set r := Recorded.after cfg session.now files (session.calls json) with after
  have opened := opened_of_mem_calls json opens
  have conserves := Recorded.conserves_after cfg session.now files (session.calls json)
  have whole : r.total.map Prod.snd = (session.calls json).map Prod.fst :=
    (Recorded.whole_of_opens opened).1
  rw [← after] at conserves
  rw [map_fst_calls] at whole
  have sorted : (session.calls json).Pairwise fun call later =>
      call.1.timestamp.toNat ≤ later.1.timestamp.toNat := by
    have stamps := forward.sublist (session.timestamps_sublist json)
    rw [← map_fst_calls, List.pairwise_map, List.pairwise_map] at stamps
    exact stamps
  have placed : Recorded.Placed cfg r.total := Recorded.placed_of_opens
    (Recorded.follows_of_sorted sorted fun _ _ isOpen => nomatch isOpen) opened nofun nofun fun _ => rfl
  have total := Recorded.total_eq r
  have buf := Recorded.length_buf_after cfg session.now files (session.calls json)
  rw [← after] at buf
  unfold ends
  dsimp only
  rw [← after]
  cases clean : session.clean with
  | true =>
      refine ⟨conserves.flush.closeSegment.disk, placed, ?_⟩
      have eq : r.destroy.fwritten.map Prod.snd = session.quotes json := whole
      show session.Kept json (r.destroy.fwritten.map Prod.snd)
      rw [eq]
      exact ⟨List.prefix_refl _, fun _ => rfl, Nat.lt_add_of_pos_right (Nat.succ_pos 1023)⟩
  | false =>
      rw [total] at placed whole
      rw [List.map_append] at whole
      refine ⟨conserves.disk, fun w mem => placed w (List.mem_append_left _ mem), ?_⟩
      refine ⟨whole ▸ List.prefix_append _ _, fun ended => ?_, ?_⟩
      · rw [clean] at ended
        cases ended
      · have few : (r.journal.flushed.map Prod.snd).length ≤ r.journal.buf.length := by
          rcases Recorded.map_snd_flushed r.journal with ⟨eq, -⟩ | ⟨eq, -⟩
          · rw [eq]
            exact Nat.zero_le _
          · rw [eq]
        rw [← whole, List.length_append]
        exact Nat.add_lt_add_left (few.trans_lt buf) _

end Session

/-! ## One process after the other -/

/-- The files after these processes. -/
def leave (cfg : Config) (json : Simdjson D) :
    (Str → Option (BinFile D)) → List Session → Str → Option (BinFile D)
  | files, [] => files
  | files, session :: sessions =>
      leave cfg json (session.ends cfg json files).journal.files sessions

theorem wrote_of_leave (cfg : Config) (json : Simdjson D) (files : Str → Option (BinFile D))
    {sessions : List Session} (forward : (sessions.flatMap Session.clock).Pairwise (· ≤ ·))
    (opens : ∀ session ∈ sessions, ∀ msg ∈ session.feed, msg.opened = true) :
    ∃ log parts,
      (∀ path, Recorded.contents (leave cfg json files sessions) path =
        Recorded.contents files path ++ contents log path) ∧
      Recorded.Placed cfg log ∧ log.map Prod.snd = parts.flatten ∧
      List.Forall₂ (Session.Kept json) sessions parts := by
  induction sessions generalizing files with
  | nil => exact ⟨[], [], fun path => (List.append_nil _).symm, nofun, rfl, .nil⟩
  | cons session sessions ih =>
      rw [List.flatMap_cons, List.pairwise_append] at forward
      rw [List.forall_mem_cons] at opens
      obtain ⟨disk, placed, kept⟩ :=
        Session.wrote_of_ends cfg json files forward.1 opens.1
      obtain ⟨log, parts, later, laterPlaced, split, each⟩ :=
        ih (session.ends cfg json files).journal.files forward.2.1 opens.2
      refine ⟨(session.ends cfg json files).fwritten ++ log, _ :: parts, fun path => ?_, ?_, ?_,
        .cons kept each⟩
      · rw [leave, later, disk, contents_append, List.append_assoc]
        rfl
      · exact List.forall_mem_append.mpr ⟨placed, laterPlaced⟩
      · rw [List.map_append, split, List.flatten_cons]

/-- Each process has kept a part of its quotes. -/
theorem sublist_of_kept {json : Simdjson D} {sessions : List Session}
    {parts : List (List (BtcTick D))} (kept : List.Forall₂ (Session.Kept json) sessions parts) :
    (parts.flatten.map fun tick => tick.timestamp.toNat).Sublist
      (sessions.flatMap Session.clock) := by
  induction kept with
  | nil => exact List.Sublist.refl _
  | @cons session part sessions parts here _ ih =>
      rw [List.flatten_cons, List.map_append, List.flatMap_cons]
      refine List.Sublist.append ?_ ih
      exact (here.begun.sublist.map _).trans (session.timestamps_sublist json)

/-- **From ticker messages to rows.** While the clock does not step back and every file can be opened,
the files that are not empty, decoded in the order of their names, show what each process has kept of
its quotes, one process after the other. -/
theorem rows_of_quotes (cfg : Config) (json : Simdjson D) (layout : DoubleLayout D)
    (sessions : List Session) (forward : (sessions.flatMap Session.clock).Pairwise (· ≤ ·))
    (dates : ∀ ms ∈ sessions.flatMap Session.clock, ms * 10 ^ 6 < 2 ^ 63)
    (opens : ∀ session ∈ sessions, ∀ msg ∈ session.feed, msg.opened = true) :
    ∃ (paths : List Str) (tables : List (List (BtcRow D))) (parts : List (List (BtcTick D))),
      (paths.Pairwise (· ≤ ·) ∧ paths.Nodup) ∧
      (∀ path, path ∈ paths ↔
        Recorded.contents (leave cfg json (fun _ => none) sessions) path ≠ []) ∧
      paths.mapM (fun path => decodeFile layout (fileBytes layout
        (Recorded.contents (leave cfg json (fun _ => none) sessions) path) [])) = some tables ∧
      tables.flatten = parts.flatten.map shown ∧
      List.Forall₂ (Session.Kept json) sessions parts := by
  obtain ⟨log, parts, disk, placed, split, kept⟩ :=
    wrote_of_leave cfg json (fun _ => none) forward opens
  have stored (path : Str) : Recorded.contents (leave cfg json (fun _ => none) sessions) path =
      contents log path := disk path
  have stamps := sublist_of_kept kept
  rw [← split, List.map_map] at stamps
  have inDate : ∀ w ∈ log, w.2.timestamp.toNat * 10 ^ 6 < 2 ^ 63 := fun w mem =>
    dates _ (stamps.subset (List.mem_map_of_mem mem))
  have sorted := names_sorted placed (List.pairwise_map.mp (forward.sublist stamps)) inDate
  have back : readBack (· ≤ ·) log = parts.flatten := (readBack_of_sorted sorted).trans split
  refine ⟨names (· ≤ ·) log, (names (· ≤ ·) log).map fun path => (contents log path).map shown, parts,
    ⟨List.pairwise_insertionSort _ _, nodup_names log⟩, fun path => ?_, ?_, ?_, kept⟩
  · rw [stored]
    exact mem_names_iff
  · refine mapM_eq_some_map fun path mem => ?_
    rw [stored, decodeFile_fileBytes layout _ (by decide), if_neg (mem_names_iff.mp mem)]
    refine mapM_eq_some_map fun tick listed => ?_
    obtain ⟨w, filtered, rfl⟩ := List.mem_map.mp listed
    exact rowOf_of_date (inDate w (List.mem_filter.mp filtered).1)
  · rw [← back, readBack, List.map_flatMap, List.flatMap_def]

/-! ## Two quotes, and a process that is killed -/

/-- A parser that knows one ticker message; a `double` is its bits. -/
def tickerJson : Simdjson (BitVec 64) where
  iterate text := if text = tickerText then .ok (.object tickerFields) else .error (.parse 3)
  unescape := .ok
  uint64InString _ := .error (.parse 9)
  doubleInString raw := if raw = ascii "1" then .ok 1 else .error (.parse 9)

/-- A quote and a message that is none, a stop; then a quote in the next window, and the process is
killed. -/
def quoteThenKilled : List Session :=
  [⟨0, [⟨5, tickerText, true⟩, ⟨6, ascii "x", true⟩], true⟩, ⟨900000, [⟨900007, tickerText, true⟩], false⟩]

theorem rows_of_quotes_quoteThenKilled :
    quoteThenKilled.map (fun session => (session.quotes tickerJson).length) = [1, 1] ∧
    ∃ (paths : List Str) (tables : List (List (BtcRow (BitVec 64))))
      (parts : List (List (BtcTick (BitVec 64)))),
      (paths.Pairwise (· ≤ ·) ∧ paths.Nodup) ∧
      (∀ path, path ∈ paths ↔ Recorded.contents
        (leave BtcJournal.fifteenMinutes tickerJson (fun _ => none) quoteThenKilled) path ≠ []) ∧
      paths.mapM (fun path => decodeFile bitsLayout (fileBytes bitsLayout (Recorded.contents
        (leave BtcJournal.fifteenMinutes tickerJson (fun _ => none) quoteThenKilled) path) [])) =
          some tables ∧
      tables.flatten = parts.flatten.map shown ∧
      List.Forall₂ (Session.Kept tickerJson) quoteThenKilled parts := by
  refine ⟨by decide +kernel, ?_⟩
  exact rows_of_quotes BtcJournal.fifteenMinutes tickerJson bitsLayout quoteThenKilled (by decide)
    (by decide) (by decide)

end Tickscope.Coinbase
