import Tickscope.Journal.RoundTrip
import Tickscope.Tickerplant.Answers
import Tickscope.Tickerplant.Lifetimes

/-!
# From messages to rows

A harvester is fed with the payloads of the socket and run again and again on one directory. The
journals, decoded in the order of their names, show the ticks of the messages: for each process the
first of those for which `try_produce` has returned true, and all of them if it was stopped in order
(`rows_of_messages`).
-/

namespace Tickscope.Pipeline

open Tickscope.Core Tickscope.Feedhandler Tickscope.Journal Tickscope.Lib Tickscope.Lib.OnDemand
open Tickscope.Tickerplant

variable {D : Type} [Zero D]

/-- The ticks of the payloads that the Message callback is called with. -/
def ticksOf (json : Simdjson D) (messages : List Str) : List (Tick D) :=
  messages.flatMap fun payload => (onMessage json payload).out

theorem enqueued_of_mem_ticksOf {json : Simdjson D} {messages : List Str} {tick : Tick D}
    (mem : tick ∈ ticksOf json messages) : Enqueued json tick := by
  obtain ⟨payload, -, out⟩ := List.mem_flatMap.mp mem
  unfold onMessage at out
  split at out
  · cases out
  · exact ⟨payload, out⟩

/-- A process and the payloads that it is sent. -/
structure Session (D : Type) where
  life : Lifetime D
  messages : List Str

namespace Session

/-- The ticks that `parse_and_push` calls `try_produce` with. -/
def offered (session : Session D) : List (Tick D) :=
  session.life.labels.filterMap Tickerplant.Label.offered

/-- What `try_produce` returns. -/
def answers (cfg : Config) (session : Session D) : List Bool :=
  (System.machine D cfg).trace System.answers (System.new cfg session.life.data session.life.now)
    session.life.labels

/-- The producer is the Message callback; it may be killed between two ticks. -/
def Fed (json : Simdjson D) (session : Session D) : Prop :=
  session.offered <+: ticksOf json session.messages

/-- What is kept of a session. -/
structure Kept (cfg : Config) (json : Simdjson D) (session : Session D)
    (ticks : List (Tick D)) : Prop where
  /-- The journal is the beginning of what was accepted, -/
  begun : ticks <+: session.life.accepted cfg
  /-- which are ticks of the messages, in their order. -/
  decoded : (session.life.accepted cfg).Sublist (ticksOf json session.messages)
  /-- After an orderly stop it holds the ticks that `try_produce` has returned true for. -/
  told : session.life.Quits cfg → (session.answers cfg).length = session.offered.length →
    ticks = Memory.chosen session.offered (session.answers cfg)

theorem accepted_eq {cfg : Config} {session : Session D} {t : System D}
    (reached : session.life.ends cfg [] = some t) :
    session.life.accepted cfg = t.ring.accepted := by
  rw [Lifetime.accepted, reached]
  rfl

/-- The calls and the answers say what was accepted. -/
theorem accepted_of_answers {cfg : Config} {session : Session D} {t : System D}
    (reached : session.life.ends cfg [] = some t) :
    t.ring.accepted.Sublist session.offered ∧
      ((session.answers cfg).length = session.offered.length →
        t.ring.accepted = Memory.chosen session.offered (session.answers cfg)) := by
  rw [Lifetime.ends_nil] at reached
  obtain ⟨called, answered⟩ := System.answered_of_run reached
  have called : t.ring.called = session.offered := called
  have answered : t.ring.Answered (session.answers cfg) := answered
  unfold Memory.System.Answered at answered
  rw [called] at answered
  cases state : (t.ring.producers ()).pusher with
  | idle =>
      rw [state] at answered
      rw [answered.2]
      exact ⟨Memory.chosen_sublist _ _, fun _ => rfl⟩
  | called item =>
      rw [state] at answered
      obtain ⟨before, calls, len, accepted⟩ := answered
      rw [accepted, calls, ← len, List.length_append]
      refine ⟨(Memory.chosen_sublist _ _).trans (List.sublist_append_left _ _), fun all => ?_⟩
      exact absurd all (by simp)
  | done ok =>
      rw [state] at answered
      obtain ⟨before, item, calls, len, accepted⟩ := answered
      rw [accepted, calls, ← len, List.length_append]
      refine ⟨(Memory.chosen_sublist _ _).append ?_, fun all => absurd all (by simp)⟩
      cases ok
      · exact List.nil_sublist _
      · exact List.Sublist.refl _

/-- What a process journals, in terms of its messages. -/
theorem kept_of_journals {cfg : Config} {json : Simdjson D} {session : Session D}
    (fed : session.Fed json) (opened : ∀ l ∈ session.life.labels, l.opened = true)
    {ticks : List (Tick D)} (journals : session.life.Journals cfg ticks) :
    session.Kept cfg json ticks := by
  refine ⟨journals.1, ?_, fun quits all => ?_⟩
  · cases reached : session.life.ends cfg [] with
    | none =>
        rw [Lifetime.accepted, reached]
        exact List.nil_sublist _
    | some t =>
        rw [accepted_eq reached]
        exact (accepted_of_answers reached).1.trans fed.sublist
  · obtain ⟨t, reached, -⟩ := Lifetime.complete_of_quits opened quits
    rw [journals.2 quits, accepted_eq reached]
    exact (accepted_of_answers reached).2 all

end Session

/-! ## The files -/

/-- The bytes of the journals: 128 for each record, with the padding that the stack left in it, and
what a crash left of the last one. -/
def Holds (layout : DoubleLayout D) (disk : List (Str × Tick D)) (bytes : Str → Str) : Prop :=
  ∀ name ∈ names (· ≤ ·) disk, ∃ (records : List (Record D)) (fragment : Str),
    fragment.length < tickSize ∧ records.map Prod.fst = contents disk name ∧
      bytes name = journal layout records fragment

omit [Zero D] in
/-- One file. -/
theorem decodeJournal_shows (layout : DoubleLayout D) {records : List (Record D)} {fragment : Str}
    (short : fragment.length < tickSize) (some_record : records ≠ [])
    (labelled : ∀ record ∈ records, Labelled record.1)
    (decodable : ∀ record ∈ records, Decodable record.1) :
    ∃ rows, decodeJournal layout (journal layout records fragment) = some rows ∧
      List.Forall₂ Shows rows (records.map Prod.fst) := by
  rw [decodeJournal, validateSize_journal layout records short, if_neg some_record,
    Option.bind_some, decodeRecords, strides_journal]
  exact (decodeAll_shows_iff layout labelled).mpr decodable

omit [Zero D] in
/-- All files, one after the other. -/
theorem tables_of_files {layout : DoubleLayout D} {disk : List (Str × Tick D)} {bytes : Str → Str}
    (holds : Holds layout disk bytes) (labelled : ∀ entry ∈ disk, Labelled entry.2)
    (decodable : ∀ entry ∈ disk, Decodable entry.2) {files : List Str}
    (known : ∀ name ∈ files, name ∈ names (· ≤ ·) disk) :
    ∃ tables, files.mapM (fun name => decodeJournal layout (bytes name)) = some tables ∧
      List.Forall₂ Shows tables.flatten (files.flatMap (contents disk)) := by
  induction files with
  | nil => exact ⟨[], rfl, .nil⟩
  | cons name files ih =>
      obtain ⟨later, laterDecoded, laterShow⟩ := ih fun other mem => known other (.tail _ mem)
      have here := known name List.mem_cons_self
      obtain ⟨records, fragment, short, stored, eq⟩ := holds name here
      have of_mem : ∀ record ∈ records, ∃ entry ∈ disk, entry.2 = record.1 := by
        intro record mem
        have mem : record.1 ∈ contents disk name := stored ▸ List.mem_map_of_mem mem
        obtain ⟨entry, filtered, same⟩ := List.mem_map.mp mem
        exact ⟨entry, (List.mem_filter.mp filtered).1, same⟩
      have some_record : records ≠ [] := by
        rintro rfl
        exact mem_names_iff.mp here stored.symm
      obtain ⟨rows, decoded, rowsShow⟩ := decodeJournal_shows layout short some_record
        (fun record mem => by
          obtain ⟨entry, mem, same⟩ := of_mem record mem
          exact same ▸ labelled entry mem)
        (fun record mem => by
          obtain ⟨entry, mem, same⟩ := of_mem record mem
          exact same ▸ decodable entry mem)
      refine ⟨rows :: later, ?_, ?_⟩
      · rw [List.mapM_cons, eq, decoded, laterDecoded]
        rfl
      · rw [List.flatten_cons, List.flatMap_cons, ← stored]
        exact List.rel_append rowsShow laterShow

/-- **From messages to rows.** The journals of any number of processes decode, in the order of their
names, to rows that show what each process has kept of its messages, one process after the other. -/
theorem rows_of_messages (json : Simdjson D) (layout : DoubleLayout D) (cfg : Config)
    (rotates : 0 < cfg.rotationIntervalMinutes) (sessions : List (Session D))
    (disk : List (Str × Tick D)) (bytes : Str → Str) (fed : ∀ session ∈ sessions, session.Fed json)
    (orderly : Orderly (sessions.map Session.life))
    (opened : ∀ session ∈ sessions, ∀ l ∈ session.life.labels, l.opened = true)
    (left : leave cfg [] (sessions.map Session.life) = some disk) (holds : Holds layout disk bytes)
    (decodable : ∀ entry ∈ disk, Decodable entry.2) :
    ∃ tables parts,
      (names (· ≤ ·) disk).mapM (fun name => decodeJournal layout (bytes name)) = some tables ∧
      List.Forall₂ Shows tables.flatten parts.flatten ∧
      List.Forall₂ (Session.Kept cfg json) sessions parts := by
  obtain ⟨added, rfl, ⟨parts, split, each⟩, sorted, -⟩ := added_of_leave rotates orderly
    (fun life mem => by
      obtain ⟨session, here, rfl⟩ := List.mem_map.mp mem
      exact opened session here) left
  rw [List.forall₂_map_left_iff] at each
  have kept : List.Forall₂ (Session.Kept cfg json) sessions parts := by
    refine List.Forall₂.imp ?_ ((List.forall₂_and_left _ _).mpr ⟨fun session mem => mem, each⟩)
    rintro session ticks ⟨mem, journals⟩
    exact Session.kept_of_journals (fed session mem) (opened session mem) journals
  have labelled : ∀ entry ∈ disk, Labelled entry.2 := by
    intro entry mem
    have mem : entry.2 ∈ parts.flatten := split ▸ List.mem_map_of_mem mem
    obtain ⟨ticks, part, mem⟩ := List.mem_flatten.mp mem
    obtain ⟨i, lt, rfl⟩ := List.getElem_of_mem part
    have here := List.Forall₂.get kept (by rw [kept.length_eq]; exact lt) lt
    exact (enqueued_of_mem_ticksOf (here.decoded.subset (here.begun.subset mem))).labelled
  obtain ⟨tables, decoded, rowsShow⟩ := tables_of_files holds labelled decodable
    fun name (mem : name ∈ names (· ≤ ·) disk) => mem
  refine ⟨tables, parts, decoded, ?_, kept⟩
  rw [← split, ← readBack_of_sorted sorted]
  exact rowsShow

/-- The tick of a plain trade. -/
def plainTick : Tick (BitVec 64) := ⟨1, 0, 0, 0, 0, 0, 1, copyAssetId plainId⟩

/-- A trade is journaled and the process stopped. The next one has its tick in the ring when it is
killed. -/
def tradeThenKilled : List (Session (BitVec 64)) :=
  [⟨⟨fun _ => plainTick, 60, .start :: .tryProduce plainTick :: List.replicate 6 .producer ++
      List.replicate 10 (.run 70 true) ++ .stop :: List.replicate 8 (.run 80 true)⟩,
      [trade plainId]⟩,
    ⟨⟨fun _ => plainTick, 960, .start :: .tryProduce plainTick :: List.replicate 6 .producer ++
      List.replicate 4 (.run 970 true)⟩, [trade plainId, trade plainId]⟩]

theorem rows_of_messages_tradeThenKilled :
    ∃ disk, leave ⟨ascii "data", 15⟩ [] (tradeThenKilled.map Session.life) = some disk ∧
      disk.map Prod.snd = [plainTick] ∧
      ∃ tables parts,
        (names (· ≤ ·) disk).mapM (fun _ => decodeJournal bitsLayout
          (journal bitsLayout [(plainTick, padding)] [])) = some tables ∧
        List.Forall₂ Shows tables.flatten parts.flatten ∧
        List.Forall₂ (Session.Kept ⟨ascii "data", 15⟩ tradeJson) tradeThenKilled parts := by
  have left : (leave ⟨ascii "data", 15⟩ [] (tradeThenKilled.map Session.life)).map
      (fun disk => (disk.map Prod.snd, (names (· ≤ ·) disk).map (contents disk))) =
        some ([plainTick], [[plainTick]]) := by with_unfolding_all rfl
  obtain ⟨disk, left, eq⟩ := Option.map_eq_some_iff.mp left
  obtain ⟨ticks, files⟩ := Prod.mk.inj eq
  refine ⟨disk, left, ticks, rows_of_messages tradeJson bitsLayout ⟨ascii "data", 15⟩ (by decide)
    tradeThenKilled disk (fun _ => journal bitsLayout [(plainTick, padding)] []) ?_
    ⟨by decide, by decide, by simp [tradeThenKilled]⟩ (by decide) left ?_ ?_⟩
  · have first : ticksOf tradeJson [trade plainId] = [plainTick] := by with_unfolding_all rfl
    have both : ticksOf tradeJson [trade plainId, trade plainId] = [plainTick, plainTick] := by
      with_unfolding_all rfl
    intro session mem
    rcases List.mem_cons.mp mem with rfl | mem
    · exact ⟨[], first.symm⟩
    · rw [List.mem_singleton.mp mem]
      exact ⟨[plainTick], both.symm⟩
  · intro name mem
    refine ⟨[(plainTick, padding)], [], by decide, ?_, rfl⟩
    have listed : contents disk name ∈ [[plainTick]] := files ▸ List.mem_map_of_mem mem
    exact (List.mem_singleton.mp listed).symm
  · intro entry mem
    have listed : entry.2 ∈ [plainTick] := ticks ▸ List.mem_map_of_mem mem
    rw [List.mem_singleton.mp listed]
    decide +kernel

end Tickscope.Pipeline
