import Tickscope.Lib.CrlfLines
import Tickscope.Lib.OneARound

/-!
# Framing of the exchange stream

`BetfairStream` of `scripts/collectors/betfair_collector.py` has two readers of one buffer. `connect`
and `auth` wait for one message each (`_read_one`), then `messages()` yields the rest. Both ask the
socket first and look at the buffer afterwards, so that lines are left in the buffer when the stream
ends; and only `messages()` stops at the end of the stream. `framing_iff` says when the lines come
through all the same.
-/

namespace Tickscope.Collectors.Betfair

open Tickscope.Lib

/-! ## The readers -/

/-- `recv` returns some bytes or raises `socket.timeout`. -/
inductive Recv where
  | chunk (data : Str)
  | timeout

/-- `sock` is what `recv` gives before the end of the stream. -/
structure BetfairStream where
  sock : List Recv
  buf : Str

/-- `recv(4096)`; at the end of the stream it returns `b""` every time. -/
def recv : List Recv → Recv × List Recv
  | [] => (.chunk [], [])
  | next :: sock => (next, sock)

variable {J : Type}

/-- How a call of `_read_one` ends. -/
inductive Call (J : Type) where
  | returned (value : J) (stream : BetfairStream)
  | jsonError
  | socketTimeout

/-- `_read_one`, with at most `fuel` rounds of its loop; `loads` is `json.loads`. -/
def readOne (loads : Str → Option J) : Nat → BetfairStream → Option (Call J)
  | 0, _ => none
  | fuel + 1, stream =>
      match recv stream.sock with
      | (.timeout, _) => some .socketTimeout
      | (.chunk chunk, sock) =>
          let buf := stream.buf ++ chunk
          match cutCrlf buf with
          | none => readOne loads fuel ⟨sock, buf⟩
          | some (line, buf) =>
              if line = [] then readOne loads fuel ⟨sock, buf⟩
              else
                match loads line with
                | none => some .jsonError
                | some value => some (.returned value ⟨sock, buf⟩)

/-- What a user of the stream sees: a message, the message `{"op": "_timeout"}`, or an exception. -/
inductive Event (J : Type) where
  | message (value : J)
  | timeout
  | jsonError
  | socketTimeout
deriving DecidableEq

/-- The inner loop of `messages()`: what it yields, and the buffer behind the last CR LF unless
`json.loads` raises. -/
def drain (loads : Str → Option J) (buf : Str) : List (Event J) × Option Str :=
  match _found : cutCrlf buf with
  | none => ([], some buf)
  | some (line, rest) =>
      if line = [] then drain loads rest
      else
        match loads line with
        | none => ([.jsonError], none)
        | some value => (.message value :: (drain loads rest).1, (drain loads rest).2)
termination_by buf.length
decreasing_by all_goals exact length_cutCrlf ‹_›

/-- `messages()`. -/
def messages (loads : Str → Option J) : List Recv → Str → List (Event J)
  | [], _ => []
  | .timeout :: sock, buf => .timeout :: messages loads sock buf
  | .chunk chunk :: sock, buf =>
      if chunk = [] then []
      else
        match drain loads (buf ++ chunk) with
        | (events, none) => events
        | (events, some buf) => events ++ messages loads sock buf

/-- `calls` successive calls of `_read_one`, then `messages()`; an exception ends it. -/
def session (loads : Str → Option J) (fuel : Nat) : Nat → BetfairStream → Option (List (Event J))
  | 0, stream => some (messages loads stream.sock stream.buf)
  | calls + 1, stream =>
      (readOne loads fuel stream).bind fun
        | .jsonError => some [.jsonError]
        | .socketTimeout => some [.socketTimeout]
        | .returned value stream =>
            (session loads fuel calls stream).map fun events => .message value :: events

/-! ## What should come -/

/-- A stream as `recv` cuts it into chunks. -/
structure Chunked where
  chunks : List Str
  sized : ∀ chunk ∈ chunks, chunk ≠ [] ∧ chunk.length ≤ 4096

/-- The lines that are not empty. -/
def messageLines (s : Str) : List Str := (crlfLines s).filter (· ≠ [])

/-- Each line is a message, up to one that is not JSON. -/
def expected (loads : Str → Option J) : List Str → List (Event J)
  | [] => []
  | line :: lines =>
      match loads line with
      | none => [.jsonError]
      | some value => .message value :: expected loads lines

/-- All calls come to an end, and the lines are delivered in order. -/
def Frames (loads : Str → Option J) (calls : Nat) (stream : Chunked) : Prop :=
  ∃ fuel, session loads fuel calls ⟨stream.chunks.map .chunk, []⟩ =
    some (expected loads (messageLines stream.chunks.flatten))

/-! ## Lines -/

variable {loads : Str → Option J}

theorem messageLines_of_none {s : Str} (none : cutCrlf s = none) : messageLines s = [] := by
  rw [messageLines, crlfLines_of_none none]
  rfl

/-- The first line that is there, unless it is empty, is the first message. -/
theorem messageLines_append {s line rest : Str} (found : cutCrlf s = some (line, rest)) (t : Str) :
    messageLines (s ++ t) =
      if line = [] then messageLines (rest ++ t) else line :: messageLines (rest ++ t) := by
  rw [messageLines, crlfLines_append_of_cutCrlf found, List.filter_cons, decide_not]
  split
  case isTrue some =>
    rw [if_neg (by simpa using some)]
    rfl
  case isFalse empty =>
    rw [if_pos (by simpa using empty)]
    rfl

theorem expected_of_json {line : Str} {value : J} (json : loads line = some value)
    (lines : List Str) :
    expected loads (line :: lines) = .message value :: expected loads lines := by
  rw [expected, json]

theorem expected_of_not_json {line : Str} (notJson : loads line = none) (lines : List Str) :
    expected loads (line :: lines) = [.jsonError] := by
  rw [expected, notJson]

theorem expected_eq_nil_iff (loads : Str → Option J) {lines : List Str} :
    expected loads lines = [] ↔ lines = [] := by
  cases lines with
  | nil => exact iff_of_true rfl rfl
  | cons line lines =>
      rw [expected]
      cases loads line <;> exact iff_of_false (List.cons_ne_nil _ _) (List.cons_ne_nil _ _)

/-! ## `messages()` -/

/-- What the inner loop takes from the buffer comes first, whatever arrives later: it raises at a line
that is not JSON, or leaves a buffer without a line. -/
theorem drain_spec (loads : Str → Option J) (buf : Str) :
    (∃ events, drain loads buf = (events, none) ∧
        ∀ t, expected loads (messageLines (buf ++ t)) = events) ∨
      ∃ events rest, drain loads buf = (events, some rest) ∧ cutCrlf rest = none ∧
        ∀ t, expected loads (messageLines (buf ++ t)) =
          events ++ expected loads (messageLines (rest ++ t)) := by
  fun_induction drain loads buf with
  | case1 buf found => exact .inr ⟨[], buf, rfl, found, fun t => rfl⟩
  | case2 buf rest found ih => simpa only [messageLines_append found, if_pos] using ih
  | case3 buf line rest found some notJson =>
      refine .inl ⟨_, rfl, fun t => ?_⟩
      rw [messageLines_append found, if_neg some, expected_of_not_json notJson]
  | case4 buf line rest found some value json ih =>
      rcases ih with ⟨events, drained, raised⟩ | ⟨events, rest', drained, noLine, later⟩
      · refine .inl ⟨.message value :: events, by rw [drained], fun t => ?_⟩
        rw [messageLines_append found, if_neg some, expected_of_json json, raised]
      · refine .inr ⟨.message value :: events, rest', by rw [drained], noLine, fun t => ?_⟩
        rw [messageLines_append found, if_neg some, expected_of_json json, later]
        rfl

/-- Once a chunk arrives, `messages()` yields all lines of the buffer and of what arrives. -/
theorem messages_spec (chunks : List Str) (sized : ∀ chunk ∈ chunks, chunk ≠ []) (buf : Str)
    (some : chunks ≠ []) :
    messages loads (chunks.map .chunk) buf =
      expected loads (messageLines (buf ++ chunks.flatten)) := by
  induction chunks generalizing buf with
  | nil => exact (some rfl).elim
  | cons chunk chunks ih =>
      obtain ⟨nonempty, sized⟩ := List.forall_mem_cons.mp sized
      rw [List.map_cons, messages, if_neg nonempty, List.flatten_cons, ← List.append_assoc]
      rcases drain_spec loads (buf ++ chunk) with
        ⟨events, drained, raised⟩ | ⟨events, rest, drained, noLine, later⟩
      · rw [drained, raised]
      · rw [drained, later]
        refine congrArg (events ++ ·) ?_
        by_cases last : chunks = []
        · rw [last, List.flatten_nil, List.append_nil, messageLines_of_none noLine]
          rfl
        · exact ih sized rest last

/-! ## `_read_one` -/

/-- One round of the loop, on chunks; behind the last one `recv` returns `b""`. -/
theorem readOne_chunks (fuel : Nat) (chunks : List Str) (buf : Str) :
    readOne loads (fuel + 1) ⟨chunks.map .chunk, buf⟩ =
      match cutCrlf (buf ++ chunks.headD []) with
      | none => readOne loads fuel ⟨chunks.tail.map .chunk, buf ++ chunks.headD []⟩
      | some (line, rest) =>
          if line = [] then readOne loads fuel ⟨chunks.tail.map .chunk, rest⟩
          else
            match loads line with
            | none => some .jsonError
            | some value => some (.returned value ⟨chunks.tail.map .chunk, rest⟩) := by
  cases chunks <;> rfl

theorem readOne_succ {fuel : Nat} {stream : BetfairStream} {call : Call J}
    (ends : readOne loads fuel stream = some call) :
    readOne loads (fuel + 1) stream = some call := by
  induction fuel generalizing stream with
  | zero => cases ends
  | succ fuel ih =>
      rw [readOne] at ends ⊢
      revert ends
      rcases recv stream.sock with ⟨chunk | _, sock⟩
      · dsimp only
        rcases cutCrlf (stream.buf ++ chunk) with _ | ⟨line, rest⟩
        · exact ih
        · dsimp only
          split
          · exact ih
          · exact id
      · exact id

theorem readOne_mono {fuel fuel' : Nat} (le : fuel ≤ fuel') {stream : BetfairStream} {call : Call J}
    (ends : readOne loads fuel stream = some call) : readOne loads fuel' stream = some call := by
  induction le with
  | refl => exact ends
  | step _ ih => exact readOne_succ ih

/-- At the end of the stream a call without a line never ends. -/
theorem readOne_endOfStream {buf : Str} (noLine : cutCrlf buf = none) (fuel : Nat) :
    readOne loads fuel ⟨[], buf⟩ = none := by
  induction fuel with
  | zero => rfl
  | succ fuel ih =>
      rw [readOne, recv]
      dsimp only
      rw [List.append_nil, noLine]
      exact ih

/-- The call comes to an end. -/
def Ends (loads : Str → Option J) (stream : BetfairStream) (call : Call J) : Prop :=
  ∃ fuel, readOne loads fuel stream = some call

theorem ends_iff (chunks : List Str) (buf : Str) (call : Call J) :
    Ends loads ⟨chunks.map .chunk, buf⟩ call ↔
      match cutCrlf (buf ++ chunks.headD []) with
      | none => Ends loads ⟨chunks.tail.map .chunk, buf ++ chunks.headD []⟩ call
      | some (line, rest) =>
          if line = [] then Ends loads ⟨chunks.tail.map .chunk, rest⟩ call
          else
            match loads line with
            | none => call = .jsonError
            | some value => call = .returned value ⟨chunks.tail.map .chunk, rest⟩ := by
  have round : Ends loads ⟨chunks.map .chunk, buf⟩ call ↔
      ∃ fuel, readOne loads (fuel + 1) ⟨chunks.map .chunk, buf⟩ = some call :=
    ⟨fun ⟨fuel, ends⟩ => ⟨fuel, readOne_succ ends⟩, fun ⟨fuel, ends⟩ => ⟨fuel + 1, ends⟩⟩
  simp only [round, readOne_chunks]
  rcases cutCrlf (buf ++ chunks.headD []) with _ | ⟨line, rest⟩
  · rfl
  · dsimp only
    split
    · rfl
    · cases loads line with
      | none => simp [eq_comm]
      | some value => simp [eq_comm]

/-! ## All calls -/

/-- The calls come to an end, with these events. -/
def Comes (loads : Str → Option J) (calls : Nat) (stream : BetfairStream) (events : List (Event J)) :
    Prop :=
  ∃ fuel, session loads fuel calls stream = some events

theorem session_mono {fuel fuel' : Nat} (le : fuel ≤ fuel') {calls : Nat} {stream : BetfairStream}
    {events : List (Event J)} (comes : session loads fuel calls stream = some events) :
    session loads fuel' calls stream = some events := by
  induction calls generalizing stream events with
  | zero => exact comes
  | succ calls ih =>
      obtain ⟨call, ends, rest⟩ := Option.bind_eq_some_iff.mp comes
      refine Option.bind_eq_some_iff.mpr ⟨call, readOne_mono le ends, ?_⟩
      cases call with
      | returned value stream =>
          obtain ⟨events, later, rfl⟩ := Option.map_eq_some_iff.mp rest
          exact Option.map_eq_some_iff.mpr ⟨events, ih later, rfl⟩
      | jsonError => exact rest
      | socketTimeout => exact rest

/-- The events of a call that has ended and of the calls after it. -/
def Follows (loads : Str → Option J) (calls : Nat) (events : List (Event J)) : Call J → Prop
  | .jsonError => events = [.jsonError]
  | .socketTimeout => events = [.socketTimeout]
  | .returned value stream => ∃ later, Comes loads calls stream later ∧ events = .message value :: later

theorem comes_succ_iff {stream : BetfairStream} {calls : Nat} {events : List (Event J)} :
    Comes loads (calls + 1) stream events ↔
      ∃ call, Ends loads stream call ∧ Follows loads calls events call := by
  constructor
  · rintro ⟨fuel, comes⟩
    obtain ⟨call, ended, rest⟩ := Option.bind_eq_some_iff.mp comes
    refine ⟨call, ⟨fuel, ended⟩, ?_⟩
    cases call with
    | returned value stream =>
        obtain ⟨later, comes', rfl⟩ := Option.map_eq_some_iff.mp rest
        exact ⟨later, ⟨fuel, comes'⟩, rfl⟩
    | jsonError => exact (Option.some.inj rest).symm
    | socketTimeout => exact (Option.some.inj rest).symm
  · rintro ⟨call, ⟨fuel, ended⟩, follows⟩
    cases call with
    | returned value stream =>
        obtain ⟨later, ⟨fuel', comes⟩, rfl⟩ := follows
        have ended := readOne_mono (le_max_left fuel fuel') ended
        have comes := session_mono (le_max_right fuel fuel') comes
        exact ⟨_, Option.bind_eq_some_iff.mpr
          ⟨_, ended, Option.map_eq_some_iff.mpr ⟨later, comes, rfl⟩⟩⟩
    | jsonError => exact ⟨fuel, Option.bind_eq_some_iff.mpr ⟨_, ended, congrArg some follows.symm⟩⟩
    | socketTimeout =>
        exact ⟨fuel, Option.bind_eq_some_iff.mpr ⟨_, ended, congrArg some follows.symm⟩⟩

/-! ## The state after some rounds -/

/-- All calls come to an end and deliver the lines, from any buffer. -/
def FramesFrom (loads : Str → Option J) (calls : Nat) (chunks : List Str) (buf : Str) : Prop :=
  Comes loads calls ⟨chunks.map .chunk, buf⟩
    (expected loads (messageLines (buf ++ chunks.flatten)))

theorem head_append_tail (chunks : List Str) (buf : Str) :
    buf ++ chunks.flatten = buf ++ chunks.headD [] ++ chunks.tail.flatten := by
  cases chunks with
  | nil => exact (List.append_nil _).symm
  | cons chunk chunks => exact (List.append_assoc ..).symm

theorem framesFrom_zero {chunks : List Str} (sized : ∀ chunk ∈ chunks, chunk ≠ []) (buf : Str) :
    FramesFrom loads 0 chunks buf ↔ chunks ≠ [] ∨ messageLines (buf ++ chunks.flatten) = [] := by
  by_cases none : chunks = []
  · rw [or_iff_right (not_not.mpr none), ← expected_eq_nil_iff loads, none]
    exact ⟨fun ⟨_, stops⟩ => (Option.some.inj stops).symm, fun empty => ⟨0, congrArg some empty.symm⟩⟩
  · exact iff_of_true ⟨0, congrArg some (messages_spec chunks sized buf none)⟩ (.inl none)

theorem framesFrom_of_none {calls : Nat} {chunks : List Str} {buf : Str}
    (noLine : cutCrlf (buf ++ chunks.headD []) = none) :
    FramesFrom loads (calls + 1) chunks buf ↔
      FramesFrom loads (calls + 1) chunks.tail (buf ++ chunks.headD []) := by
  rw [FramesFrom, FramesFrom, ← head_append_tail]
  simp only [comes_succ_iff, ends_iff chunks buf, noLine]

theorem framesFrom_of_empty {calls : Nat} {chunks : List Str} {buf rest : Str}
    (found : cutCrlf (buf ++ chunks.headD []) = some ([], rest)) :
    FramesFrom loads (calls + 1) chunks buf ↔ FramesFrom loads (calls + 1) chunks.tail rest := by
  rw [FramesFrom, FramesFrom, head_append_tail, messageLines_append found, if_pos rfl]
  simp only [comes_succ_iff, ends_iff chunks buf, found, if_pos]

theorem framesFrom_of_not_json {calls : Nat} {chunks : List Str} {buf line rest : Str}
    (found : cutCrlf (buf ++ chunks.headD []) = some (line, rest)) (nonempty : line ≠ [])
    (notJson : loads line = none) : FramesFrom loads (calls + 1) chunks buf := by
  rw [FramesFrom, head_append_tail, messageLines_append found, if_neg nonempty,
    expected_of_not_json notJson]
  refine comes_succ_iff.mpr ⟨.jsonError, (ends_iff chunks buf _).mpr ?_, rfl⟩
  simp only [found, if_neg nonempty, notJson]

theorem framesFrom_of_json {calls : Nat} {chunks : List Str} {buf line rest : Str} {value : J}
    (found : cutCrlf (buf ++ chunks.headD []) = some (line, rest)) (nonempty : line ≠ [])
    (json : loads line = some value) :
    FramesFrom loads (calls + 1) chunks buf ↔ FramesFrom loads calls chunks.tail rest := by
  rw [FramesFrom, FramesFrom, head_append_tail, messageLines_append found, if_neg nonempty,
    expected_of_json json]
  simp only [comes_succ_iff, ends_iff chunks buf, found, if_neg nonempty, json, exists_eq_left,
    Follows, List.cons.injEq, true_and, exists_eq_right']

/-! ## Reading in time -/

/-- How many of the first `k` lines are messages. -/
def messagesIn (s : Str) (k : Nat) : Nat := ((crlfLines s).take k).countP (· ≠ [])

theorem monotone_messagesIn (s : Str) : Monotone (messagesIn s) :=
  fun _ _ le => (List.take_sublist_take_left le).countP_le

theorem messagesIn_append {s line rest : Str} (found : cutCrlf s = some (line, rest)) (t : Str)
    (k : Nat) :
    messagesIn (s ++ t) (k + 1) = messagesIn (rest ++ t) k + if line = [] then 0 else 1 := by
  rw [messagesIn, messagesIn, crlfLines_append_of_cutCrlf found, List.take_succ_cons,
    List.countP_cons, decide_not]
  by_cases empty : line = [] <;> simp [empty]

/-- The number of lines in the buffer and the first chunks. -/
def linesIn (buf : Str) (chunks : List Str) (j : Nat) : Nat :=
  (crlfLines (buf ++ (chunks.take j).flatten)).length

theorem linesIn_cons (buf chunk : Str) (chunks : List Str) (j : Nat) :
    linesIn buf (chunk :: chunks) (j + 1) = linesIn (buf ++ chunk) chunks j :=
  congrArg (fun s => (crlfLines s).length) (List.append_assoc ..).symm

/-- The calls are done before the last chunk is asked for. -/
def InTimeFrom (calls : Nat) (chunks : List Str) (buf : Str) : Prop :=
  InTime (messagesIn (buf ++ chunks.flatten)) (linesIn buf chunks) chunks.length calls

theorem inTimeFrom_of_none {calls : Nat} (pos : 0 < calls) {chunk buf : Str} (chunks : List Str)
    (noLine : cutCrlf (buf ++ chunk) = none) :
    InTimeFrom calls (chunk :: chunks) buf ↔ InTimeFrom calls chunks (buf ++ chunk) := by
  have waits : linesIn buf (chunk :: chunks) 1 = 0 := by
    rw [linesIn_cons, linesIn, List.take_zero, List.flatten_nil, List.append_nil,
      crlfLines_of_none noLine, List.length_nil]
  refine (inTime_succ_of_none (monotone_messagesIn _) rfl pos waits chunks.length).trans ?_
  rw [InTimeFrom, List.flatten_cons, List.append_assoc]
  exact iff_of_eq (congrArg (InTime _ · _ _) (funext (linesIn_cons buf chunk chunks)))

theorem inTimeFrom_of_some {calls calls' : Nat} (pos : 0 < calls) {chunk buf line rest : Str}
    (chunks : List Str) (found : cutCrlf (buf ++ chunk) = some (line, rest))
    (step : calls = calls' + if line = [] then 0 else 1) :
    InTimeFrom calls (chunk :: chunks) buf ↔ InTimeFrom calls' chunks rest := by
  have takes (j : Nat) : linesIn buf (chunk :: chunks) (j + 1) = linesIn rest chunks j + 1 := by
    rw [linesIn_cons, linesIn, crlfLines_append_of_cutCrlf found, List.length_cons, linesIn]
  have first (k : Nat) : messagesIn (buf ++ (chunk :: chunks).flatten) (k + 1) =
      messagesIn (rest ++ chunks.flatten) k + if line = [] then 0 else 1 := by
    rw [List.flatten_cons, ← List.append_assoc, messagesIn_append found]
  exact inTime_succ_of_some (monotone_messagesIn _) rfl pos takes first step chunks.length

/-! ## When the lines come through -/

/-- One of the lines that the calls of `_read_one` parse is not JSON. -/
def Raises (loads : Str → Option J) (calls : Nat) (lines : List Str) : Prop :=
  ∃ line ∈ lines.take calls, loads line = none

theorem not_raises_zero (lines : List Str) : ¬ Raises loads 0 lines := by
  rintro ⟨line, mem, -⟩
  rw [List.take_zero] at mem
  cases mem

theorem raises_cons {calls : Nat} {line : Str} {value : J} (json : loads line = some value)
    (lines : List Str) : Raises loads (calls + 1) (line :: lines) ↔ Raises loads calls lines := by
  simp only [Raises, List.take_succ_cons, List.exists_mem_cons_iff, json, reduceCtorEq, false_or]

/-- A round that finds a line. If the lines come through afterwards exactly when the rest of the calls
raises, takes all of them or is `early`, they do so before. -/
theorem framesFrom_of_line {calls : Nat} {chunks : List Str} {buf line rest : Str}
    (found : cutCrlf (buf ++ chunks.headD []) = some (line, rest)) {lines : List Str} {early : Prop}
    (after : ∀ calls', calls + 1 = calls' + (if line = [] then 0 else 1) →
      (FramesFrom loads calls' chunks.tail rest ↔
        Raises loads calls' lines ∨ lines.length = calls' ∨ early)) :
    FramesFrom loads (calls + 1) chunks buf ↔
      Raises loads (calls + 1) (if line = [] then lines else line :: lines) ∨
        (if line = [] then lines else line :: lines).length = calls + 1 ∨ early := by
  by_cases empty : line = []
  · subst empty
    rw [framesFrom_of_empty found, if_pos rfl]
    exact after (calls + 1) rfl
  · rw [if_neg empty]
    cases json : loads line with
    | none =>
        exact iff_of_true (framesFrom_of_not_json found empty json)
          (.inl ⟨line, List.mem_cons_self, json⟩)
    | some value =>
        rw [framesFrom_of_json found empty json, raises_cons json, List.length_cons,
          Nat.add_right_cancel_iff]
        exact after calls (by rw [if_neg empty])

/-- At the end of the stream a call without a line in the buffer never ends. -/
theorem not_framesFrom_endOfStream {buf : Str} (noLine : cutCrlf buf = none) (calls : Nat) :
    ¬ FramesFrom loads (calls + 1) [] buf := by
  intro comes
  obtain ⟨call, ⟨fuel, ends⟩, -⟩ := comes_succ_iff.mp comes
  exact Option.some_ne_none call (ends.symm.trans (readOne_endOfStream noLine fuel))

/-- At the end of the stream the calls get what is in the buffer, and `messages()` nothing. -/
theorem framesFrom_endOfStream (calls : Nat) (buf : Str) :
    FramesFrom loads calls [] buf ↔
      Raises loads calls (messageLines buf) ∨ (messageLines buf).length = calls ∨ False := by
  induction size : buf.length using Nat.strongRecOn generalizing calls buf with
  | _ size ih =>
      cases calls with
      | zero =>
          rw [framesFrom_zero (List.forall_mem_nil _), or_iff_right (not_not.mpr rfl),
            or_iff_right (not_raises_zero _), or_false, List.flatten_nil, List.append_nil,
            List.length_eq_zero_iff]
      | succ calls =>
          cases found : cutCrlf buf with
          | none =>
              rw [messageLines_of_none found]
              refine iff_of_false (not_framesFrom_endOfStream found calls) ?_
              rintro (⟨line, mem, -⟩ | few | early)
              · cases mem
              · cases few
              · exact early
          | some halves =>
              obtain ⟨line, rest⟩ := halves
              have lines := messageLines_append found []
              rw [List.append_nil, List.append_nil] at lines
              rw [lines]
              have shorter := size ▸ length_cutCrlf found
              rw [← List.append_nil buf] at found
              exact framesFrom_of_line found fun calls' _ =>
                ih rest.length shorter calls' rest rfl

/-- All calls end and the lines are delivered, from any buffer. -/
theorem framesFrom_iff (chunks : List Str) (sized : ∀ chunk ∈ chunks, chunk ≠ []) (calls : Nat)
    (buf : Str) :
    FramesFrom loads calls chunks buf ↔
      Raises loads calls (messageLines (buf ++ chunks.flatten)) ∨
        (messageLines (buf ++ chunks.flatten)).length = calls ∨ InTimeFrom calls chunks buf := by
  induction chunks generalizing calls buf with
  | nil =>
      have late : InTimeFrom calls [] buf ↔ False :=
        iff_false_intro fun inTime => Nat.lt_irrefl 0 inTime.1
      rw [framesFrom_endOfStream, List.flatten_nil, List.append_nil, late]
  | cons chunk chunks ih =>
      have rest := ih (List.forall_mem_cons.mp sized).2
      cases calls with
      | zero =>
          exact iff_of_true ((framesFrom_zero sized buf).mpr (.inl (List.cons_ne_nil _ _)))
            (.inr (.inr ⟨Nat.succ_pos _, Nat.zero_le _, fun _ _ _ => Nat.zero_le _⟩))
      | succ calls =>
          have text : buf ++ (chunk :: chunks).flatten = buf ++ chunk ++ chunks.flatten :=
            head_append_tail (chunk :: chunks) buf
          cases found : cutCrlf (buf ++ chunk) with
          | none =>
              rw [text, inTimeFrom_of_none calls.succ_pos chunks found]
              exact (framesFrom_of_none found).trans (rest _ _)
          | some halves =>
              obtain ⟨line, buf'⟩ := halves
              rw [text, messageLines_append found]
              refine framesFrom_of_line found fun calls' step => ?_
              rw [inTimeFrom_of_some calls.succ_pos chunks found step]
              exact rest calls' buf'

/-- At least `calls` messages are among the lines that can be read before the last chunk is asked for,
one line a chunk: whatever `j`, the lines of the first `j` chunks and one more line for each chunk
between them and the last. -/
def ReadInTime (calls : Nat) (chunks : List Str) : Prop :=
  chunks ≠ [] ∧ ∀ j < chunks.length,
    calls ≤ messagesIn chunks.flatten
      ((crlfLines (chunks.take j).flatten).length + (chunks.length - 1 - j))

theorem inTimeFrom_nil_iff (calls : Nat) (chunks : List Str) :
    InTimeFrom calls chunks [] ↔ ReadInTime calls chunks := by
  rw [InTimeFrom, InTime, ReadInTime, List.length_pos_iff]
  refine and_congr_right fun some => ⟨fun ⟨first, later⟩ j lt => ?_, fun all => ⟨?_, ?_⟩⟩
  · rcases Nat.eq_zero_or_pos j with rfl | pos
    · rw [List.take_zero, List.flatten_nil, Nat.sub_zero]
      exact first.trans_eq (congrArg _ (Nat.zero_add _).symm)
    · exact later j pos lt
  · have first := all 0 (List.length_pos_iff.mpr some)
    rw [List.take_zero, List.flatten_nil, Nat.sub_zero] at first
    exact first.trans_eq (congrArg _ (Nat.zero_add _))
  · exact fun j _ lt => all j lt

/-- All calls end and the lines are delivered in order exactly when `_read_one` comes to a line that is
not JSON, or takes all lines, or is done before the last chunk is asked for. -/
theorem framing_iff (loads : Str → Option J) (calls : Nat) (stream : Chunked) :
    Frames loads calls stream ↔
      Raises loads calls (messageLines stream.chunks.flatten) ∨
        (messageLines stream.chunks.flatten).length = calls ∨ ReadInTime calls stream.chunks := by
  rw [← inTimeFrom_nil_iff]
  exact framesFrom_iff stream.chunks (fun chunk mem => (stream.sized chunk mem).1) calls []

/-- `json.loads` on the one object that has no keys. -/
def loadsEmpty (line : Str) : Option Unit := if line = ascii "\x7b\x7d" then some () else none

/-- Two objects in one chunk. -/
def twoInOne : Chunked := ⟨[ascii "\x7b\x7d\r\n\x7b\x7d\r\n"], by decide⟩

/-- On the empty stream a call of `_read_one` never ends, and the second line of a chunk that it has
read is not delivered. -/
theorem framing_fails_at_end_of_stream :
    ¬ Frames loadsEmpty 1 ⟨[], List.forall_mem_nil _⟩ ∧ ¬ Frames loadsEmpty 1 twoInOne := by
  constructor
  · rintro ⟨fuel, comes⟩
    obtain ⟨call, ends, -⟩ := Option.bind_eq_some_iff.mp comes
    exact Option.some_ne_none call (ends.symm.trans (readOne_endOfStream rfl fuel))
  · rintro ⟨fuel, comes⟩
    have one : session loadsEmpty (fuel + 1) 1 ⟨twoInOne.chunks.map .chunk, []⟩ =
        some [.message ()] := rfl
    have two := Option.some.inj (one.symm.trans (session_mono (Nat.le_succ fuel) comes))
    exact absurd two (by decide)

end Tickscope.Collectors.Betfair
