import Mathlib.Data.List.Induction
import Mathlib.Data.Rat.Floor
import Tickscope.Lib.Machine
import Tickscope.Lib.PyText

/-!
# The collector of live scores

`scripts/collectors/espn_collector.py` polls a scoreboard and writes a row to a CSV file whenever it
finds something changed. A row has one `event_type`, and the branches that choose it are ordered: a
goal that comes with a new period, or with the end of the game, is not called a `score_change`.
`score_changes_iff` says of a whole run that this is the only way to lose one.
-/

namespace Tickscope.Collectors

open Tickscope.Lib

/-! ## What the scoreboard says -/

/-- The value of `score`; `null` stands for a missing key as well. -/
inductive Score where
  | null
  | number (value : ℚ)
  | text (score : Text)

/-- `none` stands for a missing key here and in the structures below. -/
structure Competitor where
  homeAway : Option Text
  abbreviation : Option Text
  score : Score

structure Status where
  period : Option Int
  displayClock : Option Text
  /-- the `type` object, and its `state` -/
  type : Option (Option Text)

structure Event where
  id : Option Text
  status : Option Status
  /-- the `competitors` of each of the `competitions` -/
  competitions : Option (List (Option (List Competitor)))

structure GameState where
  period : Int
  displayClock : Text
  gameState : Text
  homeTeam : Text
  homeScore : Int
  awayTeam : Text
  awayScore : Int
deriving DecidableEq

/-- `find_game`; the outer `none` stands for a `KeyError`. -/
def findGame (eventId : Text) : List Event → Option (Option Event)
  | [] => some none
  | event :: events =>
      event.id.bind fun id => if id = eventId then some (some event) else findGame eventId events

/-- `next(c for c in competitors if c["homeAway"] == name)`. -/
def competitor (name : Text) : List Competitor → Option Competitor
  | [] => none
  | c :: cs =>
      c.homeAway.bind fun homeAway => if homeAway = name then some c else competitor name cs

/-- `int(score or 0)`. -/
def Score.toInt : Score → Option Int
  | .null => some 0
  | .number value => some (if value < 0 then ⌈value⌉ else ⌊value⌋)
  | .text score => if score = [] then some 0 else PyText.int score

/-- `parse_state`; `none` stands for any exception, which nothing catches. -/
def parseState (event : Event) : Option GameState := do
  let status ← event.status
  let competitors ← (← (← event.competitions).head?)
  let home ← competitor "home".toList competitors
  let away ← competitor "away".toList competitors
  let state ← status.type
  let homeTeam ← home.abbreviation
  let homeScore ← home.score.toInt
  let awayTeam ← away.abbreviation
  let awayScore ← away.score.toInt
  return {
    period := status.period.getD 0
    displayClock := status.displayClock.getD []
    gameState := state.getD []
    homeTeam := homeTeam
    homeScore := homeScore
    awayTeam := awayTeam
    awayScore := awayScore }

/-! ## The poll loop -/

structure Args where
  event : Text
  /-- `int(args.interval * 1000)` -/
  intervalMs : Int

inductive EventType where
  | start
  | gameEnd
  | periodChange
  | scoreChange
  | heartbeat
deriving DecidableEq

structure Row where
  tsMs : Int
  eventId : Text
  period : Int
  displayClock : Text
  homeTeam : Text
  homeScore : Int
  awayTeam : Text
  awayScore : Int
  homeScoreDelta : Int
  awayScoreDelta : Int
  gameState : Text
  eventType : EventType
deriving DecidableEq

/-- A turn of the loop: `fetch_json` raises, or returns the `events`, and the clock is read. -/
inductive Poll where
  | fails
  | scoreboard (events : Option (List Event)) (ts : Int)

/-- What a turn makes of it. -/
inductive Outcome where
  | error
  | noGame
  | broken
  | game (curr : GameState) (ts : Int)
deriving DecidableEq

def Poll.outcome (args : Args) : Poll → Outcome
  | .fails => .error
  | .scoreboard events ts =>
      match findGame args.event (events.getD []) with
      | none => .error
      | some none => .noGame
      | some (some event) =>
          match parseState event with
          | none => .broken
          | some curr => .game curr ts

/-- The state of the game, if it was seen. -/
def Poll.game (args : Args) (poll : Poll) : Option GameState :=
  match poll.outcome args with
  | .game curr _ => some curr
  | _ => none

/-- The state of the game at the last of these polls that saw it. -/
def lastGame (args : Args) (polls : List Poll) : Option GameState :=
  (polls.filterMap (Poll.game args)).getLast?

theorem lastGame_concat (args : Args) (polls : List Poll) (poll : Poll) :
    lastGame args (polls ++ [poll]) = (poll.game args).or (lastGame args polls) := by
  rw [lastGame, List.filterMap_append]
  cases game : poll.game args with
  | none => rw [List.filterMap_cons_none game, List.filterMap_nil, List.append_nil]; rfl
  | some curr => rw [List.filterMap_cons_some game, List.filterMap_nil, List.getLast?_concat]; rfl

def post : Text := "post".toList

/-- The score of one side or the other is not what it was. -/
def GameState.ScoreMoved (prev curr : GameState) : Prop :=
  curr.homeScore ≠ prev.homeScore ∨ curr.awayScore ≠ prev.awayScore

instance (prev curr : GameState) : Decidable (prev.ScoreMoved curr) :=
  inferInstanceAs (Decidable (_ ∨ _))

/-- "Detect what changed"; `none` if no row is written. -/
def detect (args : Args) (prev : Option GameState) (curr : GameState) (ts : Int) :
    Option EventType :=
  match prev with
  | none => some .start
  | some prev =>
      if curr.gameState = post ∧ prev.gameState ≠ post then some .gameEnd
      else if curr.period ≠ prev.period then some .periodChange
      else if prev.ScoreMoved curr then some .scoreChange
      else if ts % 30000 < args.intervalMs + 100 then some .heartbeat
      else none

def row (args : Args) (prev : Option GameState) (curr : GameState) (ts : Int)
    (eventType : EventType) : Row where
  tsMs := ts
  eventId := args.event
  period := curr.period
  displayClock := curr.displayClock
  homeTeam := curr.homeTeam
  homeScore := curr.homeScore
  awayTeam := curr.awayTeam
  awayScore := curr.awayScore
  homeScoreDelta := curr.homeScore - (prev.map (·.homeScore)).getD 0
  awayScoreDelta := curr.awayScore - (prev.map (·.awayScore)).getD 0
  gameState := curr.gameState
  eventType := eventType

structure Collector where
  prev : Option GameState
  consecutiveErrors : Nat
  rows : List Row
  running : Bool

namespace Collector

/-- Before the first poll. -/
def new : Collector := ⟨none, 0, [], true⟩

def write (args : Args) (s : Collector) (curr : GameState) (ts : Int) : Collector :=
  match detect args s.prev curr ts with
  | none => { s with prev := some curr, consecutiveErrors := 0 }
  | some eventType =>
      { s with
        prev := some curr
        consecutiveErrors := 0
        rows := s.rows ++ [row args s.prev curr ts eventType]
        running := curr.gameState ≠ post }

/-- One turn of the loop. -/
def turn (args : Args) (s : Collector) (poll : Poll) : Collector :=
  match poll.outcome args with
  | .error =>
      { s with
        consecutiveErrors := s.consecutiveErrors + 1
        running := s.consecutiveErrors + 1 < 10 }
  | .noGame => { s with consecutiveErrors := 0 }
  | .broken => { s with consecutiveErrors := 0, running := false }
  | .game curr ts => s.write args curr ts

/-- There is no turn once the script has ended. -/
def machine (args : Args) : Machine Collector Poll where
  step s poll := if s.running then some (s.turn args poll) else none

theorem machine_step_eq_some {args : Args} {s s' : Collector} {poll : Poll} :
    (machine args).step s poll = some s' ↔ s.running = true ∧ s.turn args poll = s' := by
  rw [machine, Option.ite_none_right_eq_some, Option.some.injEq]

/-! ## One turn -/

theorem turn_of_game {args : Args} {poll : Poll} {curr : GameState} {ts : Int}
    (game : poll.outcome args = .game curr ts) (s : Collector) :
    s.turn args poll = s.write args curr ts := by
  rw [turn, game]

/-- The state of the game is that of the last turn that saw one. -/
theorem prev_turn (args : Args) (s : Collector) (poll : Poll) :
    (s.turn args poll).prev = (poll.game args).or s.prev := by
  unfold turn Poll.game
  cases poll.outcome args with
  | error => rfl
  | noGame => rfl
  | broken => rfl
  | game curr ts =>
      dsimp only [write]
      cases detect args s.prev curr ts <;> rfl

/-- While the script runs, the game has not ended. -/
def NotOver (s : Collector) : Prop :=
  s.running = true → ∀ prev ∈ s.prev, prev.gameState ≠ post

theorem NotOver.turn {args : Args} {s : Collector} (notOver : s.NotOver)
    (running : s.running = true) (poll : Poll) : (s.turn args poll).NotOver := by
  have before := notOver running
  unfold Collector.turn
  cases poll.outcome args with
  | error => exact fun _ => before
  | noGame => exact fun _ => before
  | broken => exact fun running' => nomatch running'
  | game curr ts =>
      dsimp only [write]
      cases detected : detect args s.prev curr ts with
      | some eventType =>
          rintro running' _ ⟨⟩
          exact of_decide_eq_true running'
      | none =>
          -- the end of the game is always written down
          rintro - _ ⟨⟩ ended
          cases prev : s.prev with
          | none => rw [prev, detect] at detected; cases detected
          | some prev' =>
              rw [prev, detect, if_pos ⟨ended, before prev' prev⟩] at detected
              cases detected

/-! ## Runs -/

/-- What holds after these polls. -/
structure After (args : Args) (polls : List Poll) (s : Collector) : Prop where
  prev : s.prev = lastGame args polls
  notOver : s.NotOver

theorem after_of_run {args : Args} {polls : List Poll} {s : Collector}
    (reached : (machine args).run new polls = some s) : After args polls s := by
  induction polls using List.reverseRecOn generalizing s with
  | nil =>
      cases reached
      exact ⟨rfl, fun _ => nofun⟩
  | append_singleton polls poll ih =>
      obtain ⟨s', before, step⟩ := Machine.run_concat_eq_some.mp reached
      obtain ⟨running, rfl⟩ := machine_step_eq_some.mp step
      refine ⟨?_, (ih before).notOver.turn running poll⟩
      rw [prev_turn, lastGame_concat, (ih before).prev]

/-! ## Score changes -/

/-- The poll after `before` is one of these, and sees another score than was seen last. -/
structure ScoreChange (args : Args) (polls before : List Poll) (poll : Poll)
    (prev curr : GameState) (ts : Int) : Prop where
  made : before ++ [poll] <+: polls
  last : lastGame args before = some prev
  sees : poll.outcome args = .game curr ts
  moved : prev.ScoreMoved curr

/-- The poll after `before` writes a row that is called a score change. -/
def Recorded (args : Args) (before : List Poll) (poll : Poll) (prev curr : GameState) (ts : Int) :
    Prop :=
  ∃ s row, (machine args).run new before = some s ∧ (s.turn args poll).rows = s.rows ++ [row] ∧
    row.eventType = .scoreChange ∧ row.tsMs = ts ∧
    row.homeScoreDelta = curr.homeScore - prev.homeScore ∧
    row.awayScoreDelta = curr.awayScore - prev.awayScore

/-- What the row of a score change is called. -/
theorem detect_of_moved (args : Args) {prev curr : GameState} (ts : Int)
    (moved : prev.ScoreMoved curr) (notOver : prev.gameState ≠ post) :
    ∃ eventType, detect args (some prev) curr ts = some eventType ∧
      (eventType = .scoreChange ↔ curr.period = prev.period ∧ curr.gameState ≠ post) := by
  rw [detect, if_pos moved]
  by_cases ended : curr.gameState = post
  · rw [if_pos ⟨ended, notOver⟩]
    exact ⟨_, rfl, iff_of_false nofun fun both => both.2 ended⟩
  · rw [if_neg fun both => ended both.1]
    by_cases same : curr.period = prev.period
    · rw [if_neg (not_not.mpr same)]
      exact ⟨_, rfl, iff_of_true rfl ⟨same, ended⟩⟩
    · rw [if_pos same]
      exact ⟨_, rfl, iff_of_false nofun fun both => same both.1⟩

/-- **One score change** is called so exactly if neither the period nor the end of the game comes
with it. -/
theorem recorded_iff {args : Args} {polls before : List Poll} {poll : Poll} {t : Collector}
    {prev curr : GameState} {ts : Int} (reached : (machine args).run new polls = some t)
    (change : ScoreChange args polls before poll prev curr ts) :
    Recorded args before poll prev curr ts ↔
      curr.period = prev.period ∧ curr.gameState ≠ post := by
  obtain ⟨later, rfl⟩ := change.made
  obtain ⟨s', reached', -⟩ := Machine.run_append_eq_some.mp reached
  obtain ⟨s, before', step⟩ := Machine.run_concat_eq_some.mp reached'
  obtain ⟨running, -⟩ := machine_step_eq_some.mp step
  have after := after_of_run before'
  have known : s.prev = some prev := after.prev.trans change.last
  obtain ⟨eventType, detected, named⟩ :=
    detect_of_moved args ts change.moved (after.notOver running prev known)
  have written : (s.turn args poll).rows = s.rows ++ [row args (some prev) curr ts eventType] := by
    rw [turn_of_game change.sees, write, known, detected]
  rw [← named]
  constructor
  · rintro ⟨_, row', same, rows, isChange, -⟩
    cases before'.symm.trans same
    cases List.append_cancel_left (written.symm.trans rows)
    exact isChange
  · rintro rfl
    exact ⟨s, _, before', written, rfl, rfl, rfl, rfl⟩

/-- **Score changes.** In a run, every poll that sees another score than was seen last writes a row
that is called a score change, with both deltas, if and only if none of them sees another period as
well, or the end of the game. -/
theorem score_changes_iff (args : Args) (polls : List Poll) (t : Collector)
    (reached : (machine args).run new polls = some t) :
    (∀ before poll prev curr ts, ScoreChange args polls before poll prev curr ts →
        Recorded args before poll prev curr ts) ↔
      ∀ before poll prev curr ts, ScoreChange args polls before poll prev curr ts →
        curr.period = prev.period ∧ curr.gameState ≠ post := by
  constructor
  · intro all before poll prev curr ts change
    exact (recorded_iff reached change).mp (all before poll prev curr ts change)
  · intro all before poll prev curr ts change
    exact (recorded_iff reached change).mpr (all before poll prev curr ts change)

def worldCup : Args := ⟨"760442".toList, 1000⟩

/-- A poll that sees the game: "USA" at home, "AUS" without a goal. -/
def seen (period : Int) (homeScore : ℚ) (ts : Int) : Poll :=
  .scoreboard (some [
    { id := some "760442".toList
      status := some ⟨some period, some "45'".toList, some (some "in".toList)⟩
      competitions := some [some [
        ⟨some "home".toList, some "USA".toList, .number homeScore⟩,
        ⟨some "away".toList, some "AUS".toList, .null⟩]] }]) ts

def usaAus (period homeScore : Int) : GameState :=
  ⟨period, "45'".toList, "in".toList, "USA".toList, homeScore, "AUS".toList, 0⟩

theorem score_changes_iff_oneGoal :
    (∀ before poll prev curr ts,
        ScoreChange worldCup [seen 1 0 1, .fails, seen 1 1 2] before poll prev curr ts →
          Recorded worldCup before poll prev curr ts) ↔
      ∀ before poll prev curr ts,
        ScoreChange worldCup [seen 1 0 1, .fails, seen 1 1 2] before poll prev curr ts →
          curr.period = prev.period ∧ curr.gameState ≠ post :=
  score_changes_iff _ _ _ rfl

/-- A goal between the last poll of the first half and the first poll of the second. -/
theorem score_change_lost_at_half_time :
    ScoreChange worldCup [seen 1 0 1, seen 2 1 2] [seen 1 0 1] (seen 2 1 2) (usaAus 1 0)
        (usaAus 2 1) 2 ∧
      ((machine worldCup).run new [seen 1 0 1, seen 2 1 2]).map
          (fun s => s.rows.map Row.eventType) = some [.start, .periodChange] ∧
      ¬ Recorded worldCup [seen 1 0 1] (seen 2 1 2) (usaAus 1 0) (usaAus 2 1) 2 := by
  refine ⟨⟨List.prefix_refl _, by decide, by decide, by decide⟩, by decide, ?_⟩
  rintro ⟨s, row, reached, rows, isChange, -⟩
  cases reached
  cases rows
  cases isChange

end Collector

end Tickscope.Collectors
