import Tickscope.Collectors.EspnCollector
import Tickscope.Lib.Lists

/-!
# What the rows of a game say

A row is written against the last poll, not against the last row, and most polls write none. All the
same the rows of a run tell one story: each follows from the one before it, the deltas add up to the
scores, and the last row has the score and the period of the last poll (`rows_of_run`).
-/

namespace Tickscope.Collectors

open Tickscope.Lib

/-- What a row reports of its poll. -/
structure Row.Reports (row : Row) (curr : GameState) : Prop where
  period : row.period = curr.period
  homeScore : row.homeScore = curr.homeScore
  awayScore : row.awayScore = curr.awayScore
  /-- The end of the game is never passed over. -/
  ended : row.gameState = post ↔ curr.gameState = post

/-- What the label of a row says of the row before it. -/
def Row.Labelled (row next : Row) : Prop :=
  match next.eventType with
  | .start => False
  | .gameEnd => next.gameState = post
  | .periodChange => next.period ≠ row.period
  | .scoreChange =>
      next.period = row.period ∧ (next.homeScore ≠ row.homeScore ∨ next.awayScore ≠ row.awayScore)
  | .heartbeat =>
      next.period = row.period ∧ next.homeScore = row.homeScore ∧ next.awayScore = row.awayScore

/-- One row after another. -/
structure Row.Follows (row next : Row) : Prop where
  home : next.homeScoreDelta = next.homeScore - row.homeScore
  away : next.awayScoreDelta = next.awayScore - row.awayScore
  label : row.Labelled next
  /-- Only the last row is about a finished game. -/
  going : row.gameState ≠ post
  /-- The end of the game is called so. -/
  ended : next.eventType = .gameEnd ↔ next.gameState = post

/-- The first row. -/
structure Row.Starts (row : Row) : Prop where
  label : row.eventType = .start
  home : row.homeScoreDelta = row.homeScore
  away : row.awayScoreDelta = row.awayScore

namespace Collector

/-- The rows of a run, and what has been seen last. -/
structure Tells (s : Collector) : Prop where
  starts : ∀ row ∈ s.rows.head?, row.Starts
  chain : s.rows.IsChain Row.Follows
  last : ∀ prev ∈ s.prev, ∃ row ∈ s.rows.getLast?, row.Reports prev
  silent : s.prev = none → s.rows = []

/-- Why a poll writes a row with this label, or none. -/
inductive Because (prev curr : GameState) : Option EventType → Prop where
  | gameEnd (ended : curr.gameState = post) : Because prev curr (some .gameEnd)
  | periodChange (going : curr.gameState ≠ post) (other : curr.period ≠ prev.period) :
      Because prev curr (some .periodChange)
  | scoreChange (going : curr.gameState ≠ post) (same : curr.period = prev.period)
      (moved : prev.ScoreMoved curr) : Because prev curr (some .scoreChange)
  | quiet (going : curr.gameState ≠ post) (same : curr.period = prev.period)
      (home : curr.homeScore = prev.homeScore) (away : curr.awayScore = prev.awayScore)
      {found : Option EventType} (heartbeat : ∀ label ∈ found, label = .heartbeat) :
      Because prev curr found

theorem because_detect (args : Args) {prev : GameState} (curr : GameState) (ts : Int)
    (notOver : prev.gameState ≠ post) : Because prev curr (detect args (some prev) curr ts) := by
  rw [detect]
  split
  case isTrue ended => exact .gameEnd ended.1
  case isFalse notEnded =>
    have going : curr.gameState ≠ post := fun ended => notEnded ⟨ended, notOver⟩
    split
    case isTrue other => exact .periodChange going other
    case isFalse same =>
      have same := not_not.mp same
      split
      case isTrue moved => exact .scoreChange going same moved
      case isFalse still =>
        obtain ⟨home, away⟩ := not_or.mp still
        refine .quiet going same (not_not.mp home) (not_not.mp away) fun label mem => ?_
        split at mem <;> cases mem
        rfl

/-- A poll that sees nothing to write about. -/
theorem reports_of_quiet {prev curr : GameState} (because : Because prev curr none)
    (notOver : prev.gameState ≠ post) {row : Row} (reports : row.Reports prev) :
    row.Reports curr := by
  cases because with
  | quiet going same home away =>
      exact ⟨reports.period.trans same.symm, reports.homeScore.trans home.symm,
        reports.awayScore.trans away.symm,
        iff_of_false (fun ended => notOver (reports.ended.mp ended)) going⟩

/-- A row that is written against the last poll follows from the last row. -/
theorem follows_of_because (args : Args) {prev curr : GameState} (ts : Int) {eventType : EventType}
    (because : Because prev curr (some eventType)) (notOver : prev.gameState ≠ post)
    {last : Row} (reports : last.Reports prev) :
    last.Follows (row args (some prev) curr ts eventType) := by
  have home : curr.homeScore - prev.homeScore = curr.homeScore - last.homeScore := by
    rw [reports.homeScore]
  have away : curr.awayScore - prev.awayScore = curr.awayScore - last.awayScore := by
    rw [reports.awayScore]
  refine ⟨home, away, ?_, fun ended => notOver (reports.ended.mp ended), ?_⟩
  · cases because with
    | gameEnd ended => exact ended
    | periodChange going other => exact fun same => other (same.trans reports.period)
    | scoreChange going same moved =>
        refine ⟨same.trans reports.period.symm, moved.imp ?_ ?_⟩
        · exact fun home same => home (same.trans reports.homeScore)
        · exact fun away same => away (same.trans reports.awayScore)
    | quiet going same home away heartbeat =>
        cases heartbeat eventType rfl
        exact ⟨same.trans reports.period.symm, home.trans reports.homeScore.symm,
          away.trans reports.awayScore.symm⟩
  · show eventType = .gameEnd ↔ curr.gameState = post
    cases because with
    | gameEnd ended => exact iff_of_true rfl ended
    | periodChange going => exact iff_of_false nofun going
    | scoreChange going => exact iff_of_false nofun going
    | quiet going _ _ _ heartbeat =>
        cases heartbeat eventType rfl
        exact iff_of_false nofun going

/-- **One turn.** -/
theorem Tells.turn {args : Args} {s : Collector} (tells : s.Tells) (notOver : s.NotOver)
    (running : s.running = true) (poll : Poll) : (s.turn args poll).Tells := by
  unfold Collector.turn
  cases poll.outcome args with
  | error => exact ⟨tells.starts, tells.chain, tells.last, tells.silent⟩
  | noGame => exact ⟨tells.starts, tells.chain, tells.last, tells.silent⟩
  | broken => exact ⟨tells.starts, tells.chain, tells.last, tells.silent⟩
  | game curr ts =>
      dsimp only [write]
      cases prev : s.prev with
      | none =>
          rw [detect, tells.silent prev]
          refine ⟨?_, List.isChain_singleton _, ?_, ?_⟩
          · rintro _ ⟨⟩
            exact ⟨rfl, Int.sub_zero _, Int.sub_zero _⟩
          · rintro _ ⟨⟩
            exact ⟨_, rfl, rfl, rfl, rfl, Iff.rfl⟩
          · rintro ⟨⟩
      | some prev' =>
          obtain ⟨last, isLast, reports⟩ := tells.last prev' prev
          have going := notOver running prev' prev
          have because := because_detect args curr ts going
          cases found : detect args (some prev') curr ts with
          | none =>
              refine ⟨tells.starts, tells.chain, ?_, ?_⟩
              · rintro _ ⟨⟩
                exact ⟨last, isLast, reports_of_quiet (found ▸ because) going reports⟩
              · rintro ⟨⟩
          | some eventType =>
              rw [found] at because
              have follows := follows_of_because args ts because going reports
              refine ⟨?_, ?_, ?_, ?_⟩
              · intro first isFirst
                refine tells.starts first ?_
                cases rows : s.rows with
                | nil =>
                    rw [rows] at isLast
                    cases isLast
                | cons => rwa [rows] at isFirst
              · refine tells.chain.append (List.isChain_singleton _) ?_
                rintro last' isLast' _ ⟨⟩
                cases isLast.symm.trans isLast'
                exact follows
              · rintro _ ⟨⟩
                exact ⟨_, List.getLast?_concat, rfl, rfl, rfl, Iff.rfl⟩
              · rintro ⟨⟩

theorem tells_of_run {args : Args} {polls : List Poll} {s : Collector}
    (reached : (machine args).run new polls = some s) : s.Tells := by
  induction polls using List.reverseRecOn generalizing s with
  | nil =>
      cases reached
      exact ⟨nofun, List.isChain_nil, nofun, fun _ => rfl⟩
  | append_singleton polls poll ih =>
      obtain ⟨s', before, step⟩ := Machine.run_concat_eq_some.mp reached
      obtain ⟨running, rfl⟩ := machine_step_eq_some.mp step
      exact (ih before).turn (after_of_run before).notOver running poll

/-- **The rows of a run** follow one from another, and each score is the sum of the deltas so far; the
last row has the scores and the period of the last poll that saw the game. -/
theorem rows_of_run (args : Args) (polls : List Poll) (t : Collector)
    (reached : (machine args).run new polls = some t) :
    (∀ row ∈ t.rows.head?, row.Starts) ∧ t.rows.IsChain Row.Follows ∧
      (∀ before row, before ++ [row] <+: t.rows →
        ((before ++ [row]).map Row.homeScoreDelta).sum = row.homeScore ∧
          ((before ++ [row]).map Row.awayScoreDelta).sum = row.awayScore) ∧
      ∀ curr ∈ lastGame args polls, ∃ row ∈ t.rows.getLast?, row.Reports curr := by
  have tells := tells_of_run reached
  refine ⟨tells.starts, tells.chain, fun before row made => ?_, ?_⟩
  · have chain := tells.chain.prefix made
    have first : ∀ first ∈ (before ++ [row]).head?, first.Starts := by
      obtain ⟨later, same⟩ := made
      intro first isFirst
      exact tells.starts first (same ▸ List.mem_head?_append_of_mem_head? isFirst)
    refine ⟨?_, ?_⟩
    · exact sum_of_differences (fun item mem => (first item mem).home)
        (chain.imp fun _ _ follows => follows.home) row List.getLast?_concat
    · exact sum_of_differences (fun item mem => (first item mem).away)
        (chain.imp fun _ _ follows => follows.away) row List.getLast?_concat
  · rw [← (after_of_run reached).prev]
    exact tells.last

/-- A goal after a poll that fails, and the second half. -/
theorem rows_of_run_oneGoal :
    ∃ t, (machine worldCup).run new [seen 1 0 1, .fails, seen 1 1 2, seen 2 1 3] = some t ∧
      t.rows.map (fun row => (row.eventType, row.homeScoreDelta)) =
        [(.start, 0), (.scoreChange, 1), (.periodChange, 0)] ∧
      (∀ row ∈ t.rows.head?, row.Starts) ∧ t.rows.IsChain Row.Follows ∧
      (∀ before row, before ++ [row] <+: t.rows →
        ((before ++ [row]).map Row.homeScoreDelta).sum = row.homeScore ∧
          ((before ++ [row]).map Row.awayScoreDelta).sum = row.awayScore) ∧
      ∀ curr ∈ lastGame worldCup [seen 1 0 1, .fails, seen 1 1 2, seen 2 1 3],
        ∃ row ∈ t.rows.getLast?, row.Reports curr := by
  have reached : ((machine worldCup).run new [seen 1 0 1, .fails, seen 1 1 2, seen 2 1 3]).map
      (fun t => t.rows.map fun row => (row.eventType, row.homeScoreDelta)) =
        some [(.start, 0), (.scoreChange, 1), (.periodChange, 0)] := by decide
  obtain ⟨t, reached, rows⟩ := Option.map_eq_some_iff.mp reached
  exact ⟨t, reached, rows, rows_of_run worldCup _ t reached⟩

end Collector

end Tickscope.Collectors
