import Tickscope.Bot.Executions

/-!
# Reasons for trades

The comment at the head of `StrategyEngine.hpp` gives the rules: an entry wants `YES_mid` at most the
threshold and `NO_ask` at most its maximum, an exit wants `NO_mid` at least the exit threshold, or a
market that is about to end. By the time a trade is made the books have moved on and the other
thread has traded, so the rules speak of what has been the case: `Entry`, `Exit` and `SweptSale` say
what each trade rests on, and every trade of a run has its reason (`trades_have_reasons`).
-/

namespace Tickscope.Bot

open Tickscope.Lib

/-! ## The checks on a book -/

namespace StrategyEngine

variable (engine : StrategyEngine)

/-- The checks of an entry on the book. -/
structure Enters (bk : MarketBook) : Prop where
  yesValid : bk.yesValid = true
  noValid : bk.noValid = true
  threshold : bk.yesMid ≤ engine.threshold
  ask : bk.noAsk ≤ engine.maxEntryAsk

theorem enter_eq_idle_or (cid : Str) (bk : MarketBook) (now : Int) :
    engine.enter cid bk now = .idle ∨
      engine.Enters bk ∧ engine.enter cid bk now = .entryMeta cid bk now := by
  unfold enter
  split
  · exact .inl rfl
  · rename_i valid
    have valid : bk.yesValid = true ∧ bk.noValid = true := by simpa using valid
    split
    · exact .inl rfl
    · rename_i threshold
      split
      · exact .inl rfl
      · rename_i ask
        exact .inr ⟨⟨valid.1, valid.2, not_lt.mp threshold, not_lt.mp ask⟩, rfl⟩

theorem leave_eq_idle_or (cid : Str) (bk : MarketBook) (now : Int) :
    engine.leave cid bk now = .idle ∨ bk.noValid = true ∧
      (engine.exitThresh ≤ bk.noMid ∧ engine.leave cid bk now = .snapshot cid bk ∨
        engine.leave cid bk now = .exitMeta cid bk now) := by
  unfold leave
  split
  · exact .inl rfl
  · rename_i valid
    refine .inr ⟨by simpa using valid, ?_⟩
    split
    · rename_i due
      exact .inl ⟨due, rfl⟩
    · exact .inr rfl

end StrategyEngine

/-! ## What a trade rests on -/

section Rules

variable (engine : StrategyEngine) (once : (System → Prop) → Prop)

/-- The market had this book, no later than the clock was read. -/
def Showed (cid : Str) (bk : MarketBook) (read : Int) : Prop :=
  once fun u => u.books.getBook cid = some bk ∧ u.clock ≤ read

/-- What an entry has seen before it looks at the metadata. -/
structure Vacant (cid : Str) (bk : MarketBook) (read : Int) : Prop extends engine.Enters bk where
  book : Showed once cid bk read
  vacant : once fun u => u.gateway.hasPosition cid = false ∧ read ≤ u.clock

/-- **The entry rule.** -/
structure Entry (cid : Str) (bk : MarketBook) (read : Int) : Prop
    extends Vacant engine once cid bk read where
  inTime : once fun u =>
    endsBy (read + minRemainingS * 1000) (u.books.getMeta cid) = false ∧ read ≤ u.clock

/-- A buy of these shares at this price. -/
def Bought (cid : Str) (shares fillPx : ℚ) : Prop :=
  ∃ bk read capital, Entry engine once cid bk read ∧ fillPx = bk.noAsk * (1 + slippage) ∧
    (once fun u => fillPx * kellyMinSh ≤ u.gateway.capital) ∧
    (once fun u => u.gateway.capital = capital) ∧ shares = kellySize fillPx capital

/-- What an exit has seen before it looks at the metadata. -/
structure StillHeld (cid : Str) (bk : MarketBook) (read : Int) : Prop where
  book : Showed once cid bk read
  held : once fun u => u.gateway.hasPosition cid = true ∧ read ≤ u.clock
  noValid : bk.noValid = true

/-- The market ends within the grace of this reading. -/
def Expiring (cid : Str) (read : Int) : Prop :=
  once fun u => endsBy (read + expiryGraceS * 1000) (u.books.getMeta cid) = true ∧ read ≤ u.clock

/-- **The exit rule.** -/
structure Exit (cid : Str) (bk : MarketBook) (read : Int) : Prop extends StillHeld once cid bk read where
  due : engine.exitThresh ≤ bk.noMid ∨ Expiring once cid read

/-- A sale by `on_tick`. -/
def TickSale (cid : Str) (shares fillPx : ℚ) : Prop :=
  ∃ bk read pos, Exit engine once cid bk read ∧ fillPx = bk.noBid * (1 - slippage) ∧
    (once fun u => u.gateway.positions.lookup cid = some pos) ∧ shares = pos.shares

/-- A sale by the sweep. -/
def SweptSale (cid : Str) (shares exitPx : ℚ) : Prop :=
  ∃ read pos, Expiring once cid read ∧ (once fun u => exitPx = sweepPrice pos (u.books.getBook cid)) ∧
    (once fun u => u.gateway.positions.lookup cid = some pos) ∧ shares = pos.shares

/-- The trade follows the rules. -/
def Trade.Reason : Trade → Prop
  | .buy cid _ shares fillPx _ => Bought engine once cid shares fillPx
  | .sell cid shares fillPx =>
      TickSale engine once cid shares fillPx ∨ SweptSale once cid shares fillPx

/-! ## What the threads have seen -/

/-- What `on_tick` has seen, by where it is; the clock is at `clock`. -/
def OnTick.Reason (clock : Int) : OnTick → Prop
  | .idle | .getBook _ => True
  | .clock cid bk => Showed once cid bk clock
  | .hasPosition cid bk read => Showed once cid bk read ∧ read ≤ clock
  | .entryMeta cid bk read => Vacant engine once cid bk read ∧ read ≤ clock
  | .checkCapital cid bk _ => ∃ read, Entry engine once cid bk read
  | .size cid bk _ => ∃ read, Entry engine once cid bk read ∧
      once fun u => bk.noAsk * (1 + slippage) * kellyMinSh ≤ u.gateway.capital
  | .refetchMeta cid _ shares fillPx => Bought engine once cid shares fillPx
  | .buy cid _ shares fillPx => Bought engine once cid shares fillPx
  | .exitMeta cid bk read => StillHeld once cid bk read ∧ read ≤ clock
  | .snapshot cid bk => ∃ read, Exit engine once cid bk read
  | .sell cid shares fillPx => TickSale engine once cid shares fillPx

/-- What a sweep has behind its snapshot. -/
structure Copied (clock read : Int) (positions : AList fun _ : Str => Position)
    (expired : List Str) : Prop where
  read_le : read ≤ clock
  expiring : ∀ cid ∈ expired, Expiring once cid read
  held : ∀ cid pos, positions.lookup cid = some pos →
    once fun u => u.gateway.positions.lookup cid = some pos

/-- What the sweep has seen, by where it is. -/
def Sweep.Reason (clock : Int) : Sweep → Prop
  | .idle | .clock => True
  | .snapshot read => read ≤ clock
  | .examine read positions _ expired => Copied once clock read positions expired
  | .getBook read positions expired => Copied once clock read positions expired
  | .sell read positions cid shares exitPx rest =>
      Copied once clock read positions rest ∧ SweptSale once cid shares exitPx

end Rules

/-! ## What has been the case stays so -/

/-- What has once been the case for `once` has been the case for `once'`. -/
def Recalls (once once' : (System → Prop) → Prop) : Prop :=
  ∀ ⦃P Q : System → Prop⦄, (∀ u, P u → Q u) → once P → once' Q

section Recalls

variable {engine : StrategyEngine} {once once' : (System → Prop) → Prop}
  (recalls : Recalls once once')

include recalls

theorem Recalls.id {P : System → Prop} (seen : once P) : once' P :=
  recalls (fun _ held => held) seen

theorem Showed.mono {cid : Str} {bk : MarketBook} {read read' : Int}
    (showed : Showed once cid bk read) (le : read ≤ read') : Showed once' cid bk read' :=
  recalls (fun _ seen => ⟨seen.1, seen.2.trans le⟩) showed

theorem Vacant.mono {cid : Str} {bk : MarketBook} {read : Int}
    (entry : Vacant engine once cid bk read) : Vacant engine once' cid bk read :=
  { entry with book := Showed.mono recalls entry.book le_rfl, vacant := recalls.id entry.vacant }

theorem Entry.mono {cid : Str} {bk : MarketBook} {read : Int}
    (entry : Entry engine once cid bk read) : Entry engine once' cid bk read :=
  { Vacant.mono recalls entry.toVacant with inTime := recalls.id entry.inTime }

theorem Bought.mono {cid : Str} {shares fillPx : ℚ} (bought : Bought engine once cid shares fillPx) :
    Bought engine once' cid shares fillPx := by
  obtain ⟨bk, read, capital, entry, price, pays, had, sized⟩ := bought
  exact ⟨bk, read, capital, Entry.mono recalls entry, price, recalls.id pays, recalls.id had, sized⟩

theorem StillHeld.mono {cid : Str} {bk : MarketBook} {read : Int}
    (held : StillHeld once cid bk read) : StillHeld once' cid bk read :=
  { held with book := Showed.mono recalls held.book le_rfl, held := recalls.id held.held }

theorem Exit.mono {cid : Str} {bk : MarketBook} {read : Int} (exit : Exit engine once cid bk read) :
    Exit engine once' cid bk read :=
  { StillHeld.mono recalls exit.toStillHeld with
    due := exit.due.imp_right fun ends => recalls.id ends }

theorem TickSale.mono {cid : Str} {shares fillPx : ℚ}
    (sale : TickSale engine once cid shares fillPx) : TickSale engine once' cid shares fillPx := by
  obtain ⟨bk, read, pos, exit, price, held, whole⟩ := sale
  exact ⟨bk, read, pos, Exit.mono recalls exit, price, recalls.id held, whole⟩

theorem SweptSale.mono {cid : Str} {shares exitPx : ℚ} (sale : SweptSale once cid shares exitPx) :
    SweptSale once' cid shares exitPx := by
  obtain ⟨read, pos, ends, price, held, whole⟩ := sale
  exact ⟨read, pos, recalls.id ends, recalls.id price, recalls.id held, whole⟩

theorem Copied.mono {clock clock' read : Int} {positions : AList fun _ : Str => Position}
    {expired : List Str} (copied : Copied once clock read positions expired)
    (le : clock ≤ clock') : Copied once' clock' read positions expired where
  read_le := copied.read_le.trans le
  expiring := fun cid mem => recalls.id (copied.expiring cid mem)
  held := fun cid pos found => recalls.id (copied.held cid pos found)

theorem OnTick.Reason.mono {clock clock' : Int} (le : clock ≤ clock') {ws : OnTick}
    (reason : ws.Reason engine once clock) : ws.Reason engine once' clock' := by
  cases ws with
  | idle | getBook => exact True.intro
  | clock => exact Showed.mono recalls reason le
  | hasPosition => exact ⟨Showed.mono recalls reason.1 le_rfl, reason.2.trans le⟩
  | entryMeta => exact ⟨Vacant.mono recalls reason.1, reason.2.trans le⟩
  | checkCapital => exact reason.imp fun _ entry => Entry.mono recalls entry
  | size =>
      exact reason.imp fun _ sized => ⟨Entry.mono recalls sized.1, recalls.id sized.2⟩
  | refetchMeta | buy => exact Bought.mono recalls reason
  | exitMeta => exact ⟨StillHeld.mono recalls reason.1, reason.2.trans le⟩
  | snapshot => exact reason.imp fun _ exit => Exit.mono recalls exit
  | sell => exact TickSale.mono recalls reason

theorem Sweep.Reason.mono {clock clock' : Int} (le : clock ≤ clock') {main : Sweep}
    (reason : main.Reason once clock) : main.Reason once' clock' := by
  cases main with
  | idle | clock => exact True.intro
  | snapshot => exact le_trans reason le
  | examine | getBook => exact Copied.mono recalls reason le
  | sell => exact ⟨Copied.mono recalls reason.1 le, SweptSale.mono recalls reason.2⟩

end Recalls

/-! ## Steps -/

section Steps

variable {engine : StrategyEngine} {once : (System → Prop) → Prop} {s : System}
  (here : ∀ P : System → Prop, P s → once P)

include here

theorem OnTick.Reason.looks {ws next : OnTick} (reason : ws.Reason engine once s.clock)
    (looks : s.Looks engine ws next) : next.Reason engine once s.clock := by
  cases looks with
  | noBook | tooLate | tooDear | staying | gone => exact True.intro
  | book found => exact here _ ⟨found, le_rfl⟩
  | @held cid bk read found =>
      obtain ⟨showed, le⟩ := reason
      rcases engine.leave_eq_idle_or cid bk read with eq | ⟨valid, later⟩
      · rw [eq]
        exact True.intro
      · have held : StillHeld once cid bk read := ⟨showed, here _ ⟨found, le⟩, valid⟩
        rcases later with ⟨due, eq⟩ | eq <;> rw [eq]
        · exact ⟨read, { held with due := .inl due }⟩
        · exact ⟨held, le⟩
  | @vacant cid bk read missing =>
      obtain ⟨showed, le⟩ := reason
      rcases engine.enter_eq_idle_or cid bk read with eq | ⟨enters, eq⟩ <;> rw [eq]
      · exact True.intro
      · exact ⟨{ enters with book := showed, vacant := here _ ⟨missing, le⟩ }, le⟩
  | @inTime cid bk read inTime =>
      exact ⟨read, { reason.1 with inTime := here _ ⟨inTime, reason.2⟩ }⟩
  | enough pays => exact reason.imp fun _ entry => ⟨entry, here _ pays⟩
  | @named cid bk info fillPx _ price =>
      obtain ⟨read, entry, pays⟩ := reason
      exact ⟨bk, read, s.gateway.capital, entry, price, price ▸ pays, here _ rfl, rfl⟩
  | @unnamed cid bk info fillPx _ price =>
      obtain ⟨read, entry, pays⟩ := reason
      exact ⟨bk, read, s.gateway.capital, entry, price, price ▸ pays, here _ rfl, rfl⟩
  | refetched => exact reason
  | @expiring cid bk read ends =>
      exact ⟨read, { reason.1 with due := .inr (here _ ⟨ends, reason.2⟩) }⟩
  | @found cid bk pos found =>
      obtain ⟨read, exit⟩ := reason
      exact ⟨bk, read, pos, exit, rfl, here _ found, rfl⟩

theorem Sweep.Reason.sweeps {order : List Str} {main next : Sweep}
    (reason : main.Reason once s.clock) (sweeps : s.Sweeps order main next) :
    next.Reason once s.clock := by
  cases sweeps with
  | snapshot => exact ⟨reason, nofun, fun _ _ found => here _ found⟩
  | examined => exact reason
  | @expiring read positions cid rest expired ends =>
      refine ⟨reason.read_le, fun other mem => ?_, reason.held⟩
      rcases List.mem_append.mp mem with mem | mem
      · exact reason.expiring other mem
      · rw [List.mem_singleton.mp mem]
        exact here _ ⟨ends, reason.read_le⟩
  | staying => exact reason
  | done => exact True.intro
  | unseen =>
      exact ⟨reason.read_le, fun other mem => reason.expiring other (List.mem_cons_of_mem _ mem),
        reason.held⟩
  | @seen read positions cid rest pos found =>
      exact ⟨⟨reason.read_le, fun other mem => reason.expiring other (List.mem_cons_of_mem _ mem),
        reason.held⟩, read, pos, reason.expiring cid List.mem_cons_self, here _ rfl,
        reason.held cid pos found, rfl⟩

end Steps

namespace System

/-- What both threads are about to do has its reasons. -/
structure Reasons (engine : StrategyEngine) (once : (System → Prop) → Prop) (s : System) : Prop where
  ws : s.ws.Reason engine once s.clock
  main : s.main.Reason once s.clock

theorem Reasons.mono {engine : StrategyEngine} {once once' : (System → Prop) → Prop}
    (recalls : Recalls once once') {s : System} (reasons : s.Reasons engine once) :
    s.Reasons engine once' :=
  ⟨OnTick.Reason.mono recalls le_rfl reasons.ws, Sweep.Reason.mono recalls le_rfl reasons.main⟩

theorem Reasons.step {engine : StrategyEngine} {once : (System → Prop) → Prop} {s s' : System}
    {l : Label} (here : ∀ P : System → Prop, P s → once P) (same : Recalls once once)
    (reasons : s.Reasons engine once) (step : (machine engine).step s l = some s') :
    s'.Reasons engine once := by
  cases l with
  | update tokenId bid ask =>
      simp only [machine, System.step] at step
      split at step
      · cases step
        refine ⟨?_, reasons.main⟩
        dsimp only
        by_cases unknown : (s.books.onTick tokenId bid ask).2 = []
        · rw [if_pos unknown]
          exact True.intro
        · rw [if_neg unknown]
          exact True.intro
      · cases step
  | ws now =>
      cases ticks_of_stepOnTick step with
      | looks state looks =>
          exact ⟨OnTick.Reason.looks here (state ▸ reasons.ws) looks, reasons.main⟩
      | clock state later =>
          have showed := state ▸ reasons.ws
          exact ⟨⟨Showed.mono same showed later, le_rfl⟩, Sweep.Reason.mono same later reasons.main⟩
      | buy state later => exact ⟨True.intro, Sweep.Reason.mono same later reasons.main⟩
      | sell => exact ⟨True.intro, reasons.main⟩
  | addMarket info =>
      simp only [machine, System.step] at step
      split at step <;> cases step
      exact ⟨reasons.ws, reasons.main⟩
  | sweep =>
      simp only [machine, System.step] at step
      split at step <;> cases step
      exact ⟨reasons.ws, True.intro⟩
  | main now order =>
      cases turns_of_stepSweep step with
      | sweeps state sweeps =>
          exact ⟨reasons.ws, Sweep.Reason.sweeps here (state ▸ reasons.main) sweeps⟩
      | clock state later => exact ⟨OnTick.Reason.mono same later reasons.ws, le_rfl⟩
      | sell state => exact ⟨reasons.ws, (state ▸ reasons.main).1⟩

theorem mem_sold {gw : PaperGateway} {cid : Str} {shares fillPx : ℚ} {t : Trade}
    (mem : t ∈ gw.sold cid shares fillPx) : t = .sell cid shares fillPx := by
  rw [PaperGateway.sold] at mem
  split at mem
  · exact List.mem_singleton.mp mem
  · cases mem

theorem Reasons.executions {engine : StrategyEngine} {once : (System → Prop) → Prop} {s : System}
    (reasons : s.Reasons engine once) {l : Label} {t : Trade} (mem : t ∈ s.executions l) :
    t.Reason engine once := by
  have ws := reasons.ws
  have main := reasons.main
  cases l with
  | ws now =>
      rw [System.executions] at mem
      cases state : s.ws with
      | buy =>
          rw [state] at mem ws
          rw [List.mem_singleton.mp mem]
          exact ws
      | sell =>
          rw [state] at mem ws
          rw [mem_sold mem]
          exact .inl ws
      | _ =>
          rw [state] at mem
          cases mem
  | main now order =>
      rw [System.executions] at mem
      cases state : s.main with
      | sell =>
          rw [state] at mem main
          rw [mem_sold mem]
          exact .inr main.2
      | _ =>
          rw [state] at mem
          cases mem
  | _ => cases mem

/-- What holds at the end of a run has once held in it. -/
theorem recalls_later {engine : StrategyEngine} {start : System} (before later : List Label) :
    Recalls ((machine engine).Once start before) ((machine engine).Once start (before ++ later)) := by
  rintro P Q imp ⟨earlier, u, begun, reached, held⟩
  exact Machine.Once.later ⟨earlier, u, begun, reached, imp u held⟩ later

theorem reasons_of_run {engine : StrategyEngine} {initial : ℚ} {clock : Int} {before : List Label}
    {s : System} (reached : (machine engine).run (new initial clock) before = some s) :
    s.Reasons engine ((machine engine).Once (new initial clock) before) := by
  refine Machine.run_induction (I := fun before s =>
    s.Reasons engine ((machine engine).Once (new initial clock) before))
    ⟨True.intro, True.intro⟩ (fun before s l s' reached reasons step => ?_) reached
  have same : Recalls ((machine engine).Once (new initial clock) before)
      ((machine engine).Once (new initial clock) (before ++ [])) := recalls_later before []
  rw [List.append_nil] at same
  exact (reasons.step (fun P => Machine.once_of_run reached) same step).mono
    (recalls_later before [l])

/-- **Every trade has its reason.** Whatever the feed sends and however the two threads interleave,
each trade follows the rules for entries and exits on what has been the case before it. -/
theorem trades_have_reasons (engine : StrategyEngine) (initial : ℚ) (clock : Int)
    {before : List Label} {s : System}
    (reached : (machine engine).run (new initial clock) before = some s) {l : Label} {t : Trade}
    (executed : t ∈ s.executions l) :
    t.Reason engine ((machine engine).Once (new initial clock) before) :=
  (reasons_of_run reached).executions executed

/-- The buy of the sample run is about to be made. -/
theorem trades_have_reasons_sample :
    ∃ s t, (machine {}).run (new 1000 0) (sampleRun.take 12) = some s ∧
      t ∈ s.executions (.ws 0) ∧
      t.Reason {} ((machine {}).Once (new 1000 0) (sampleRun.take 12)) := by
  have one : ((machine {}).run (new 1000 0) (sampleRun.take 12)).map
      (fun s => (s.executions (.ws 0)).length) = some 1 := by decide +kernel
  obtain ⟨s, reached, length⟩ := Option.map_eq_some_iff.mp one
  obtain ⟨t, trades⟩ := List.length_eq_one_iff.mp length
  have executed : t ∈ s.executions (.ws 0) := by rw [trades]; exact List.mem_cons_self
  exact ⟨s, t, reached, executed, trades_have_reasons {} 1000 0 reached executed⟩

end System

end Tickscope.Bot
