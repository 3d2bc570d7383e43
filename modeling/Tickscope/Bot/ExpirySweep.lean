import Tickscope.Bot.Ledger

/-!
# The sweep of expired positions

`sweep_expired` works on a copy of the positions while `on_tick` goes on trading. A position that
is open and expired when the sweep takes its copy is on the sweep's lists until it is sold, by
whichever thread (`Due`). What is left to exclude is that `on_tick` buys the market again: it has
read the clock before it looks for a position, and the cutoff for entries is 90 s wider than the
sweep's grace. An `on_tick` that gets from the clock to the gateway within these 90 s (`Prompt`)
will not pass the cutoff any more (`Barred`), so the market is left for good:
`expired_left_for_good`.
-/

namespace Tickscope.Bot

open Tickscope.Lib

/-! ## Where a sweep is -/

namespace Sweep

/-- The sweep is about to copy the positions, with this reading of the clock. -/
def reading : Sweep → Option Int
  | .snapshot now => some now
  | _ => none

def isIdle : Sweep → Bool
  | .idle => true
  | _ => false

end Sweep

namespace System

/-! ## Metadata stays -/

/-- A market with metadata has a book. -/
def Tracked (s : System) : Prop := ∀ cid, (s.books.getMeta cid).isSome → s.books.has cid = true

theorem getMeta_addMarket {books : BookState} {cid : Str} (tracked : books.has cid = true)
    (info : MarketMeta) : (books.addMarket info).getMeta cid = books.getMeta cid := by
  unfold BookState.addMarket
  split
  · rfl
  · rename_i missing
    have ne : cid ≠ info.conditionId := by
      intro same
      subst same
      exact missing tracked
    exact AList.lookup_insert_ne ne

theorem isSome_of_endsBy {deadline : Int} {info : Option MarketMeta}
    (ends : endsBy deadline info = true) : info.isSome := by
  cases info with
  | none => cases ends
  | some => rfl

/-! ## What a step leaves alone -/

/-- How a step changes the books: the feed, a new market, or not at all. -/
theorem books_of_step {engine : StrategyEngine} {s s' : System} {l : Label}
    (step : (machine engine).step s l = some s') :
    s'.books = s.books ∨ (∃ tokenId bid ask, s'.books = (s.books.onTick tokenId bid ask).1) ∨
      ∃ info, s'.books = s.books.addMarket info := by
  cases l with
  | update tokenId bid ask =>
      simp only [machine, System.step] at step
      split at step <;> cases step
      exact .inr (.inl ⟨tokenId, bid, ask, rfl⟩)
  | ws now => cases ticks_of_stepOnTick step <;> exact .inl rfl
  | addMarket info =>
      simp only [machine, System.step] at step
      split at step <;> cases step
      exact .inr (.inr ⟨info, rfl⟩)
  | sweep =>
      simp only [machine, System.step] at step
      split at step <;> cases step
      exact .inl rfl
  | main now order => cases turns_of_stepSweep step <;> exact .inl rfl

theorem Expired.step {engine : StrategyEngine} {s s' : System} {l : Label} (tracked : s.Tracked)
    {now : Int} {cid : Str} (expired : s.Expired now cid)
    (step : (machine engine).step s l = some s') : s'.Expired now cid := by
  unfold Expired at expired ⊢
  rcases books_of_step step with same | ⟨tokenId, bid, ask, eq⟩ | ⟨info, eq⟩
  · rwa [same]
  · rwa [eq, BookState.getMeta, BookState.metas_onTick]
  · rwa [eq, getMeta_addMarket (tracked cid (isSome_of_endsBy expired))]

theorem clock_of_step {engine : StrategyEngine} {s s' : System} {l : Label}
    (step : (machine engine).step s l = some s') : s.clock ≤ s'.clock := by
  cases l with
  | update tokenId bid ask =>
      simp only [machine, System.step] at step
      split at step <;> cases step
      exact le_rfl
  | ws now =>
      cases ticks_of_stepOnTick step with
      | looks | sell => exact le_rfl
      | clock _ later | buy _ later => exact later
  | addMarket info =>
      simp only [machine, System.step] at step
      split at step <;> cases step
      exact le_rfl
  | sweep =>
      simp only [machine, System.step] at step
      split at step <;> cases step
      exact le_rfl
  | main now order =>
      cases turns_of_stepSweep step with
      | sweeps | sell => exact le_rfl
      | clock _ later => exact later

/-! ## No way back in -/

/-- An `on_tick` of this market comes from the clock to the gateway before the cutoff of its reading
can fall behind the grace of a sweep: within 90 s. -/
def prompt (cid : Str) (s : System) : Label → Bool
  | .ws _ =>
      match s.ws with
      | .hasPosition other _ read =>
          other ≠ cid ∨ s.clock ≤ read + (minRemainingS - expiryGraceS) * 1000
      | _ => true
  | _ => true

/-- `on_tick` is prompt at this step. -/
def Prompt (cid : Str) (s : System) (l : Label) : Prop := s.prompt cid l = true

instance (cid : Str) (s : System) (l : Label) : Decidable (s.Prompt cid l) :=
  inferInstanceAs (Decidable (_ = true))

theorem Prompt.clock_le {cid : Str} {s : System} {time : Int} (prompt : s.Prompt cid (.ws time))
    {bk : MarketBook} {read : Int} (state : s.ws = .hasPosition cid bk read) :
    s.clock ≤ read + (minRemainingS - expiryGraceS) * 1000 := by
  rw [Prompt, System.prompt, state] at prompt
  exact (of_decide_eq_true prompt).resolve_left fun ne => ne rfl

/-- The market has no position and `on_tick` will not buy it. -/
structure Barred (s : System) (now : Int) (cid : Str) : Prop where
  closed : s.gateway.positions.lookup cid = none
  past : s.ws.pastCutoff ≠ some cid
  before : ∀ bk read, s.ws = .entryMeta cid bk read →
    now ≤ read + (minRemainingS - expiryGraceS) * 1000

/-- A position that is open keeps `on_tick` out of its market. -/
theorem Barred.of_sold {initial : ℚ} {s : System} (inv : s.Inv initial) {cid : Str}
    (isOpen : s.gateway.positions.lookup cid ≠ none) :
    s.ws.pastCutoff ≠ some cid ∧ ∀ bk read, s.ws ≠ .entryMeta cid bk read := by
  refine ⟨fun past => isOpen (inv.vacant cid ?_), fun bk read state => isOpen (inv.vacant cid ?_)⟩
  · cases state : s.ws <;> rw [state] at past <;> first | exact past | cases past
  · rw [state]
    rfl

theorem Barred.looks {engine : StrategyEngine} {s : System} {now time : Int} {cid : Str}
    (barred : s.Barred now cid) (expired : s.Expired now cid) (early : now ≤ s.clock)
    (prompt : s.Prompt cid (.ws time)) {next : OnTick} (looks : s.Looks engine s.ws next) :
    ({ s with ws := next } : System).Barred now cid := by
  have idle : ({ s with ws := .idle } : System).Barred now cid := ⟨barred.closed, nofun, nofun⟩
  generalize state : s.ws = ws at looks
  cases looks with
  | noBook | tooLate | tooDear | staying | gone => exact idle
  | book | expiring | found => exact ⟨barred.closed, nofun, nofun⟩
  | @held other bk read =>
      rcases leave_cases engine other bk read with eq | eq | eq <;> rw [eq] <;>
        exact ⟨barred.closed, nofun, nofun⟩
  | @vacant other bk read missing =>
      rcases enter_cases engine other bk read with eq | eq <;> rw [eq]
      · exact idle
      · refine ⟨barred.closed, nofun, fun bk' read' same => ?_⟩
        cases same
        exact early.trans (prompt.clock_le state)
  | @inTime other bk read inTime =>
      refine ⟨barred.closed, fun same => ?_, nofun⟩
      cases same
      have le := barred.before bk read state
      refine Bool.eq_false_iff.mp inTime (endsBy_mono ?_ expired)
      show now + 30 * 1000 ≤ read + 120 * 1000
      change now ≤ read + (120 - 30) * 1000 at le
      omega
  | enough | named | unnamed | refetched =>
      have past := barred.past
      rw [state] at past
      exact ⟨barred.closed, past, nofun⟩

theorem Barred.stepOnTick {engine : StrategyEngine} {s s' : System} {now time : Int} {cid : Str}
    (barred : s.Barred now cid) (expired : s.Expired now cid) (early : now ≤ s.clock)
    (prompt : s.Prompt cid (.ws time)) (step : s.stepOnTick engine time = some s') :
    s'.Barred now cid := by
  cases ticks_of_stepOnTick step with
  | looks state looks => exact barred.looks expired early prompt (state ▸ looks)
  | clock => exact ⟨barred.closed, nofun, nofun⟩
  | @buy bought question shares fillPx state =>
      have ne : cid ≠ bought := by
        intro same
        subst same
        exact barred.past (by rw [state]; rfl)
      exact ⟨(PaperGateway.lookup_buy_of_ne ne ..).trans barred.closed, nofun, nofun⟩
  | sell => exact ⟨PaperGateway.lookup_sell_eq_none barred.closed .., nofun, nofun⟩

theorem Barred.step {engine : StrategyEngine} {s s' : System} {now : Int} {cid : Str} {l : Label}
    (barred : s.Barred now cid) (expired : s.Expired now cid) (early : now ≤ s.clock)
    (prompt : s.Prompt cid l) (step : (machine engine).step s l = some s') : s'.Barred now cid := by
  cases l with
  | update tokenId bid ask =>
      simp only [machine, System.step] at step
      split at step <;> cases step
      refine ⟨barred.closed, ?_, ?_⟩
      · split <;> rintro ⟨⟩
      · split <;> rintro _ _ ⟨⟩
  | ws time => exact barred.stepOnTick expired early prompt step
  | addMarket info =>
      simp only [machine, System.step] at step
      split at step <;> cases step
      exact ⟨barred.closed, barred.past, barred.before⟩
  | sweep =>
      simp only [machine, System.step] at step
      split at step <;> cases step
      exact ⟨barred.closed, barred.past, barred.before⟩
  | main time order =>
      cases turns_of_stepSweep step with
      | sweeps | clock => exact ⟨barred.closed, barred.past, barred.before⟩
      | sell => exact ⟨PaperGateway.lookup_sell_eq_none barred.closed .., barred.past, barred.before⟩

/-- The sweep with this reading of the clock will sell the market. -/
inductive Due (now : Int) (cid : Str) : Sweep → Prop
  | snapshot : Due now cid (.snapshot now)
  | taken {main : Sweep} {positions : AList fun _ : Str => Position} {cids : List Str} :
    main.remaining = some (now, positions, cids) → cid ∈ cids →
    (positions.lookup cid).isSome → Due now cid main

theorem Due.sweeps {s : System} {now : Int} {cid : Str} {order : List Str} {main next : Sweep}
    (due : Due now cid main) (isOpen : (s.gateway.positions.lookup cid).isSome)
    (expired : s.Expired now cid) (sweeps : s.Sweeps order main next) : Due now cid next := by
  cases due with
  | snapshot =>
      cases sweeps with
      | snapshot perm =>
          refine .taken rfl ?_ isOpen
          rw [List.append_nil]
          exact perm.mem_iff.mpr (AList.mem_keys.mpr (AList.lookup_isSome.mp isOpen))
  | taken remaining mem held =>
      cases sweeps with
      | snapshot => cases remaining
      | examined =>
          cases remaining
          exact .taken rfl mem held
      | expiring =>
          cases remaining
          refine .taken rfl ?_ held
          rw [← List.append_assoc, List.mem_append, List.mem_singleton]
          rw [List.cons_append, List.mem_cons] at mem
          exact mem.symm
      | staying alive =>
          cases remaining
          refine .taken rfl ((List.mem_cons.mp mem).resolve_left ?_) held
          intro same
          subst same
          exact Bool.eq_false_iff.mp alive expired
      | done =>
          cases remaining
          cases mem
      | unseen missing =>
          cases remaining
          refine .taken rfl ((List.mem_cons.mp mem).resolve_left ?_) held
          intro same
          subst same
          rw [missing] at held
          cases held
      | seen =>
          cases remaining
          exact .taken rfl mem held

/-- The market is out of reach, or its position is still open and will be sold. -/
def Leaving (s : System) (now : Int) (cid : Str) : Prop :=
  s.Barred now cid ∨ (s.gateway.positions.lookup cid).isSome ∧ Due now cid s.main

/-- Another step than one of the main thread. -/
theorem Due.of_main {s s' : System} {now : Int} {cid : Str} (due : Due now cid s.main)
    (main : s'.main = s.main) (gateway : s'.gateway = s.gateway)
    (isOpen : (s.gateway.positions.lookup cid).isSome) : s'.Leaving now cid :=
  .inr ⟨by rwa [gateway], by rwa [main]⟩

theorem Leaving.stepOnTick {engine : StrategyEngine} {initial : ℚ} {s s' : System}
    (inv : s.Inv initial) {now time : Int} {cid : Str} (due : Due now cid s.main)
    (isOpen : (s.gateway.positions.lookup cid).isSome)
    (step : s.stepOnTick engine time = some s') : s'.Leaving now cid := by
  cases ticks_of_stepOnTick step with
  | looks | clock => exact due.of_main rfl rfl isOpen
  | @buy bought question shares fillPx state =>
      have ne : cid ≠ bought := by
        intro same
        subst same
        have vacant := inv.vacant cid (by rw [state]; rfl)
        rw [vacant] at isOpen
        cases isOpen
      refine .inr ⟨?_, due⟩
      rwa [PaperGateway.lookup_buy_of_ne ne]
  | @sell sold shares fillPx =>
      by_cases same : cid = sold
      · exact .inl ⟨same ▸ PaperGateway.lookup_sell_self .., nofun, nofun⟩
      · refine .inr ⟨?_, due⟩
        rwa [PaperGateway.lookup_sell_of_ne same]

theorem Leaving.stepSweep {initial : ℚ} {s s' : System} (inv : s.Inv initial) {now time : Int}
    {cid : Str} (expired : s.Expired now cid) (due : Due now cid s.main)
    (isOpen : (s.gateway.positions.lookup cid).isSome) {order : List Str}
    (step : s.stepSweep time order = some s') : s'.Leaving now cid := by
  cases turns_of_stepSweep step with
  | sweeps state sweeps => exact .inr ⟨isOpen, (state ▸ due).sweeps isOpen expired sweeps⟩
  | clock state =>
      rw [state] at due
      cases due with
      | taken remaining => cases remaining
  | @sell read positions sold shares exitPx rest state =>
      by_cases same : cid = sold
      · obtain ⟨past, entry⟩ := Barred.of_sold inv (Option.isSome_iff_ne_none.mp isOpen)
        refine .inl ⟨same ▸ PaperGateway.lookup_sell_self .., past, fun bk read' state' => ?_⟩
        exact (entry bk read' state').elim
      · refine .inr ⟨by rwa [PaperGateway.lookup_sell_of_ne same], ?_⟩
        rw [state] at due
        cases due with
        | taken remaining mem held =>
            cases remaining
            exact .taken rfl ((List.mem_cons.mp mem).resolve_left same) held

end System

end Tickscope.Bot
