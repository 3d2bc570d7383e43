import Tickscope.Gateway.Subscription
import Tickscope.Lib.Machine

/-!
# The harvester's WebSocket client

`src/gateway/WebSocketClient.cpp` on its three threads: `run` with the staleness watchdog, the
callbacks of the I/O thread, and `subscribe` on the re-discovery thread. A section under
`subscription_mutex_` is one step, and so is each access to an atomic, each `ws.send` and each
reading of the clock. The connection is the environment's: it comes up with the Open callback and
may go down at any time. What is sent while it is down is lost. Nothing is assumed of the Close
callback, which may be late or missing.
-/

namespace Tickscope.Gateway

open Tickscope.Lib

/-- `STALE_TIMEOUT_MS`. -/
def staleTimeoutMs : Int := 90000

/-- The next step of the I/O thread. -/
inductive Io where
  /-- before `ws.start()` and after `ws.stop()` -/
  | stopped
  /-- between two connections -/
  | offline
  /-- Open: send `full_subscription_json_` under the mutex -/
  | openSend
  /-- Open: store `last_msg_ms_` -/
  | openStamp
  /-- Open: store `connected_` -/
  | openStore
  /-- between two callbacks -/
  | online
  /-- Close: clear `connected_` -/
  | closeStore
deriving DecidableEq

/-- The next step of `subscribe`. -/
inductive Subscribe where
  | idle
  /-- insert into `full_subscription_json_` under the mutex -/
  | update (newTokens : List Str)
  /-- load `connected_` -/
  | load (newTokens : List Str)
  /-- send the incremental message -/
  | send (newTokens : List Str)
deriving DecidableEq

/-- The next step of `run`. -/
inductive Run where
  | enter
  /-- `ws.start()` -/
  | start
  /-- load `running_` -/
  | poll
  /-- load `connected_` -/
  | connected
  /-- load `last_msg_ms_` -/
  | last
  /-- compare `now_ms()` with it -/
  | elapsed (last : Int)
  /-- clear `connected_` -/
  | clear
  /-- store `last_msg_ms_` -/
  | stamp
  /-- `ws.stop()` closes the connection -/
  | stop (final : Bool)
  /-- `ws.stop()` joins the I/O thread -/
  | join (final : Bool)
  | exited
deriving DecidableEq

structure System where
  running : Bool
  connected : Bool
  lastMsgMs : Int
  fullSubscriptionJson : Str
  /-- what has been sent on the current connection, while there is one -/
  link : Option (List Str)
  io : Io
  sub : Subscribe
  main : Run
  /-- the tokens of the constructor and of the completed calls of `subscribe` -/
  given : List Str

inductive Label where
  /-- `stop()` -/
  | stop
  /-- the run thread -/
  | main (now : Int)
  /-- a connection comes up and Open fires -/
  | connect
  /-- the connection goes down -/
  | drop
  /-- the callback under way -/
  | io (now : Int)
  /-- Message refreshes `last_msg_ms_` -/
  | message (now : Int)
  /-- the I/O thread is done with a connection that is down; Close fires or not -/
  | closed (fires : Bool)
  /-- a call of `subscribe` -/
  | subscribe (newTokens : List Str)
  /-- the call under way -/
  | sub

namespace System

/-- The client as constructed. -/
def new (tokens : List Str) : System where
  running := true
  connected := false
  lastMsgMs := 0
  fullSubscriptionJson := buildSubscriptionJson tokens
  link := none
  io := .stopped
  sub := .idle
  main := .enter
  given := tokens

/-- `ws.send`. -/
def send (s : System) (msg : Str) : System := { s with link := s.link.map (· ++ [msg]) }

/-- `run` takes its next step. -/
def stepRun (s : System) (now : Int) : Option System :=
  match s.main with
  | .enter => some { s with main := if s.running then .start else .exited }
  | .start =>
      match s.io with
      | .stopped => some { s with io := .offline, main := .poll }
      | _ => none
  | .poll => some { s with main := if s.running then .connected else .stop true }
  | .connected => some { s with main := if s.connected then .last else .poll }
  | .last => some { s with main := .elapsed s.lastMsgMs }
  | .elapsed last =>
      some { s with main := if 0 < last ∧ staleTimeoutMs < now - last then .clear else .poll }
  | .clear => some { s with connected := false, main := .stamp }
  | .stamp => some { s with lastMsgMs := now, main := .stop false }
  | .stop final => some { s with link := none, main := .join final }
  | .join final =>
      match s.io with
      | .offline => some { s with io := .stopped, main := if final then .exited else .start }
      | _ => none
  | .exited => none

/-- The callback takes its next step. -/
def stepIo (s : System) (now : Int) : Option System :=
  match s.io with
  | .openSend => some { s.send s.fullSubscriptionJson with io := .openStamp }
  | .openStamp => some { s with lastMsgMs := now, io := .openStore }
  | .openStore => some { s with connected := true, io := .online }
  | .closeStore => some { s with connected := false, io := .offline }
  | _ => none

/-- The call of `subscribe` takes its next step. -/
def stepSubscribe (s : System) : Option System :=
  match s.sub with
  | .idle => none
  | .update newTokens =>
      some { s with
        fullSubscriptionJson := addTokens s.fullSubscriptionJson newTokens
        sub := .load newTokens }
  | .load newTokens =>
      if s.connected then some { s with sub := .send newTokens }
      else some { s with sub := .idle, given := s.given ++ newTokens }
  | .send newTokens =>
      some { s.send (buildSubscriptionJson newTokens) with
        sub := .idle
        given := s.given ++ newTokens }

def step (s : System) : Label → Option System
  | .stop => some { s with running := false }
  | .main now => s.stepRun now
  | .connect =>
      match s.io with
      | .offline => some { s with link := some [], io := .openSend }
      | _ => none
  | .drop => some { s with link := none }
  | .io now => s.stepIo now
  | .message now =>
      match s.io with
      | .online => some { s with lastMsgMs := now }
      | _ => none
  | .closed fires =>
      match s.io, s.link with
      | .online, none => some { s with io := if fires then .closeStore else .offline }
      | _, _ => none
  | .subscribe newTokens =>
      match s.sub with
      | .idle => some { s with sub := if newTokens = [] then .idle else .update newTokens }
      | _ => none
  | .sub => s.stepSubscribe

/-- The three threads and the connection. -/
def machine : Machine System Label := ⟨step⟩

/-! ## The text -/

/-- The tokens that a step puts into the text. -/
def inserted (s : System) : Label → List Str
  | .sub =>
      match s.sub with
      | .update newTokens => newTokens
      | _ => []
  | _ => []

theorem fullSubscriptionJson_stepRun {s s' : System} {now : Int}
    (step : s.stepRun now = some s') : s'.fullSubscriptionJson = s.fullSubscriptionJson := by
  unfold stepRun at step
  cases state : s.main with
  | start =>
      rw [state] at step
      dsimp only at step
      split at step <;> cases step
      rfl
  | join final =>
      rw [state] at step
      dsimp only at step
      split at step <;> cases step
      rfl
  | exited =>
      rw [state] at step
      cases step
  | _ =>
      rw [state] at step
      cases step
      rfl

theorem fullSubscriptionJson_stepIo {s s' : System} {now : Int}
    (step : s.stepIo now = some s') : s'.fullSubscriptionJson = s.fullSubscriptionJson := by
  unfold stepIo at step
  split at step <;> cases step <;> rfl

/-- Only the step of `subscribe` under the mutex writes to the text. -/
theorem fullSubscriptionJson_stepSubscribe {s s' : System} (step : s.stepSubscribe = some s') :
    s'.fullSubscriptionJson = s.fullSubscriptionJson ∧ s.inserted .sub = [] ∨
      ∃ newTokens, s.inserted .sub = newTokens ∧
        s'.fullSubscriptionJson = addTokens s.fullSubscriptionJson newTokens := by
  unfold stepSubscribe at step
  cases state : s.sub with
  | idle =>
      rw [state] at step
      cases step
  | update newTokens =>
      rw [state] at step
      cases step
      exact .inr ⟨newTokens, by rw [inserted, state], rfl⟩
  | load newTokens =>
      rw [state] at step
      dsimp only at step
      refine .inl ⟨?_, by rw [inserted, state]⟩
      split at step <;> cases step <;> rfl
  | send newTokens =>
      rw [state] at step
      cases step
      exact .inl ⟨rfl, by rw [inserted, state]⟩

theorem fullSubscriptionJson_step {s s' : System} {l : Label} {listed : List Str}
    (full : s.fullSubscriptionJson = buildSubscriptionJson listed)
    (step : machine.step s l = some s') :
    s'.fullSubscriptionJson = buildSubscriptionJson (listed ++ s.inserted l) := by
  have kept : s'.fullSubscriptionJson = s.fullSubscriptionJson → s.inserted l = [] →
      s'.fullSubscriptionJson = buildSubscriptionJson (listed ++ s.inserted l) := by
    intro same nothingNew
    rw [same, full, nothingNew, List.append_nil]
  cases l with
  | main now => exact kept (fullSubscriptionJson_stepRun step) rfl
  | io now => exact kept (fullSubscriptionJson_stepIo step) rfl
  | sub =>
      rcases fullSubscriptionJson_stepSubscribe step with
        ⟨same, nothingNew⟩ | ⟨newTokens, eq, added⟩
      · exact kept same nothingNew
      · rw [added, full, addTokens_build, eq]
  | stop =>
      cases step
      exact kept rfl rfl
  | drop =>
      cases step
      exact kept rfl rfl
  | _ =>
      simp only [machine, System.step] at step
      split at step <;> cases step
      exact kept rfl rfl

/-- **In every run** the text is built from the tokens of the constructor and those inserted
since. -/
theorem fullSubscriptionJson_run {tokens : List Str} {labels : List Label} {s : System}
    (reached : machine.run (new tokens) labels = some s) :
    s.fullSubscriptionJson =
      buildSubscriptionJson (tokens ++ machine.trace inserted (new tokens) labels) := by
  have onwards : ∀ {t : System} {listed : List Str},
      t.fullSubscriptionJson = buildSubscriptionJson listed → machine.run t labels = some s →
        s.fullSubscriptionJson =
          buildSubscriptionJson (listed ++ machine.trace inserted t labels) := by
    clear reached
    induction labels with
    | nil =>
        intro t listed full reached
        cases reached
        rw [full, Machine.trace_nil, List.append_nil]
    | cons l labels ih =>
        intro t listed full reached
        obtain ⟨t', step, rest⟩ := Machine.run_cons_eq_some.mp reached
        rw [ih (fullSubscriptionJson_step full step) rest, Machine.trace_cons step,
          List.append_assoc]
  exact onwards rfl reached

end System

end Tickscope.Gateway
