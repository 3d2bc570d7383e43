import Tickscope.Gateway.Subscription
import Tickscope.Lib.Machine

/-!
# The bot's subscriptions

`src/bot/main.cpp`: the main loop appends the tokens of a tail poll to `subscribed_tokens` and then
sends them; the Open callback copies `subscribed_tokens` and then sends the copy. Both are sent
whether there is a connection or not, and what is sent without one is lost.

A section under `tokens_mutex` is one step, and so is each `ws.send`. The connection is the
environment's, as in `Tickscope.Gateway.WebSocketClient`. The results are `Wire.Inv`, which
every step keeps, and `Wire.always_subscribed`.
-/

namespace Tickscope.Bot

open Tickscope.Lib
open Tickscope.Gateway (Sent sent_build quoteAll buildSubscriptionJson)

def buildSubJson (tokens : List Str) : Str :=
  ascii "\x7b\"assets_ids\":[" ++ quoteAll true tokens ++ ascii "],\"type\":\"market\"\x7d"

/-- It is the copy of the gateway's function that it looks like. -/
theorem buildSubJson_eq (tokens : List Str) : buildSubJson tokens = buildSubscriptionJson tokens :=
  rfl

namespace Wire

/-- The next step of the I/O thread. -/
inductive Io where
  /-- before `ws.start()` and after `ws.stop()` -/
  | stopped
  /-- between two connections -/
  | offline
  /-- Open: build the message from `subscribed_tokens` under the mutex -/
  | openCopy
  /-- Open: send it -/
  | openSend (subJson : Str)
  /-- between two callbacks -/
  | online
deriving DecidableEq

/-- The next step of `main`. -/
inductive Main where
  /-- `discovery.scan_all()`, and `subscribed_tokens` set to its tokens under the mutex -/
  | scan
  /-- `ws.start()` -/
  | start
  /-- the test of `g_running`, before the sleep and after it -/
  | running
  /-- `discovery.tail_poll()` -/
  | poll
  /-- append to `subscribed_tokens` under the mutex -/
  | append (newTokens : List Str)
  /-- send the new tokens -/
  | send (newTokens : List Str)
  /-- `ws.stop()` closes the connection -/
  | stop
  /-- `ws.stop()` joins the I/O thread -/
  | join
  | done
deriving DecidableEq

end Wire

/-- The socket and the two threads that send on it. -/
structure Wire where
  running : Bool
  subscribedTokens : List Str
  /-- what has been sent on the current connection, while there is one -/
  link : Option (List Str)
  io : Wire.Io
  main : Wire.Main

namespace Wire

inductive Label where
  /-- a signal clears `g_running` -/
  | signal
  /-- `main`; a scan or a poll returns the tokens -/
  | main (tokens : List Str)
  /-- a connection comes up and Open fires -/
  | connect
  /-- the connection goes down -/
  | drop
  /-- the Open callback -/
  | io
  /-- another callback: Close and Error log, Message goes to the feed handler -/
  | callback
  /-- the I/O thread is done with a connection that is down -/
  | closed
deriving DecidableEq

def new : Wire where
  running := true
  subscribedTokens := []
  link := none
  io := .stopped
  main := .scan

/-- `ws.send`. -/
def send (s : Wire) (msg : Str) : Wire := { s with link := s.link.map (· ++ [msg]) }

/-- `main` takes its next step. -/
def stepMain (s : Wire) (tokens : List Str) : Option Wire :=
  match s.main with
  | .scan => some { s with subscribedTokens := tokens, main := .start }
  | .start =>
      match s.io with
      | .stopped => some { s with io := .offline, main := .running }
      | _ => none
  | .running => some { s with main := if s.running then .poll else .stop }
  -- the sweep and the status line that follow the poll do not touch the socket
  | .poll => some { s with main := if tokens = [] then .running else .append tokens }
  | .append newTokens =>
      some { s with
        subscribedTokens := s.subscribedTokens ++ newTokens
        main := .send newTokens }
  | .send newTokens => some { s.send (buildSubJson newTokens) with main := .running }
  | .stop => some { s with link := none, main := .join }
  | .join =>
      match s.io with
      | .offline => some { s with io := .stopped, main := .done }
      | _ => none
  | .done => none

/-- The Open callback takes its next step. -/
def stepIo (s : Wire) : Option Wire :=
  match s.io with
  | .openCopy =>
      some { s with io := if s.subscribedTokens = [] then .online
        else .openSend (buildSubJson s.subscribedTokens) }
  | .openSend subJson => some { s.send subJson with io := .online }
  | _ => none

def step (s : Wire) : Label → Option Wire
  | .signal => some { s with running := false }
  | .main tokens => s.stepMain tokens
  | .connect =>
      match s.io with
      | .offline => some { s with link := some [], io := .openCopy }
      | _ => none
  | .drop => some { s with link := none }
  | .io => s.stepIo
  | .callback =>
      match s.io with
      | .online => some s
      | _ => none
  | .closed =>
      match s.io, s.link with
      | .online, none => some { s with io := .offline }
      | _, _ => none

/-- The two threads and the connection. -/
def machine : Machine Wire Label := ⟨step⟩

/-- While there is a connection whose Open is over, and `main` is not between an append and the
send after it, every token has been sent on that connection. -/
def Complete (s : Wire) : Prop :=
  ∀ messages, s.link = some messages → s.io = .online → (∀ newTokens, s.main ≠ .send newTokens) →
    ∀ token ∈ s.subscribedTokens, Sent messages token

/-! ## The invariant -/

/-- The tokens that `main` has appended and not yet sent. -/
def Main.unsent : Main → List Str
  | .send newTokens => newTokens
  | _ => []

/-- What is still to be sent on the connection: the copy that Open holds, and the tokens
of `main`. -/
def Awaits (s : Wire) (token : Str) : Prop :=
  token ∈ s.main.unsent ∨
    ∃ copied, s.io = .openSend (buildSubJson copied) ∧ token ∈ copied

structure Inv (s : Wire) : Prop where
  /-- there is no connection before Open -/
  down : s.io = .stopped ∨ s.io = .offline → s.link = none
  /-- the I/O thread starts after the scan -/
  scan : s.main = .scan ∨ s.main = .start → s.io = .stopped
  covered : ∀ messages, s.link = some messages → s.io ≠ .openCopy →
    ∀ token ∈ s.subscribedTokens, Sent messages token ∨ s.Awaits token

theorem new_inv : new.Inv where
  down := fun _ => rfl
  scan := fun _ => rfl
  covered := nofun

theorem Inv.allSent {s : Wire} (inv : s.Inv) : s.Complete := by
  intro messages up online between token mem
  have later : s.io ≠ .openCopy := by rw [online]; exact nofun
  rcases inv.covered messages up later token mem with sent | unsent | ⟨copied, io, -⟩
  · exact sent
  · cases state : s.main with
    | send newTokens => exact (between newTokens state).elim
    | _ =>
        rw [state] at unsent
        cases unsent
  · rw [online] at io
    cases io

/-- After a step that leaves no connection, nothing has to have been sent. -/
theorem Inv.of_down {s : Wire} (link : s.link = none)
    (scan : s.main = .scan ∨ s.main = .start → s.io = .stopped) : s.Inv where
  down := fun _ => link
  scan := scan
  covered := fun messages up => by rw [link] at up; cases up

/-- A step that leaves the connection, the tokens and what is to be sent alone. -/
theorem Inv.frame {s s' : Wire} (inv : s.Inv) (tokens : s'.subscribedTokens = s.subscribedTokens)
    (link : s'.link = s.link) (io : s'.io = s.io) (unsent : s'.main.unsent = s.main.unsent)
    (scan : s'.main = .scan ∨ s'.main = .start → s.main = .scan ∨ s.main = .start) : s'.Inv where
  down := by rw [io, link]; exact inv.down
  scan := fun early => io ▸ inv.scan (scan early)
  covered := by
    unfold Awaits
    rw [tokens, link, io, unsent]
    exact inv.covered

/-! ## Steps of `main` -/

theorem Inv.stepMain {s s' : Wire} (inv : s.Inv) {tokens : List Str}
    (step : s.stepMain tokens = some s') : s'.Inv := by
  unfold Wire.stepMain at step
  cases state : s.main with
  | scan =>
      rw [state] at step
      cases step
      have stopped := inv.scan (.inl state)
      exact .of_down (inv.down (.inl stopped)) fun _ => stopped
  | start =>
      rw [state] at step
      dsimp only at step
      split at step
      · rename_i stopped
        cases step
        exact .of_down (inv.down (.inl stopped)) nofun
      · cases step
  | running =>
      rw [state] at step
      cases step
      cases running : s.running
      · exact inv.frame rfl rfl rfl (by rw [state]; rfl) nofun
      · exact inv.frame rfl rfl rfl (by rw [state]; rfl) nofun
  | poll =>
      rw [state] at step
      cases step
      by_cases noTokens : tokens = []
      · rw [if_pos noTokens]
        exact inv.frame rfl rfl rfl (by rw [state]; rfl) nofun
      · rw [if_neg noTokens]
        exact inv.frame rfl rfl rfl (by rw [state]; rfl) nofun
  | append newTokens =>
      rw [state] at step
      cases step
      refine ⟨inv.down, nofun, fun messages up later token mem => ?_⟩
      rcases List.mem_append.mp mem with mem | mem
      · refine (inv.covered messages up later token mem).imp_right fun awaits => ?_
        rcases awaits with unsent | copied
        · rw [state] at unsent
          cases unsent
        · exact .inr copied
      · exact .inr (.inl mem)
  | send newTokens =>
      rw [state] at step
      cases step
      refine ⟨fun early => ?_, nofun, fun messages up later token mem => ?_⟩
      · show s.link.map _ = none
        rw [inv.down early]
        rfl
      · obtain ⟨before, wasUp, rfl⟩ := Option.map_eq_some_iff.mp up
        rcases inv.covered before wasUp later token mem with sent | unsent | copied
        · exact .inl (sent.append _)
        · rw [state] at unsent
          exact .inl (sent_build unsent before)
        · exact .inr (.inr copied)
  | stop =>
      rw [state] at step
      cases step
      exact .of_down rfl nofun
  | join =>
      rw [state] at step
      dsimp only at step
      split at step
      · rename_i offline
        cases step
        exact .of_down (inv.down (.inr offline)) nofun
      · cases step
  | done =>
      rw [state] at step
      cases step

/-! ## Steps of the Open callback -/

theorem Inv.stepIo {s s' : Wire} (inv : s.Inv) (step : s.stepIo = some s') : s'.Inv := by
  unfold Wire.stepIo at step
  cases state : s.io with
  | openCopy =>
      rw [state] at step
      cases step
      have begun : ¬ (s.main = .scan ∨ s.main = .start) := fun early => by
        have stopped := inv.scan early
        rw [state] at stopped
        cases stopped
      by_cases noTokens : s.subscribedTokens = []
      · rw [if_pos noTokens]
        refine ⟨nofun, fun early => (begun early).elim, fun messages up later token mem => ?_⟩
        have mem : token ∈ s.subscribedTokens := mem
        rw [noTokens] at mem
        cases mem
      · rw [if_neg noTokens]
        -- the copy holds every token there is
        exact ⟨nofun, fun early => (begun early).elim, fun messages up later token mem =>
          .inr (.inr ⟨s.subscribedTokens, rfl, mem⟩)⟩
  | openSend subJson =>
      rw [state] at step
      cases step
      refine ⟨nofun, fun early => ?_, fun messages up later token mem => ?_⟩
      · have stopped := inv.scan early
        rw [state] at stopped
        cases stopped
      · obtain ⟨before, wasUp, rfl⟩ := Option.map_eq_some_iff.mp up
        have later : s.io ≠ .openCopy := by rw [state]; exact nofun
        rcases inv.covered before wasUp later token mem with sent | unsent | ⟨copied, io, held⟩
        · exact .inl (sent.append _)
        · exact .inr (.inl unsent)
        · rw [state] at io
          cases io
          exact .inl (sent_build held before)
  | _ =>
      rw [state] at step
      cases step

/-! ## Every run -/

theorem keeps_inv : machine.Keeps (fun _ _ => True) Inv := by
  intro s l s' inv _ step
  cases l with
  | signal =>
      cases step
      exact inv.frame rfl rfl rfl rfl id
  | main tokens => exact inv.stepMain step
  | connect =>
      simp only [machine, Wire.step] at step
      split at step <;> cases step
      rename_i offline
      refine ⟨nofun, fun early => ?_, fun _ _ later => (later rfl).elim⟩
      have stopped := inv.scan early
      rw [offline] at stopped
      cases stopped
  | drop =>
      cases step
      exact .of_down rfl inv.scan
  | io => exact inv.stepIo step
  | callback =>
      simp only [machine, Wire.step] at step
      split at step <;> cases step
      exact inv
  | closed =>
      simp only [machine, Wire.step] at step
      split at step <;> cases step
      rename_i online link
      refine .of_down link fun early => ?_
      have stopped := inv.scan early
      rw [online] at stopped
      cases stopped

/-- **Every run is complete**, wherever the connection drops and comes back. -/
theorem always_subscribed (labels : List Label) (s : Wire) (reached : machine.run new labels = some s) :
    s.Complete := by
  have everywhere : machine.Along (fun _ _ => True) new labels :=
    Machine.along_of_forall_mem (fun _ _ _ => True.intro) _
  exact (keeps_inv.run new_inv everywhere reached).allSent

/-- Open copies one token, a poll appends another and sends it before Open has sent its copy; the
connection drops and comes back. -/
def polledRun : List Label :=
  [.main [ascii "1"], .main [], .connect, .io, .main [], .main [ascii "2"], .main [], .main [],
    .io, .drop, .closed, .connect, .io, .io]

theorem always_subscribed_polled :
    ∃ s, machine.run new polledRun = some s ∧
      (s.subscribedTokens = [ascii "1", ascii "2"] ∧
        s.link = some [buildSubJson [ascii "1", ascii "2"]] ∧ s.io = .online) ∧ s.Complete := by
  have ends : (machine.run new polledRun).map (fun s => (s.subscribedTokens, s.link, s.io)) =
      some ([ascii "1", ascii "2"], some [buildSubJson [ascii "1", ascii "2"]], .online) := rfl
  rcases Option.map_eq_some_iff.mp ends with ⟨s, reached, eq⟩
  simp only [Prod.mk.injEq] at eq
  exact ⟨s, reached, eq, always_subscribed _ s reached⟩

end Wire

end Tickscope.Bot
