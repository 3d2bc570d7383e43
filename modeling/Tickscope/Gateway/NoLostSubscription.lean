import Tickscope.Gateway.WebSocketClient

/-!
# Lost subscriptions

The Open callback sends the list and then stores `connected_`; `subscribe` extends the list and
then loads `connected_`. A call that extends the list after the send and loads the flag before
the store leaves its tokens to nobody: `noneLost_fails_between_send_and_store`. That is the only
way to lose one: `noneLost`.
-/

namespace Tickscope.Gateway

open Tickscope.Lib

namespace Io

/-- Open is in progress. -/
def opening : Io → Bool
  | .openSend => true
  | .openStamp => true
  | .openStore => true
  | _ => false

/-- Open has sent the list and not yet stored the flag. -/
def sentNotStored : Io → Bool
  | .openStamp => true
  | .openStore => true
  | _ => false

/-- Open has stored the flag, and no later Open has begun. -/
def stored : Io → Bool
  | .online => true
  | .closeStore => true
  | _ => false

end Io

/-- The tokens that the call under way has put on the list and not yet sent. -/
def Subscribe.pending : Subscribe → List Str
  | .load newTokens => newTokens
  | .send newTokens => newTokens
  | _ => []

namespace System

/-- When the client is connected and at rest, every token it was given has been sent on the
current connection. -/
def NoneLost (s : System) : Prop :=
  ∀ messages, s.link = some messages → s.connected = true → s.sub = .idle →
    s.io.opening = false → ∀ token ∈ s.given, Sent messages token

/-- The step is the load of `connected_` in a `subscribe`, it falls between the send and the
store of Open, and the connection has not been sent all tokens of the call. -/
def Overtaken (s : System) : Label → Prop
  | .sub =>
      s.connected = false ∧ s.io.sentNotStored = true ∧
        ∃ newTokens messages, s.sub = .load newTokens ∧ s.link = some messages ∧
          ¬ ∀ token ∈ newTokens, Sent messages token
  | _ => False

/-! ## The invariant -/

/-- What has been sent on a connection whose Open has sent the list `listed`. -/
def Covered (s : System) (listed messages : List Str) : Prop :=
  ∀ token ∈ listed, Sent messages token ∨ token ∈ s.sub.pending

structure Inv (listed : List Str) (s : System) : Prop where
  full : s.fullSubscriptionJson = buildSubscriptionJson listed
  given : s.given ⊆ listed
  pending : s.sub.pending ⊆ listed
  /-- there is no connection outside Open and the time after it -/
  link : s.io.opening = false → s.io ≠ .online → s.link = none
  /-- with the flag clear after the store, it stays clear as long as the connection lasts -/
  covered : ∀ messages, s.link = some messages → s.io.sentNotStored = true ∨ s.io.stored = true →
    s.Covered listed messages ∨ s.connected = false ∧ s.io.stored = true

theorem new_inv (tokens : List Str) : (new tokens).Inv tokens where
  full := rfl
  given := List.Subset.refl tokens
  pending := nofun
  link := fun _ _ => rfl
  covered := nofun

theorem Inv.nothingLost {listed : List Str} {s : System} (inv : s.Inv listed) : s.NoneLost := by
  intro messages up connected idle rest token mem
  have after : s.io.sentNotStored = true ∨ s.io.stored = true := by
    by_cases online : s.io = .online
    · exact .inr (by rw [online]; rfl)
    · rw [inv.link rest online] at up
      cases up
  rcases inv.covered messages up after with covered | ⟨clear, -⟩
  · refine (covered token (inv.given mem)).resolve_right fun pending => ?_
    rw [idle] at pending
    cases pending
  · rw [connected] at clear
    cases clear

/-- A step that leaves the list, the connection and the call alone. -/
theorem Inv.frame {listed : List Str} {s s' : System} (inv : s.Inv listed)
    (full : s'.fullSubscriptionJson = s.fullSubscriptionJson) (given : s'.given = s.given)
    (sub : s'.sub = s.sub) (link : s'.link = s.link)
    (offline : s'.io.opening = false → s'.io ≠ .online → s.link = none)
    (covered : ∀ messages, s.link = some messages →
      s'.io.sentNotStored = true ∨ s'.io.stored = true →
        s.Covered listed messages ∨ s'.connected = false ∧ s'.io.stored = true) :
    s'.Inv listed where
  full := full ▸ inv.full
  given := given ▸ inv.given
  pending := sub ▸ inv.pending
  link := link ▸ offline
  covered := by
    unfold Covered
    rw [link, sub]
    exact covered

/-- A step after which the connection is down. -/
theorem Inv.down {listed : List Str} {s s' : System} (inv : s.Inv listed)
    (full : s'.fullSubscriptionJson = s.fullSubscriptionJson) (given : s'.given = s.given)
    (sub : s'.sub = s.sub) (link : s'.link = none) : s'.Inv listed where
  full := full ▸ inv.full
  given := given ▸ inv.given
  pending := sub ▸ inv.pending
  link := fun _ _ => link
  covered := fun messages up => by rw [link] at up; cases up

/-! ## Steps of the run thread -/

theorem Inv.stepRun {listed : List Str} {s s' : System} (inv : s.Inv listed) {now : Int}
    (step : s.stepRun now = some s') : s'.Inv listed := by
  unfold System.stepRun at step
  cases state : s.main with
  | start =>
      rw [state] at step
      dsimp only at step
      split at step
      · rename_i io
        cases step
        have down := inv.link (by rw [io]; rfl) (by rw [io]; exact nofun)
        exact inv.down rfl rfl rfl down
      · cases step
  | clear =>
      rw [state] at step
      cases step
      exact inv.frame rfl rfl rfl rfl inv.link fun messages up after =>
        (inv.covered messages up after).imp_right fun ⟨_, stored⟩ => ⟨rfl, stored⟩
  | stop final =>
      rw [state] at step
      cases step
      exact inv.down rfl rfl rfl rfl
  | join final =>
      rw [state] at step
      dsimp only at step
      split at step
      · rename_i io
        cases step
        have down := inv.link (by rw [io]; rfl) (by rw [io]; exact nofun)
        exact inv.down rfl rfl rfl down
      · cases step
  | exited =>
      rw [state] at step
      cases step
  | _ =>
      -- the run thread only looks, or refreshes the time
      rw [state] at step
      cases step
      exact inv.frame rfl rfl rfl rfl inv.link inv.covered

/-! ## Steps of the callbacks -/

theorem Inv.stepIo {listed : List Str} {s s' : System} (inv : s.Inv listed) {now : Int}
    (step : s.stepIo now = some s') : s'.Inv listed := by
  unfold System.stepIo at step
  cases state : s.io with
  | openSend =>
      rw [state] at step
      cases step
      refine ⟨inv.full, inv.given, inv.pending, nofun, fun messages up _ => .inl ?_⟩
      obtain ⟨before, -, rfl⟩ := Option.map_eq_some_iff.mp up
      -- the list itself is what has just been sent
      intro token mem
      rw [inv.full]
      exact .inl (sent_build mem before)
  | openStamp =>
      rw [state] at step
      cases step
      refine inv.frame rfl rfl rfl rfl nofun fun messages up _ => ?_
      refine (inv.covered messages up (.inl (by rw [state]; rfl))).imp_right fun ⟨_, stored⟩ => ?_
      rw [state] at stored
      cases stored
  | openStore =>
      rw [state] at step
      cases step
      refine inv.frame rfl rfl rfl rfl (fun _ offline => (offline rfl).elim)
        fun messages up _ => ?_
      refine (inv.covered messages up (.inl (by rw [state]; rfl))).imp_right fun ⟨_, stored⟩ => ?_
      rw [state] at stored
      cases stored
  | closeStore =>
      have down := inv.link (by rw [state]; rfl) (by rw [state]; exact nofun)
      rw [state] at step
      cases step
      exact inv.down rfl rfl rfl down
  | stopped =>
      rw [state] at step
      cases step
  | offline =>
      rw [state] at step
      cases step
  | online =>
      rw [state] at step
      cases step

/-! ## Steps of `subscribe` -/

/-- The call is over, and its tokens have been sent or come with the next connection. -/
theorem Inv.completed {listed newTokens : List Str} {s : System} (inv : s.Inv listed)
    (pending : s.sub.pending = newTokens) (link : Option (List Str))
    (up : ∀ messages, link = some messages → ∃ before more, s.link = some before ∧
      messages = before ++ more)
    (covered : ∀ messages, link = some messages →
      s.io.sentNotStored = true ∨ s.io.stored = true →
        (∀ token ∈ newTokens, Sent messages token) ∨ s.connected = false ∧ s.io.stored = true) :
    ({ s with link := link, sub := .idle, given := s.given ++ newTokens } : System).Inv
      listed where
  full := inv.full
  given := List.append_subset.mpr ⟨inv.given, pending ▸ inv.pending⟩
  pending := nofun
  link := fun rest offline => by
    have down := inv.link rest offline
    cases link with
    | none => rfl
    | some messages =>
        rcases up messages rfl with ⟨before, -, isUp, -⟩
        rw [down] at isUp
        cases isUp
  covered := fun messages isUp after => by
    obtain ⟨before, more, wasUp, rfl⟩ := up messages isUp
    rcases inv.covered before wasUp after with earlier | clear
    · refine (covered _ isUp after).imp_left fun sent token mem => .inl ?_
      rcases earlier token mem with sent' | waiting
      · exact sent'.append more
      · exact sent token (pending ▸ waiting)
    · exact .inr clear

theorem Inv.stepSubscribe {listed : List Str} {s s' : System} (inv : s.Inv listed)
    (inTime : ¬ s.Overtaken .sub) (step : s.stepSubscribe = some s') :
    ∃ listed', s'.Inv listed' := by
  unfold System.stepSubscribe at step
  cases state : s.sub with
  | idle =>
      rw [state] at step
      cases step
  | update newTokens =>
      rw [state] at step
      cases step
      refine ⟨listed ++ newTokens, ?_, List.Subset.trans inv.given (List.subset_append_left ..),
        List.subset_append_right .., inv.link, fun messages up after => ?_⟩
      · show addTokens s.fullSubscriptionJson newTokens = _
        rw [inv.full, addTokens_build]
      · refine (inv.covered messages up after).imp_left fun covered token mem => ?_
        rcases List.mem_append.mp mem with mem | mem
        · refine .inl ((covered token mem).resolve_right fun waiting => ?_)
          rw [state] at waiting
          cases waiting
        · exact .inr mem
  | load newTokens =>
      rw [state] at step
      dsimp only at step
      split at step
      · cases step
        have pending : s.sub.pending = newTokens := by rw [state]; rfl
        refine ⟨listed, inv.full, inv.given, pending ▸ inv.pending, inv.link,
          fun messages up after => ?_⟩
        refine (inv.covered messages up after).imp_left fun covered token mem => ?_
        exact (covered token mem).imp_right fun waiting => pending ▸ waiting
      · rename_i clear
        cases step
        refine ⟨listed, inv.completed (by rw [state]; rfl) s.link
          (fun messages up => ⟨messages, [], up, (List.append_nil messages).symm⟩)
          fun messages up after => ?_⟩
        rcases after with between | stored
        · refine .inl (by_contra fun unsent => inTime ?_)
          exact ⟨Bool.eq_false_iff.mpr clear, between, newTokens, messages, state, up, unsent⟩
        · exact .inr ⟨Bool.eq_false_iff.mpr clear, stored⟩
  | send newTokens =>
      rw [state] at step
      cases step
      refine ⟨listed, inv.completed (by rw [state]; rfl) _ (fun messages up => ?_)
        fun messages up _ => .inl fun token mem => ?_⟩
      · obtain ⟨before, wasUp, rfl⟩ := Option.map_eq_some_iff.mp up
        exact ⟨before, _, wasUp, rfl⟩
      · obtain ⟨before, -, rfl⟩ := Option.map_eq_some_iff.mp up
        exact sent_build mem before

/-! ## Every run -/

theorem keeps_inv :
    machine.Keeps (fun s l => ¬ s.Overtaken l) fun s => ∃ listed, s.Inv listed := by
  rintro s l s' ⟨listed, inv⟩ inTime step
  cases l with
  | stop =>
      cases step
      exact ⟨listed, inv.frame rfl rfl rfl rfl inv.link inv.covered⟩
  | main now => exact ⟨listed, inv.stepRun step⟩
  | connect =>
      simp only [machine, System.step] at step
      split at step <;> cases step
      refine ⟨listed, inv.full, inv.given, inv.pending, fun opening => ?_, fun _ _ after => ?_⟩
      · cases opening
      · rcases after with after | after <;> cases after
  | drop =>
      cases step
      exact ⟨listed, inv.down rfl rfl rfl rfl⟩
  | io now => exact ⟨listed, inv.stepIo step⟩
  | message now =>
      simp only [machine, System.step] at step
      split at step <;> cases step
      exact ⟨listed, inv.frame rfl rfl rfl rfl inv.link inv.covered⟩
  | closed fires =>
      simp only [machine, System.step] at step
      split at step <;> cases step
      rename_i down
      exact ⟨listed, inv.down rfl rfl rfl down⟩
  | subscribe newTokens =>
      simp only [machine, System.step] at step
      split at step <;> cases step
      rename_i idle
      have nothingNew :
          (if newTokens = [] then Subscribe.idle else .update newTokens).pending = [] := by
        split <;> rfl
      refine ⟨listed, inv.full, inv.given, ?_, inv.link, fun messages up after => ?_⟩
      · show (if newTokens = [] then Subscribe.idle else .update newTokens).pending ⊆ listed
        rw [nothingNew]
        exact List.nil_subset listed
      · refine (inv.covered messages up after).imp_left fun covered token mem => ?_
        refine .inl ((covered token mem).resolve_right fun waiting => ?_)
        rw [idle] at waiting
        cases waiting
  | sub => exact inv.stepSubscribe inTime step

/-- **No lost subscription**, in every run in which no `subscribe` is overtaken: it never loads a
clear `connected_` between the send and the store of Open with tokens that were not sent. -/
theorem noneLost (tokens : List Str) (labels : List Label) (s : System)
    (inTime : machine.Along (fun s l => ¬ s.Overtaken l) (new tokens) labels)
    (reached : machine.run (new tokens) labels = some s) : s.NoneLost := by
  rcases keeps_inv.run ⟨tokens, new_inv tokens⟩ inTime reached with ⟨listed, inv⟩
  exact inv.nothingLost

/-! ## Two runs -/

/-- The client connects, is given a second token when it is connected, and reconnects. -/
def subscribedRun : List Label :=
  [.main 0, .main 0, .connect, .io 0, .io 0, .io 0, .subscribe [ascii "2"], .sub, .sub, .sub,
    .drop, .closed true, .io 0, .connect, .io 0, .io 0, .io 0]

theorem noneLost_subscribed :
    ∃ s, machine.run (new [ascii "1"]) subscribedRun = some s ∧
      (s.given = [ascii "1", ascii "2"] ∧ s.connected = true) ∧ s.NoneLost := by
  have ends : (machine.run (new [ascii "1"]) subscribedRun).map
      (fun s => (s.given, s.connected)) = some ([ascii "1", ascii "2"], true) := rfl
  rcases Option.map_eq_some_iff.mp ends with ⟨s, reached, eq⟩
  -- no step of a call falls between the send and the store
  have apart : machine.Along (fun s _ => s.sub = .idle ∨ s.io.sentNotStored = false)
      (new [ascii "1"]) subscribedRun := by decide
  refine ⟨s, reached, Prod.mk.inj eq, noneLost _ _ s (apart.mono fun t l apart raced => ?_) reached⟩
  cases l with
  | sub =>
      rcases raced with ⟨-, between, newTokens, messages, state, -⟩
      rcases apart with idle | not_between
      · exact nomatch idle.symm.trans state
      · exact nomatch not_between.symm.trans between
  | _ => exact raced

/-- The second token is put on the list after Open has sent it, and the flag is loaded before
Open has stored it. -/
def overtakenRun : List Label :=
  [.main 0, .main 0, .connect, .io 0, .subscribe [ascii "2"], .sub, .sub, .io 0, .io 0]

/-- The token is in no message, in a state where the client is connected and at rest. -/
theorem noneLost_fails_between_send_and_store :
    ∃ s, machine.run (new [ascii "1"]) overtakenRun = some s ∧ ¬ s.NoneLost := by
  have ends : (machine.run (new [ascii "1"]) overtakenRun).map
      (fun s => (s.link, s.connected, s.sub, s.io.opening, s.given)) =
        some (some [buildSubscriptionJson [ascii "1"]], true, .idle, false,
          [ascii "1", ascii "2"]) := rfl
  rcases Option.map_eq_some_iff.mp ends with ⟨s, reached, eq⟩
  simp only [Prod.mk.injEq] at eq
  rcases eq with ⟨link, connected, sub, rest, given⟩
  refine ⟨s, reached, fun named => ?_⟩
  obtain ⟨msg, mem, names⟩ := named _ link connected sub rest (ascii "2")
    (by rw [given]; decide)
  rw [List.mem_singleton.mp mem] at names
  have digit : (50 : UInt8) ∈ buildSubscriptionJson [ascii "1"] :=
    names.isInfix.subset (by decide)
  exact absurd digit (by decide +kernel)

end System

end Tickscope.Gateway
