import Tickscope.Tickerplant.Ticks

/-!
# End to end

`run()` leaves its hot loop after `stop()` and the drain when `consume` finds
nothing. A drain that starts after the last accepted tick has therefore returned
every tick (`Drained`), and the last `fflush` leaves none in a buffer
(`Flushed`). `tickerplant_end_to_end` puts them together with `Inv` and
`Journaled`.
-/

namespace Tickscope.Tickerplant

open Tickscope.Lib Tickscope.Core Tickscope.Rdb

/-! ## Where `run()` is -/

namespace Pc

variable {D : Type}

/-- `run()` has left the hot loop. -/
def isDraining : Pc D → Bool
  | .consume .drain => true
  | .consuming .drain => true
  | .write .drain _ => true
  | .apply .drain _ => true
  | .count .drain _ => true
  | .finalFlush => true
  | .exited => true
  | _ => false

/-- `run()` has left both loops. -/
def isOver : Pc D → Bool
  | .finalFlush => true
  | .exited => true
  | _ => false

end Pc

namespace System

variable {D : Type}

/-- Where one step takes `run()`. -/
inductive Turn (s s' : System D) : Prop where
  /-- It stays in its loop, outside `consume`. -/
  | stay (draining : s'.pc.isDraining = s.pc.isDraining) (going : s'.pc.isOver = false)
      (outside : s'.pc.isConsuming = false)
  /-- It finds `running_` cleared. -/
  | leave (off : s.running = false) (after : s'.pc = .consume .drain)
  | call (loop : Loop) (pc : s.pc = .consume loop) (check : s'.ring.consumer = .check)
      (after : s'.pc = .consuming loop)
  | inside (loop : Loop) (pc : s.pc = .consuming loop)
      (move : s.ring.stepConsumer = some s'.ring) (after : s'.pc = .consuming loop)
  | back (loop : Loop) (out : Option (Tick D)) (pc : s.pc = .consuming loop)
      (done : s.ring.consumer = .done out)
      (returned : s'.ring.returned = s.ring.returned ++ out.toList)
      (after : s'.pc = loop.consumed out)
  | exit (pc : s.pc = .finalFlush)
      (after : s' = { s with journals := s.journals.fflush, pc := .exited })

theorem turn_of_stepRun {cfg : Config} {s s' : System D} {now : Int} {opened : Bool}
    (step : s.stepRun cfg now opened = some s') : Turn s s' := by
  unfold stepRun at step
  cases state : s.pc with
  | created | exited =>
      rw [state] at step
      cases step
  | enter | clearForce | forceRotate =>
      rw [state] at step
      cases step
      exact .stay (by rw [state]; rfl) rfl rfl
  | checkRunning =>
      rw [state] at step
      cases step
      cases running : s.running with
      | false => exact .leave running rfl
      | true => exact .stay (by rw [state]; rfl) rfl rfl
  | checkForce =>
      rw [state] at step
      cases step
      cases forced : s.forceRotate <;> exact .stay (by rw [state]; rfl) rfl rfl
  | consume loop =>
      rw [state] at step
      obtain ⟨ring, move, rfl⟩ := of_ringStep step
      obtain ⟨-, rfl⟩ := Memory.System.of_step_consume move
      exact .call loop state rfl rfl
  | consuming loop =>
      rw [state] at step
      dsimp only at step
      split at step
      · rename_i out done
        obtain ⟨ring, move, rfl⟩ := of_ringStep step
        have move : s.ring.stepConsumer = some ring := move
        rw [Memory.System.stepConsumer, done] at move
        cases move
        exact .back loop out state done rfl rfl
      · obtain ⟨ring, move, rfl⟩ := of_ringStep step
        exact .inside loop state move rfl
  | write loop tick | apply loop tick =>
      rw [state] at step
      cases step
      exact .stay (by rw [state]; cases loop <;> rfl) rfl rfl
  | count loop tick =>
      rw [state] at step
      cases step
      cases loop <;> exact .stay (by rw [state]; rfl) rfl rfl
  | maintain =>
      rw [state] at step
      cases step
      split <;> exact .stay (by rw [state]; rfl) rfl rfl
  | clock =>
      rw [state] at step
      dsimp only at step
      split at step <;> cases step <;> exact .stay (by rw [state]; rfl) rfl rfl
  | finalFlush =>
      rw [state] at step
      exact .exit state (Option.some.inj step).symm

/-- `run()` leaves the drain when `consume` has found nothing, and then flushes. -/
theorem over_of_stepRun {cfg : Config} {s s' : System D} {now : Int} {opened : Bool}
    (step : s.stepRun cfg now opened = some s') (ended : s'.pc.isOver = true) :
    (s.pc = .consuming .drain ∧ s.ring.consumer = .done none ∧ s'.pc = .finalFlush ∧
      s'.ring.returned = s.ring.returned) ∨
    (s.pc = .finalFlush ∧ s' = { s with journals := s.journals.fflush, pc := .exited }) := by
  cases turn_of_stepRun step with
  | stay draining going outside =>
      rw [going] at ended
      cases ended
  | leave off after | call loop pc check after | inside loop pc move after =>
      rw [after] at ended
      cases ended
  | back loop out pc done returned after =>
      rw [after] at ended
      cases out with
      | some tick => cases ended
      | none =>
          cases loop with
          | hot => cases ended
          | drain => exact .inl ⟨pc, done, after, returned.trans (List.append_nil _)⟩
  | exit pc after => exact .inr ⟨pc, after⟩

/-- `run()` is inside `consume` when it has called it or stays inside. -/
theorem consuming_of_stepRun {cfg : Config} {s s' : System D} {now : Int} {opened : Bool}
    {loop : Loop} (step : s.stepRun cfg now opened = some s') (inside : s'.pc = .consuming loop) :
    s'.ring.consumer = .check ∨ s.pc = .consuming loop ∧ s.ring.stepConsumer = some s'.ring := by
  cases turn_of_stepRun step with
  | stay draining going outside =>
      rw [inside] at outside
      cases outside
  | leave off after => cases after.symm.trans inside
  | call loop' pc check after => exact .inl check
  | inside loop' pc move after =>
      cases after.symm.trans inside
      exact .inr ⟨pc, move⟩
  | back loop' out pc done returned after =>
      rw [after] at inside
      cases out <;> cases loop' <;> cases inside
  | exit pc after =>
      rw [after] at inside
      cases inside

/-- `run()` leaves the hot loop when it has seen `running_` cleared. -/
theorem draining_of_stepRun {cfg : Config} {s s' : System D} {now : Int} {opened : Bool}
    (step : s.stepRun cfg now opened = some s') (draining : s'.pc.isDraining = true) :
    s.pc.isDraining = true ∨ s.running = false := by
  cases turn_of_stepRun step with
  | stay same going outside => exact .inl (same.symm.trans draining)
  | leave off after => exact .inr off
  | call loop pc check after =>
      rw [after] at draining
      rw [pc]
      cases loop with
      | hot => cases draining
      | drain => exact .inl rfl
  | inside loop pc move after =>
      rw [after] at draining
      rw [pc]
      exact .inl draining
  | back loop out pc done returned after =>
      rw [after] at draining
      rw [pc]
      cases loop with
      | hot => cases out <;> cases draining
      | drain => exact .inl rfl
  | exit pc after =>
      rw [pc]
      exact .inl rfl

/-- Nothing is left in a buffer when `run()` has returned. -/
def Flushed (s : System D) : Prop :=
  s.pc = .exited → ∀ journal, s.journals.journalFp = some journal → journal.buffered = []

theorem Flushed.disk_eq {s : System D} (flushed : s.Flushed) (exited : s.pc = .exited) :
    s.journals.disk.map Prod.snd = s.journals.fwritten := by
  cases fp : s.journals.journalFp with
  | none => rw [Journals.fwritten_of_closed fp]
  | some journal =>
      rw [Journals.fwritten, fp, Option.map_some, Option.getD_some,
        flushed exited journal fp, List.append_nil]

theorem keeps_flushed (cfg : Config) : (machine D cfg).Keeps (fun _ _ => True) Flushed := by
  intro s l s' flushed _ step exited
  cases l with
  | start =>
      simp only [machine, System.step] at step
      split at step <;> cases step
      cases exited
  | stop | forceRotate =>
      cases step
      exact flushed exited
  | spill n =>
      cases step
      intro journal fp
      have empty := flushed exited
      simp only [Journals.spill] at fp
      split at fp
      · rename_i closed
        rw [closed] at fp
        cases fp
      · rename_i before open'
        cases fp
        rw [empty before open', List.drop_nil]
  | produce item =>
      obtain ⟨ring, -, rfl⟩ := of_ringStep step
      exact flushed exited
  | tryProduce item =>
      obtain ⟨ring, -, rfl⟩ := of_ringStep step
      exact flushed exited
  | producer =>
      obtain ⟨ring, -, rfl⟩ := of_ringStep step
      exact flushed exited
  | run now opened =>
      rcases over_of_stepRun step (by rw [exited]; rfl) with ⟨-, -, pc, -⟩ | ⟨-, rfl⟩
      · rw [pc] at exited
        cases exited
      · intro journal fp
        simp only [Journals.fflush] at fp
        split at fp
        · rename_i closed
          rw [closed] at fp
          cases fp
        · cases fp
          rfl

/-! ## The drain -/

/-- Before `stop()`, `run()` has not left the hot loop. -/
def Working (s : System D) : Prop :=
  s.pc.isDraining = false ∧ (s.pc = .created ∨ s.running = true)

theorem running_of_stepRun {cfg : Config} {s s' : System D} {now : Int} {opened : Bool}
    (step : s.stepRun cfg now opened = some s') : s'.running = s.running ∧ s.pc ≠ .created := by
  unfold stepRun at step
  cases state : s.pc with
  | created | exited =>
      rw [state] at step
      cases step
  | consume loop =>
      rw [state] at step
      obtain ⟨ring, -, rfl⟩ := of_ringStep step
      exact ⟨rfl, nofun⟩
  | consuming loop =>
      rw [state] at step
      dsimp only at step
      split at step <;> obtain ⟨ring, -, rfl⟩ := of_ringStep step <;> exact ⟨rfl, nofun⟩
  | clock =>
      rw [state] at step
      dsimp only at step
      split at step <;> cases step <;> exact ⟨rfl, nofun⟩
  | _ =>
      rw [state] at step
      cases step
      exact ⟨rfl, nofun⟩

theorem keeps_working (cfg : Config) : (machine D cfg).Keeps (fun _ l => l ≠ .stop) Working := by
  intro s l s' working going step
  rcases working with ⟨hot, running⟩
  cases l with
  | stop => exact (going rfl).elim
  | start =>
      simp only [machine, System.step] at step
      split at step <;> cases step
      exact ⟨rfl, .inr rfl⟩
  | forceRotate | spill =>
      cases step
      exact ⟨hot, running⟩
  | produce item | tryProduce item =>
      obtain ⟨ring, -, rfl⟩ := of_ringStep step
      exact ⟨hot, running⟩
  | producer =>
      obtain ⟨ring, -, rfl⟩ := of_ringStep step
      exact ⟨hot, running⟩
  | run now opened =>
      rcases running_of_stepRun step with ⟨same, started⟩
      have on : s.running = true := running.resolve_left started
      refine ⟨?_, .inr (same.trans on)⟩
      by_contra drains
      rcases draining_of_stepRun step (Bool.of_not_eq_false drains) with draining | off
      · rw [hot] at draining
        cases draining
      · rw [on] at off
        cases off

/-- The last `consume` of the drain has found the ring empty. -/
def FoundEmpty (s : System D) : Prop :=
  s.pc = .consuming .drain ∧ s.ring.consumer = .done none ∨ s.pc.isOver = true

theorem accepted_of_step {cfg : Config} {s s' : System D} {l : Label D} (inv : s.ring.Inv)
    (step : s.step cfg l = some s') : s.ring.accepted <+: s'.ring.accepted := by
  cases effect_of_step step with
  | quiet same ring fwritten isOpen calling => rw [ring]
  | ringMove m same move kept journals calling =>
      exact inv.accepted_step move
  | consumed loop tick pc move after =>
      exact inv.accepted_step move
  | written loop tick pc after | applied loop tick pc after | counted loop tick pc after =>
      subst after
      exact List.prefix_refl _

theorem found_of_stepRun {cfg : Config} {s s' : System D} {now : Int} {opened : Bool}
    (inv : s.ring.Inv) (step : s.stepRun cfg now opened = some s') (found : s'.FoundEmpty) :
    s.FoundEmpty ∧ s'.ring.returned = s.ring.returned ∨ s'.ring.returned = s'.ring.accepted := by
  rcases found with ⟨inside, nothing⟩ | ended
  · rcases consuming_of_stepRun step inside with check | ⟨-, move⟩
    · rw [nothing] at check
      cases check
    · obtain ⟨check, empty, returned⟩ := Memory.System.of_stepConsumer_none move nothing
      right
      rw [returned, Memory.System.accepted_stepConsumer move]
      exact inv.returned_eq_accepted check empty
  · left
    rcases over_of_stepRun step ended with ⟨pc, nothing, -, returned⟩ | ⟨pc, rfl⟩
    · exact ⟨.inl ⟨pc, nothing⟩, returned⟩
    · exact ⟨.inr (by rw [pc]; rfl), rfl⟩

theorem found_of_producer {s s' : System D} {m : Memory.Label Unit (Tick D)}
    (step : s.ringStep m s.pc = some s')
    (frame : ∀ ring, s.ring.step m = some ring →
      ring.consumer = s.ring.consumer ∧ ring.returned = s.ring.returned)
    (found : s'.FoundEmpty) : s.FoundEmpty ∧ s'.ring.returned = s.ring.returned := by
  obtain ⟨ring, move, rfl⟩ := of_ringStep step
  rcases frame ring move with ⟨consumer, returned⟩
  refine ⟨found.imp (fun ⟨inside, nothing⟩ => ⟨inside, ?_⟩) id, returned⟩
  exact consumer.symm.trans nothing

/-- The drain finds the ring empty once; nothing is consumed afterwards. -/
theorem found_of_step {cfg : Config} {s s' : System D} {l : Label D} (inv : s.ring.Inv)
    (step : s.step cfg l = some s') (found : s'.FoundEmpty) :
    s.FoundEmpty ∧ s'.ring.returned = s.ring.returned ∨ s'.ring.returned = s'.ring.accepted := by
  cases l with
  | start =>
      simp only [System.step] at step
      split at step <;> cases step
      rcases found with ⟨inside, -⟩ | ended
      · cases inside
      · cases ended
  | stop | forceRotate | spill =>
      cases step
      exact .inl ⟨found, rfl⟩
  | produce item =>
      refine .inl (found_of_producer step (fun ring move => ?_) found)
      obtain ⟨-, rfl⟩ := Memory.System.of_step_produce move
      exact ⟨rfl, rfl⟩
  | tryProduce item =>
      refine .inl (found_of_producer step (fun ring move => ?_) found)
      obtain ⟨-, rfl⟩ := Memory.System.of_step_tryProduce move
      exact ⟨rfl, rfl⟩
  | producer =>
      exact .inl (found_of_producer step
        (fun ring move => Memory.System.stepProducer_frame move) found)
  | run now opened => exact found_of_stepRun inv step found

/-- If nothing has been accepted since `ticks` was, a finished drain has returned it all. -/
def Drained (ticks : List (Tick D)) (s : System D) : Prop :=
  ticks <+: s.ring.accepted ∧
    (s.FoundEmpty → s.ring.accepted = ticks → s.ring.returned = ticks)

theorem keeps_drained [Zero D] (cfg : Config) (ticks : List (Tick D)) :
    (machine D cfg).Keeps (fun _ _ => True) fun s => s.Inv ∧ s.Drained ticks := by
  refine (keeps_inv cfg).and fun s l s' inv drained _ step => ?_
  rcases drained with ⟨before, drained⟩
  have grows := accepted_of_step inv.ring step
  refine ⟨before.trans grows, fun found quiet => ?_⟩
  have still : s.ring.accepted = ticks :=
    (grows.trans (quiet ▸ List.prefix_refl _)).eq_of_length_le before.length_le
  rcases found_of_step inv.ring step found with ⟨found, same⟩ | all
  · rw [same]
    exact drained found still
  · exact all.trans quiet

/-! ## End to end -/

variable [Zero D]

/-- What `run()` leaves behind when the ticks `accepted` were accepted. -/
structure Complete (s : System D) (accepted : List (Tick D)) : Prop where
  /-- The journal files hold the accepted ticks, in the order of acceptance. -/
  journal : s.journals.disk.map Prod.snd = accepted
  /-- None is left in the ring. -/
  drained : s.ring.returned = accepted
  ticksWritten : s.ticksWritten = BitVec.ofNat 64 accepted.length
  book : s.book = .ofTicks (bookEvents accepted)

/-- The book reflects every tick that has been counted, and at most one more. -/
def Reflected (s : System D) : Prop :=
  ∃ counted applied, s.ticksWritten = BitVec.ofNat 64 counted ∧
    s.book = .ofTicks (bookEvents (s.ring.accepted.take applied)) ∧
    counted ≤ applied ∧ applied ≤ counted + 1 ∧ applied ≤ s.ring.accepted.length

omit [Zero D] in
theorem Pc.lag (pc : Pc D) :
    pc.toApply.length ≤ pc.toCount.length ∧ pc.toCount.length ≤ pc.toApply.length + 1 := by
  cases pc <;> simp [Pc.toApply, Pc.toCount]

theorem Inv.reflected {s : System D} (inv : s.Inv) : s.Reflected := by
  rcases inv.applied with ⟨done, returned, book⟩
  rcases inv.counted with ⟨known, returned', ticksWritten⟩
  have accepted := inv.ring.returned_isPrefix
  have prefixed : done <+: s.ring.accepted :=
    (returned ▸ List.prefix_append done s.pc.toApply).trans accepted
  have lengths := congrArg List.length (returned.symm.trans returned')
  rw [List.length_append, List.length_append] at lengths
  have lag := Pc.lag s.pc
  refine ⟨known.length, done.length, ticksWritten, ?_, by omega, by omega, prefixed.length_le⟩
  rw [← List.prefix_iff_eq_take.mp prefixed]
  exact book

theorem Inv.complete {s : System D} (inv : s.Inv) (exited : s.pc = .exited)
    (flushed : s.Flushed) (journaled : s.Journaled) {accepted : List (Tick D)}
    (returned : s.ring.returned = accepted) : s.Complete accepted := by
  rcases inv.applied with ⟨done, all, book⟩
  rcases inv.counted with ⟨known, all', ticksWritten⟩
  have written := journaled.written
  rw [exited] at all all' written
  have all : s.ring.returned = done := all.trans (List.append_nil _)
  have all' : s.ring.returned = known := all'.trans (List.append_nil _)
  have written : s.ring.returned = s.journals.fwritten := written.trans (List.append_nil _)
  refine ⟨?_, returned, ?_, ?_⟩
  · rw [flushed.disk_eq exited, ← written, returned]
  · rw [ticksWritten, ← all', returned]
  · rw [book, ← all, returned]

/-- **End to end.** -/
theorem tickerplant_end_to_end (cfg : Config) (data : Fin ringCapacity.size → Tick D)
    (now : Int) (before after : List (Label D)) (s t : System D)
    (unstopped : Label.stop ∉ before) (opened : ∀ l ∈ before ++ after, l.opened = true)
    (reached : (machine D cfg).run (new cfg data now) before = some s)
    (final : (machine D cfg).run s (.stop :: after) = some t)
    (quiet : t.ring.accepted = s.ring.accepted) :
    (t.pc = .exited → t.Complete s.ring.accepted) ∧
    ∀ (labels : List (Label D)) (u : System D), labels <+: before ++ .stop :: after →
      (machine D cfg).run (new cfg data now) labels = some u → u.Reflected := by
  have invS : s.Inv := (keeps_inv cfg).run (new_inv cfg data now)
    (Machine.along_of_forall_mem (fun _ _ _ => True.intro) _) reached
  refine ⟨fun exited => ?_, fun labels u _ run => ?_⟩
  · have going : (machine D cfg).Along (fun _ l => l ≠ .stop) (new cfg data now) before := by
      refine Machine.along_of_forall_mem (fun l mem _ => ?_) _
      exact ne_of_mem_of_not_mem mem unstopped
    have working : s.Working := (keeps_working cfg).run ⟨rfl, .inl rfl⟩ going reached
    have journaledS : s.Journaled := (keeps_journaled cfg).run (new_journaled cfg data now)
      (Machine.along_of_forall_mem (fun l mem _ => opened l (List.mem_append_left _ mem)) _)
      reached
    have journaled : t.Journaled := by
      refine (keeps_journaled cfg).run journaledS (Machine.along_of_forall_mem ?_ _) final
      intro l mem _
      rcases List.mem_cons.mp mem with rfl | mem
      · rfl
      · exact opened l (List.mem_append_right _ mem)
    have unfound : ¬ s.FoundEmpty := by
      rintro (⟨inside, -⟩ | ended)
      · have hot := working.1
        rw [inside] at hot
        cases hot
      · have hot := working.1
        cases state : s.pc with
        | finalFlush | exited => rw [state] at hot; cases hot
        | _ => rw [state] at ended; cases ended
    obtain ⟨inv, -, drained⟩ := (keeps_drained cfg s.ring.accepted).run
      ⟨invS, List.prefix_refl _, fun found => (unfound found).elim⟩
      (Machine.along_of_forall_mem (fun _ _ _ => True.intro) _) final
    have flushed : t.Flushed := (keeps_flushed cfg).run (s := s)
      (fun ended => (unfound (.inr (by rw [ended]; rfl))).elim)
      (Machine.along_of_forall_mem (fun _ _ _ => True.intro) _) final
    have returned := drained (.inr (by rw [exited]; rfl)) quiet
    exact inv.complete exited flushed journaled returned
  · have inv : u.Inv := (keeps_inv cfg).run (new_inv cfg data now)
      (Machine.along_of_forall_mem (fun _ _ _ => True.intro) _) run
    exact inv.reflected

/-- A tick of one token at the given price. -/
def tickOf (eventType : UInt8) (price : Nat) : Tick Nat :=
  ⟨0, price, 1, 0, 0, 0, eventType, ⟨List.replicate 80 0, rfl, by decide⟩⟩

/-- A quote and a trade are accepted and a rotation is forced; `run()` meets the rotation first
and journals the quote in the hot loop. -/
def quoteThenTrade : List (Label Nat) :=
  .start :: .tryProduce (tickOf 0 7) :: List.replicate 6 .producer ++
    .tryProduce (tickOf 1 8) :: List.replicate 6 .producer ++
    .forceRotate :: List.replicate 14 (.run 1000 true)

theorem tickerplant_end_to_end_twoLoops :
    ∃ s t : System Nat,
      (machine Nat ⟨ascii "data", 15⟩).run (new ⟨ascii "data", 15⟩ (fun _ => tickOf 0 0) 0)
        quoteThenTrade = some s ∧
      (machine Nat ⟨ascii "data", 15⟩).run s (.stop :: List.replicate 15 (.run 2000 true)) =
        some t ∧
      t.Complete [tickOf 0 7, tickOf 1 8] := by
  let cfg : Config := ⟨ascii "data", 15⟩
  have first : ((machine Nat ⟨ascii "data", 15⟩).run
      (new ⟨ascii "data", 15⟩ (fun _ => tickOf 0 0) 0) quoteThenTrade).map
        (fun s => s.ring.accepted) = some [tickOf 0 7, tickOf 1 8] := rfl
  have second : ((machine Nat ⟨ascii "data", 15⟩).run
      (new ⟨ascii "data", 15⟩ (fun _ => tickOf 0 0) 0)
        (quoteThenTrade ++ .stop :: List.replicate 15 (.run 2000 true))).map
        (fun t => (t.pc, t.ring.accepted)) = some (.exited, [tickOf 0 7, tickOf 1 8]) := rfl
  rcases Option.map_eq_some_iff.mp first with ⟨s, reached, accepted⟩
  rcases Option.map_eq_some_iff.mp second with ⟨t, whole, ends⟩
  rcases Prod.mk.inj ends with ⟨exited, accepted'⟩
  rcases Machine.run_append_eq_some.mp whole with ⟨s', reached', final⟩
  cases reached.symm.trans reached'
  refine ⟨s, t, reached, final, accepted ▸ ?_⟩
  exact (tickerplant_end_to_end cfg _ 0 _ _ s t (by simp [quoteThenTrade]) (by decide) reached final
    (accepted'.trans accepted.symm)).1 exited

end System

end Tickscope.Tickerplant
