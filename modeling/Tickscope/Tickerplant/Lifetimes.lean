import Tickscope.Tickerplant.SortedJournals

/-!
# Lifetimes

A tickerplant is stopped or killed and started again on the same directory: `"ab"` keeps what a file
holds, and what was in a buffer is lost with the process. The files in the order of their names hold
what each process has journaled, one process after the other (`readBack_lifetimes`).
-/

namespace Tickscope.Tickerplant

open Tickscope.Lib Tickscope.Core Tickscope.Rdb

variable {D : Type} [Zero D]

/-! ## A process -/

/-- What a process is constructed with, and its steps until it returns or is killed. -/
structure Lifetime (D : Type) where
  data : Fin ringCapacity.size → Tick D
  now : Int
  labels : List (Label D)

namespace Lifetime

/-- Where the process ends, over files that held `old`. -/
def ends (cfg : Config) (old : List (Str × Tick D)) (life : Lifetime D) : Option (System D) :=
  (System.machine D cfg).run ((System.new cfg life.data life.now).onto old) life.labels

/-- What the process has taken from its producer; the files do not matter to it (`ends_eq`). -/
def accepted (cfg : Config) (life : Lifetime D) : List (Tick D) :=
  ((life.ends cfg []).map fun t => t.ring.accepted).getD []

omit [Zero D] in
/-- The times that the process would read, in order. -/
def times (life : Lifetime D) : List Int := life.now :: life.labels.filterMap Label.clock

/-- The process returns from `run()` after a `stop()`, with no tick accepted after it. -/
def Quits (cfg : Config) (life : Lifetime D) : Prop :=
  ∃ before after s t, life.labels = before ++ .stop :: after ∧ .stop ∉ before ∧
    (System.machine D cfg).run (System.new cfg life.data life.now) before = some s ∧
    (System.machine D cfg).run s (.stop :: after) = some t ∧
    t.ring.accepted = s.ring.accepted ∧ t.pc = .exited

theorem ends_eq (cfg : Config) (old : List (Str × Tick D)) (life : Lifetime D) :
    life.ends cfg old =
      ((System.machine D cfg).run (System.new cfg life.data life.now) life.labels).map
        (·.onto old) :=
  System.run_onto cfg old _ life.labels

theorem ends_nil (cfg : Config) (life : Lifetime D) :
    life.ends cfg [] = (System.machine D cfg).run (System.new cfg life.data life.now) life.labels :=
  rfl

/-! ## What one process journals -/

omit [Zero D] in
theorem not_foundEmpty {s : System D} (working : s.Working) : ¬ s.FoundEmpty := by
  have hot := working.1
  rintro (⟨inside, -⟩ | ended)
  · rw [inside] at hot
    cases hot
  · cases state : s.pc with
    | finalFlush | exited =>
        rw [state] at hot
        cases hot
    | _ =>
        rw [state] at ended
        cases ended

/-- A process that has been stopped in order has journaled all of it. -/
theorem complete_of_quits {cfg : Config} {life : Lifetime D}
    (opened : ∀ l ∈ life.labels, l.opened = true) (quits : life.Quits cfg) :
    ∃ t, life.ends cfg [] = some t ∧ t.Complete t.ring.accepted := by
  obtain ⟨before, after, s, t, labels, unstopped, reached, final, quiet, exited⟩ := quits
  rw [labels] at opened
  have working : s.Working := (System.keeps_working cfg).run ⟨rfl, .inl rfl⟩
    (Machine.along_of_forall_mem (fun l mem _ => ne_of_mem_of_not_mem mem unstopped) _) reached
  have invS : s.Inv := (System.keeps_inv cfg).run (System.new_inv cfg life.data life.now)
    (Machine.along_of_forall_mem (fun _ _ _ => True.intro) _) reached
  obtain ⟨inv, -, drained⟩ := (System.keeps_drained cfg s.ring.accepted).run
    ⟨invS, List.prefix_refl _, fun found => (not_foundEmpty working found).elim⟩
    (Machine.along_of_forall_mem (fun _ _ _ => True.intro) _) final
  have flushed : t.Flushed := (System.keeps_flushed cfg).run (s := s)
    (fun ended => (not_foundEmpty working (.inr (by rw [ended]; rfl))).elim)
    (Machine.along_of_forall_mem (fun _ _ _ => True.intro) _) final
  have whole := Machine.run_append_eq_some.mpr ⟨s, reached, final⟩
  have journaled : t.Journaled := (System.keeps_journaled cfg).run
    (System.new_journaled cfg life.data life.now)
    (Machine.along_of_forall_mem (fun l mem _ => opened l mem) _) whole
  have returned := drained (.inr (by rw [exited]; rfl)) quiet
  refine ⟨t, by rw [ends_nil, labels]; exact whole, ?_⟩
  rw [quiet]
  exact inv.complete exited flushed journaled returned

/-- What has reached the files is the beginning of what was accepted. -/
theorem disk_prefix {cfg : Config} {life : Lifetime D}
    (opened : ∀ l ∈ life.labels, l.opened = true) {t : System D}
    (reached : life.ends cfg [] = some t) : t.journals.disk.map Prod.snd <+: t.ring.accepted := by
  rw [ends_nil] at reached
  have inv : t.Inv := (System.keeps_inv cfg).run (System.new_inv cfg life.data life.now)
    (Machine.along_of_forall_mem (fun _ _ _ => True.intro) _) reached
  have journaled : t.Journaled := (System.keeps_journaled cfg).run
    (System.new_journaled cfg life.data life.now)
    (Machine.along_of_forall_mem (fun l mem _ => opened l mem) _) reached
  have written := journaled.written
  rw [Journals.fwritten, List.append_assoc] at written
  exact (written ▸ List.prefix_append _ _).trans inv.ring.returned_isPrefix

/-- The process goes through its files in the order of their names. -/
theorem filed_of_ends {cfg : Config} (rotates : 0 < cfg.rotationIntervalMinutes)
    {life : Lifetime D} (never : Label.forceRotate ∉ life.labels)
    (forward : life.times.Pairwise (· ≤ ·)) (dated : ∀ time ∈ life.times, Dated time)
    {t : System D} (reached : life.ends cfg [] = some t) :
    ∃ last ∈ life.times, t.journals.Filed cfg life.now last := by
  obtain ⟨least, forward⟩ := List.pairwise_cons.mp forward
  have here : Dated life.now := dated life.now List.mem_cons_self
  have start : (System.new cfg life.data life.now).journals.Filed cfg life.now life.now :=
    ⟨le_rfl, here, here, rfl, fun journal fp => by cases fp; rfl, nofun, List.Pairwise.nil⟩
  obtain ⟨last, seen, filed⟩ := System.filed_of_run rotates start ⟨rfl, rfl⟩ never forward
    (fun now mem => ⟨least now mem, dated now (List.mem_cons_of_mem _ mem)⟩) reached
  exact ⟨last, List.mem_cons.mpr seen, filed⟩

end Lifetime

/-! ## One process after the other -/

/-- What is in the files after these processes. -/
def leave (cfg : Config) : List (Str × Tick D) → List (Lifetime D) → Option (List (Str × Tick D))
  | disk, [] => some disk
  | disk, life :: lives =>
      (life.ends cfg disk).bind fun t => leave cfg t.journals.disk lives

omit [Zero D] in
/-- The clock does not step back, also not from one process to the next, and nobody calls
`force_rotate()`. -/
structure Orderly (lives : List (Lifetime D)) : Prop where
  forward : (lives.flatMap Lifetime.times).Pairwise (· ≤ ·)
  dated : ∀ time ∈ lives.flatMap Lifetime.times, Dated time
  unforced : ∀ life ∈ lives, Label.forceRotate ∉ life.labels

/-- A process has journaled these ticks. -/
def Lifetime.Journals (cfg : Config) (life : Lifetime D) (ticks : List (Tick D)) : Prop :=
  ticks <+: life.accepted cfg ∧ (life.Quits cfg → ticks = life.accepted cfg)

/-- The names of what these processes have added, between their first time and their last. -/
structure Added (cfg : Config) (lives : List (Lifetime D)) (added : List (Str × Tick D)) : Prop where
  parts : ∃ parts, added.map Prod.snd = parts.flatten ∧
    List.Forall₂ (Lifetime.Journals cfg) lives parts
  sorted : (added.map Prod.fst).Pairwise (· ≤ ·)
  named : ∀ entry ∈ added, ∃ first ∈ lives.flatMap Lifetime.times, ∃ t,
    ∃ last ∈ lives.flatMap Lifetime.times, first ≤ t ∧ t ≤ last ∧ entry.1 = cfg.makeJournalPath t

theorem added_of_leave {cfg : Config} (rotates : 0 < cfg.rotationIntervalMinutes)
    {old disk : List (Str × Tick D)} {lives : List (Lifetime D)} (orderly : Orderly lives)
    (opened : ∀ life ∈ lives, ∀ l ∈ life.labels, l.opened = true)
    (left : leave cfg old lives = some disk) : ∃ added, disk = old ++ added ∧ Added cfg lives added := by
  induction lives generalizing old with
  | nil =>
      cases left
      exact ⟨[], (List.append_nil _).symm, ⟨[], rfl, .nil⟩, .nil, nofun⟩
  | cons life lives ih =>
      obtain ⟨forward, dated, unforced⟩ := orderly
      rw [List.flatMap_cons] at forward dated
      obtain ⟨forwardHere, forwardLater, across⟩ := List.pairwise_append.mp forward
      have datedHere := fun time mem => dated time (List.mem_append_left _ mem)
      obtain ⟨t', reached', left⟩ := Option.bind_eq_some_iff.mp left
      rw [Lifetime.ends_eq, Option.map_eq_some_iff] at reached'
      obtain ⟨t, reached, rfl⟩ := reached'
      have opened' := opened life List.mem_cons_self
      obtain ⟨last, lastMem, filed⟩ := Lifetime.filed_of_ends rotates
        (unforced life List.mem_cons_self) forwardHere datedHere reached
      obtain ⟨later, rfl, parts, sorted, named⟩ := ih
        ⟨forwardLater, fun time mem => dated time (List.mem_append_right _ mem),
          fun life mem => unforced life (List.mem_cons_of_mem _ mem)⟩
        (fun life mem => opened life (List.mem_cons_of_mem _ mem)) left
      refine ⟨t.journals.disk ++ later, List.append_assoc _ _ _, ?_, ?_, ?_⟩
      · obtain ⟨parts, split, each⟩ := parts
        refine ⟨t.journals.disk.map Prod.snd :: parts, ?_, .cons ⟨?_, fun quits => ?_⟩ each⟩
        · rw [List.map_append, split, List.flatten_cons]
        · have begun := Lifetime.disk_prefix opened' reached
          rw [Lifetime.accepted, Lifetime.ends_nil, reached]
          exact begun
        · obtain ⟨t', ended, complete⟩ := Lifetime.complete_of_quits opened' quits
          cases ended.symm.trans reached
          rw [Lifetime.accepted, ended]
          exact complete.journal
      · rw [List.map_append, List.pairwise_append]
        refine ⟨filed.sorted, sorted, ?_⟩
        intro name before name' after
        obtain ⟨entry, mem, rfl⟩ := List.mem_map.mp before
        obtain ⟨entry', mem', rfl⟩ := List.mem_map.mp after
        obtain ⟨u, le, le', eq⟩ := filed.named entry mem
        obtain ⟨first, firstMem, v, last', lastMem', ge, ge', eq'⟩ := named entry' mem'
        have order := across last lastMem first firstMem
        rw [eq, eq']
        exact Config.makeJournalPath_mono rotates (filed.first.between filed.last le le')
          ((dated first (List.mem_append_right _ firstMem)).between
            (dated last' (List.mem_append_right _ lastMem')) ge ge')
          (le'.trans (order.trans ge))
      · intro entry mem
        rw [List.flatMap_cons]
        rcases List.mem_append.mp mem with here | after
        · obtain ⟨u, le, le', eq⟩ := filed.named entry here
          exact ⟨life.now, List.mem_append_left _ List.mem_cons_self, u, last,
            List.mem_append_left _ lastMem, le, le', eq⟩
        · obtain ⟨first, firstMem, v, last', lastMem', ge, ge', eq⟩ := named entry after
          exact ⟨first, List.mem_append_right _ firstMem, v, last',
            List.mem_append_right _ lastMem', ge, ge', eq⟩

/-- A quote is journaled in the first window, and its process is stopped. The next one goes on in the
second window and is killed before it writes. -/
def quoteThenKilled : List (Lifetime Nat) :=
  [⟨fun _ => System.tickOf 0 0, 60, .start :: .tryProduce (System.tickOf 0 7) :: List.replicate 6 .producer ++
      List.replicate 10 (.run 70 true) ++ .stop :: List.replicate 8 (.run 80 true)⟩,
    ⟨fun _ => System.tickOf 0 0, 960, .start :: .tryProduce (System.tickOf 1 8) :: List.replicate 6 .producer ++
      List.replicate 4 (.run 970 true)⟩]

end Tickscope.Tickerplant
