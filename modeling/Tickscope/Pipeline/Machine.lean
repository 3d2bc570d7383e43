import Tickscope.Harvester.NothingLost
import Tickscope.Tickerplant.SortedJournals

/-!
# The tickerplant beside the flush

One host: a tickerplant writes its journals into the directory that `hourly_flush.sh` empties, and is
killed and started again. A step of `run()` reads the clock of the host, and what it does to a file is
done to the directory (`Tickerplant.System.fileOps`). `OnTime` is what the maintenance of `run()` is
for: the journal of a window is not open any more when the window began 20 minutes ago. Files that
`prune_old_data_files` removes after days are not in this model.
-/

namespace Tickscope.Tickerplant

open Tickscope.Lib Tickscope.Core
open Tickscope.Harvester

variable {D : Type}

/-- `run()` has returned. -/
def Pc.hasReturned : Pc D → Bool
  | .exited => true
  | _ => false

/-- The name of a journal in its directory. -/
def Config.fileName (cfg : Config) (path : Str) : Str := path.drop (cfg.journalDir.length + 1)

/-- What an operation of the tickerplant does to the directory. -/
def FileOp.label (cfg : Config) : FileOp D → HourlyFlush.Label (Tick D)
  | .append path ticks => .append (cfg.fileName path) ticks
  | .create path => .create (cfg.fileName path)

end Tickscope.Tickerplant

namespace Tickscope.Pipeline

open Tickscope.Lib Tickscope.Core Tickscope.Tickerplant
open Tickscope.Harvester.HourlyFlush (Host Feed base)
open Tickscope.Coinbase.BtcJournal (minAgeMs)

/-! ## The machine -/

structure State (D P : Type) where
  plant : Option (System D)
  host : Host (Tick D) P

inductive Label (D : Type) where
  /-- The tickerplant is killed, if there is one, and a new one is constructed. -/
  | restart (data : Fin ringCapacity.size → Tick D)
  | plant (l : Tickerplant.Label D)
  | host (l : Harvester.HourlyFlush.Label (Tick D))

/-- 20 minutes after the start of a window, in milliseconds. -/
def deadline (cfg : Config) (slot : Int) : Int :=
  slot * cfg.rotationIntervalMinutes * 60 * 1000 + minAgeMs

namespace State

variable {D P : Type} [Zero D] (cfg : Config) (convert : Feed → List (Tick D) → Option P)

/-- `std::time(nullptr)`. -/
def clock (s : State D P) : Int := (s.host.now / 1000 : Nat)

/-- The writes that a step stands for. -/
def hostLabels (s : State D P) : Label D → List (Harvester.HourlyFlush.Label (Tick D))
  | .restart _ => [.create (cfg.fileName (cfg.makeJournalPath s.clock))]
  | .plant l =>
      match s.plant with
      | none => []
      | some sys => (sys.fileOps cfg l).map (FileOp.label cfg)
  | .host l => [l]

/-- The tickerplant after a step. -/
def plantStep (s : State D P) : Label D → Option (Option (System D))
  | .restart data => some (some (System.new cfg data s.clock))
  | .plant l =>
      if l.clock.all (· = s.clock) then (s.plant.bind fun sys => sys.step cfg l).map some else none
  | .host (.create _) => none
  | .host (.append _ _) => none
  | .host _ => some s.plant

def step (s : State D P) (l : Label D) : Option (State D P) :=
  (s.plantStep cfg l).bind fun plant =>
    ((Host.machine convert).run s.host (s.hostLabels cfg l)).map fun host => ⟨plant, host⟩

def machine : Machine (State D P) (Label D) := ⟨step cfg convert⟩

/-! ## On time -/

omit [Zero D] in
/-- While time passes, no journal stays open for more than 20 minutes after the start of its window,
until `run()` has returned. Nobody asks for a rotation, and it is before the year 10000. -/
def OnTime (s : State D P) : Label D → Prop
  | .host (.wait ms) => Dated (((s.host.now + ms) / 1000 : Nat) : Int) ∧
      ∀ sys, s.plant = some sys → sys.pc.hasReturned = false →
        sys.journals.journalFp.isSome = true →
          ((s.host.now + ms : Nat) : Int) ≤ deadline cfg sys.journals.currentSlot
  | .plant .forceRotate => False
  | _ => True

omit [Zero D] in
theorem onTime_wait_iff (s : State D P) (ms : Nat) {sys : System D} (here : s.plant = some sys) :
    s.OnTime cfg (.host (.wait ms)) ↔ Dated (((s.host.now + ms) / 1000 : Nat) : Int) ∧
      (sys.pc.hasReturned = false → sys.journals.journalFp.isSome = true →
        ((s.host.now + ms : Nat) : Int) ≤ deadline cfg sys.journals.currentSlot) := by
  refine and_congr_right fun _ => ⟨fun all => all sys here, fun bound sys' here' => ?_⟩
  cases here.symm.trans here'
  exact bound

instance (s : State D P) : (l : Label D) → Decidable (s.OnTime cfg l)
  | .host (.wait ms) =>
      match here : s.plant with
      | none =>
          decidable_of_iff (Dated (((s.host.now + ms) / 1000 : Nat) : Int))
            (and_iff_left fun sys here' => by rw [here] at here'; cases here').symm
      | some _ => decidable_of_iff _ (onTime_wait_iff cfg s ms here).symm
  | .host (.create _) => .isTrue True.intro
  | .host (.append _ _) => .isTrue True.intro
  | .host .start => .isTrue True.intro
  | .host (.script _ _) => .isTrue True.intro
  | .host .kill => .isTrue True.intro
  | .restart _ => .isTrue True.intro
  | .plant .forceRotate => .isFalse id
  | .plant .start => .isTrue True.intro
  | .plant .stop => .isTrue True.intro
  | .plant (.spill _) => .isTrue True.intro
  | .plant (.produce _) => .isTrue True.intro
  | .plant (.tryProduce _) => .isTrue True.intro
  | .plant .producer => .isTrue True.intro
  | .plant (.run _ _) => .isTrue True.intro

end State

/-! ## Names -/

section Names

variable {cfg : Config}

/-- The name of the journal for a time. -/
def journalName (cfg : Config) (t : Int) : Str := cfg.fileName (cfg.makeJournalPath t)

theorem journalName_eq (rotates : 0 < cfg.rotationIntervalMinutes) {t : Int} (dated : Dated t) :
    journalName cfg t = ascii "polymarket_" ++
      (stamp (Calendar.gmtime (cfg.windowStart t)) ++ ascii ".bin") := by
  have slash : cfg.journalDir ++ ascii "/polymarket_" =
      (cfg.journalDir ++ ascii "/") ++ ascii "polymarket_" := by
    rw [List.append_assoc]
    rfl
  have length : cfg.journalDir.length + 1 = (cfg.journalDir ++ ascii "/").length := by
    rw [List.length_append]
    rfl
  rw [journalName, Config.makeJournalPath_eq rotates dated, Config.fileName, slash, length,
    List.append_assoc, List.drop_left]

theorem selects_journalName (rotates : 0 < cfg.rotationIntervalMinutes) {t : Int}
    (dated : Dated t) : Feed.polymarket.selects (journalName cfg t) = true := by
  rw [journalName_eq rotates dated]
  unfold Feed.selects
  refine Bool.and_eq_true_iff.mpr ⟨?_, ?_⟩
  · exact List.isPrefixOf_iff_prefix.mpr (List.prefix_append _ _)
  · dsimp only
    rw [List.drop_left]
    exact List.isSuffixOf_iff_suffix.mpr (List.suffix_append _ _)

theorem timeSlot_of_journalName (rotates : 0 < cfg.rotationIntervalMinutes) {t t' : Int}
    (dated : Dated t) (dated' : Dated t') (same : journalName cfg t = journalName cfg t') :
    cfg.timeSlot t = cfg.timeSlot t' := by
  have path : cfg.makeJournalPath t = cfg.makeJournalPath t' := by
    rw [journalName_eq rotates dated, journalName_eq rotates dated'] at same
    rw [Config.makeJournalPath_eq rotates dated, Config.makeJournalPath_eq rotates dated',
      List.append_cancel_left same]
  have ordered := Config.makeJournalPath_lt_iff rotates dated dated'
  have ordered' := Config.makeJournalPath_lt_iff rotates dated' dated
  rw [path] at ordered ordered'
  exact le_antisymm (not_lt.mp fun lt => List.lt_irrefl _ (ordered'.mpr lt))
    (not_lt.mp fun lt => List.lt_irrefl _ (ordered.mpr lt))

end Names

/-! ## The directory -/

section HostInv

variable {D P : Type} {cfg : Config} {convert : Feed → List (Tick D) → Option P}

/-- The clock of a host in seconds. -/
def seconds (h : Host (Tick D) P) : Int := (h.now / 1000 : Nat)

variable (cfg convert)

/-- A journal is not older than its window, and its object comes after it was sealed. -/
structure HostInv (h : Host (Tick D) P) : Prop where
  dated : Dated (seconds h)
  script : h.ScriptInv convert
  files : ∀ t, Dated t → ∀ file, h.dataDir.lookup (journalName cfg t) = some file →
    deadline cfg (cfg.timeSlot t) ≤ file.mtime + minAgeMs
  objects : ∀ t, Dated t → h.bucket.lookup (.polymarket, base (journalName cfg t)) ≠ none →
    deadline cfg (cfg.timeSlot t) < h.now

/-- The journal for `t` can be written to. -/
structure Writable (h : Host (Tick D) P) (t : Int) : Prop where
  dated : Dated t
  begun : t ≤ seconds h
  present : ∃ file, h.dataDir.lookup (journalName cfg t) = some file
  fresh : (h.now : Int) ≤ deadline cfg (cfg.timeSlot t)

variable {cfg convert} {h h' : Host (Tick D) P} {t : Int}

/-- A window has begun when one of its times has passed. -/
theorem deadline_le (rotates : 0 < cfg.rotationIntervalMinutes) (dated : Dated t)
    (begun : t ≤ seconds h) : deadline cfg (cfg.timeSlot t) ≤ h.now + minAgeMs := by
  obtain ⟨-, before, -⟩ := Config.windowStart_le rotates dated.1
  unfold seconds at begun
  unfold Config.windowStart at before
  rw [deadline]
  omega

/-- In its own window a journal is fresh. -/
theorem le_deadline (rotates : 0 < cfg.rotationIntervalMinutes)
    (short : cfg.rotationIntervalMinutes ≤ 20) (dated : Dated (seconds h)) :
    (h.now : Int) ≤ deadline cfg (cfg.timeSlot (seconds h)) := by
  obtain ⟨-, -, close⟩ := Config.windowStart_le rotates dated.1
  have age : minAgeMs = 1200000 := rfl
  unfold Config.windowStart at close
  rw [deadline, age]
  unfold seconds at close ⊢
  omega

theorem Writable.not_closed (inv : HostInv cfg convert h) (writable : Writable cfg h t) {feed : Feed} :
    ¬ h.Closed feed (journalName cfg t) := by
  rintro ⟨-, file, present, old⟩
  have bound := inv.files t writable.dated file present
  have fresh := writable.fresh
  omega

/-- An append to a journal that can be written to. -/
theorem HostInv.append (rotates : 0 < cfg.rotationIntervalMinutes) (inv : HostInv cfg convert h)
    (writable : Writable cfg h t) (rows : List (Tick D)) :
    (Harvester.HourlyFlush.Label.append (journalName cfg t) rows).Live h ∧
      HostInv cfg convert
        { h with dataDir := h.dataDir.append h.now (journalName cfg t) rows } ∧
      Writable cfg { h with dataDir := h.dataDir.append h.now (journalName cfg t) rows } t := by
  obtain ⟨file, present⟩ := writable.present
  have live : (Harvester.HourlyFlush.Label.append (journalName cfg t) rows).Live h := by
    refine ⟨by rw [present]; rfl, fun aged => ?_⟩
    exact writable.not_closed inv ⟨selects_journalName rotates writable.dated, aged⟩
  have after := Directory.lookup_append_self present h.now rows
  refine ⟨live, ⟨inv.dated, ?_, ?_, inv.objects⟩, writable.dated, writable.begun, ⟨_, after⟩,
    writable.fresh⟩
  · refine inv.script.frame le_rfl rfl rfl rfl fun feed bin closed => ?_
    refine Directory.lookup_append_of_ne ?_ h.dataDir h.now rows
    rintro rfl
    exact live.2 closed.2
  · intro t' dated' file' present'
    by_cases same : journalName cfg t' = journalName cfg t
    · have slot := timeSlot_of_journalName rotates dated' writable.dated same
      rw [same] at present'
      cases after.symm.trans present'
      rw [slot]
      dsimp only
      split
      · exact inv.files t writable.dated file present
      · exact deadline_le rotates writable.dated writable.begun
    · exact inv.files t' dated' file'
        ((Directory.lookup_append_of_ne same h.dataDir h.now rows).symm.trans present')

/-- A journal is opened. -/
theorem HostInv.create (rotates : 0 < cfg.rotationIntervalMinutes)
    (short : cfg.rotationIntervalMinutes ≤ 20) (inv : HostInv cfg convert h) :
    (Harvester.HourlyFlush.Label.create (journalName cfg (seconds h)) :
      Harvester.HourlyFlush.Label (Tick D)).Live h ∧
      HostInv cfg convert
        { h with dataDir := h.dataDir.create h.now (journalName cfg (seconds h)) } ∧
      Writable cfg { h with dataDir := h.dataDir.create h.now (journalName cfg (seconds h)) }
        (seconds h) := by
  have fresh := le_deadline rotates short inv.dated
  have live : (Harvester.HourlyFlush.Label.create (journalName cfg (seconds h)) :
      Harvester.HourlyFlush.Label (Tick D)).Live h := by
    intro absent feed selected
    have one := Harvester.HourlyFlush.feed_eq selected (selects_journalName rotates inv.dated)
    by_contra found
    rw [one] at found
    exact (inv.objects _ inv.dated found).not_ge fresh
  have written : ∃ file, (h.dataDir.create h.now (journalName cfg (seconds h))).lookup
      (journalName cfg (seconds h)) = some file := by
    cases present : h.dataDir.lookup (journalName cfg (seconds h)) with
    | none => exact ⟨_, Directory.lookup_create_self present h.now⟩
    | some file => exact ⟨file, by rw [Directory.create_of_some present]; exact present⟩
  refine ⟨live, ⟨inv.dated, ?_, ?_, inv.objects⟩, inv.dated, le_rfl, written, fresh⟩
  · refine inv.script.frame le_rfl rfl rfl rfl fun feed bin closed => ?_
    by_cases same : bin = journalName cfg (seconds h)
    · obtain ⟨file, present⟩ := closed.isPresent
      rw [same] at present ⊢
      exact congrArg _ (Directory.create_of_some present h.now)
    · exact Directory.lookup_create_of_ne same h.dataDir h.now
  · intro t' dated' file' present'
    by_cases same : journalName cfg t' = journalName cfg (seconds h)
    · have slot := timeSlot_of_journalName rotates dated' inv.dated same
      rw [same] at present'
      rw [slot]
      cases present : h.dataDir.lookup (journalName cfg (seconds h)) with
      | none =>
          cases (Directory.lookup_create_self present h.now).symm.trans present'
          exact deadline_le rotates inv.dated le_rfl
      | some file =>
          rw [Directory.create_of_some present] at present'
          exact inv.files _ inv.dated file' present'
    · exact inv.files t' dated' file'
        ((Directory.lookup_create_of_ne same h.dataDir h.now).symm.trans present')

/-! ## The writes of a tickerplant -/

variable (cfg convert) in
/-- The host goes along with these writes. -/
structure Performs (h : Host (Tick D) P) (ls : List (Harvester.HourlyFlush.Label (Tick D)))
    (h' : Host (Tick D) P) : Prop where
  run : (Host.machine convert).run h ls = some h'
  live : (Host.machine convert).Along (fun h l => l.Live h) h ls
  inv : HostInv cfg convert h'

theorem Performs.nil (inv : HostInv cfg convert h) : Performs cfg convert h [] h :=
  ⟨rfl, True.intro, inv⟩

theorem Performs.single {l : Harvester.HourlyFlush.Label (Tick D)}
    (step : h.step convert l = some h')
    (live : l.Live h) (inv : HostInv cfg convert h') : Performs cfg convert h [l] h' :=
  ⟨Machine.run_cons_eq_some.mpr ⟨h', step, rfl⟩, ⟨live, fun _ _ => True.intro⟩, inv⟩

theorem Performs.append {m : Host (Tick D) P} {ls ks : List (Harvester.HourlyFlush.Label (Tick D))}
    (first : Performs cfg convert h ls m) (second : Performs cfg convert m ks h') :
    Performs cfg convert h (ls ++ ks) h' :=
  ⟨Machine.run_append_eq_some.mpr ⟨m, first.run, second.run⟩,
    (Machine.along_append_iff first.run _ _).mpr ⟨first.live, second.live⟩, second.inv⟩

/-- The script begins, or is killed. -/
theorem HostInv.goto (inv : HostInv cfg convert h) {pc : Harvester.HourlyFlush.Pc}
    (nothing : (pc.hands, pc.awaited, pc.ready, pc.stored) = ([], [], [], [])) :
    HostInv cfg convert (h.goto pc) := by
  obtain ⟨hands, awaited, ready, stored⟩ :
      pc.hands = [] ∧ pc.awaited = [] ∧ pc.ready = [] ∧ pc.stored = [] := by
    simpa using nothing
  refine ⟨inv.dated, ⟨?_, ?_, ?_, ?_⟩, inv.files, inv.objects⟩
  · rw [Host.goto, hands]
    exact List.nodup_nil
  · rw [Host.goto, awaited]
    exact List.forall_mem_nil _
  · rw [Host.goto, ready]
    exact List.forall_mem_nil _
  · rw [Host.goto, stored]
    exact List.forall_mem_nil _

theorem Writable.goto (writable : Writable cfg h t) (pc : Harvester.HourlyFlush.Pc) :
    Writable cfg (h.goto pc) t :=
  ⟨writable.dated, writable.begun, writable.present, writable.fresh⟩

end HostInv

/-! ## Both -/

namespace State

variable {D P : Type} [Zero D] {cfg : Config} {convert : Feed → List (Tick D) → Option P}

end State

end Tickscope.Pipeline
