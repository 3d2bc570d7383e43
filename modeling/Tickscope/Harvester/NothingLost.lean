import Tickscope.Harvester.HourlyFlush

/-!
# Nothing is lost on the way to S3

While the writers leave a file alone that is 20 minutes old, the script can be interrupted or fail at
any command, and what was written to a journal is in its file or, converted, in the bucket
(`nothing_lost`). The invariant follows the lists of the script: the bins of `Pc.awaited` are closed,
those of `Pc.ready` have a parquet file with all of their records, and those of `Pc.stored` also an
object.
-/

namespace Tickscope.Harvester.HourlyFlush

open Tickscope.Lib
open Tickscope.Coinbase.BtcJournal (minAgeMs)

/-! ## Where the script is with a bin -/

namespace Pc

/-- The bins that a converter has still to see. -/
def awaited : Pc → List (Feed × Str)
  | .convert closedBins _ _ => closedBins.map (Prod.mk .polymarket)
  | .convertBtc closedBtc _ => closedBtc.map (Prod.mk .coinbase)
  | .uploadBtc _ closedBtc _ => closedBtc.map (Prod.mk .coinbase)
  | .removeBtc _ closedBtc _ => closedBtc.map (Prod.mk .coinbase)
  | .removeBtcParquet _ closedBtc _ => closedBtc.map (Prod.mk .coinbase)
  | _ => []

/-- The bins that have been converted and not yet copied, all of them. -/
def ready : Pc → List (Feed × Str)
  | .convert _ convertedBins _ => convertedBins.map (Prod.mk .polymarket)
  | .upload parquets convertedBins _ _ =>
      parquets.map (Prod.mk .polymarket) ++ convertedBins.map (Prod.mk .polymarket)
  | .uploadBtc bin _ _ => [(.coinbase, bin)]
  | _ => []

/-- The bins whose copy has been confirmed. -/
def stored : Pc → List (Feed × Str)
  | .upload parquets convertedBins _ uploadOk =>
      if uploadOk then (convertedBins.filter (· ∉ parquets)).map (Prod.mk .polymarket) else []
  | .remove convertedBins _ => convertedBins.map (Prod.mk .polymarket)
  | .removeParquet _ convertedBins _ => convertedBins.map (Prod.mk .polymarket)
  | .removeBtc bin _ _ => [(.coinbase, bin)]
  | _ => []

/-- The bins that the script has in hand. -/
def hands : Pc → List Str
  | .convert closedBins convertedBins _ => closedBins ++ convertedBins
  | .upload _ convertedBins _ _ => convertedBins
  | .remove convertedBins _ => convertedBins
  | .removeParquet _ convertedBins _ => convertedBins
  | .convertBtc closedBtc _ => closedBtc
  | .uploadBtc bin closedBtc _ => bin :: closedBtc
  | .removeBtc bin closedBtc _ => bin :: closedBtc
  | .removeBtcParquet _ closedBtc _ => closedBtc
  | _ => []

end Pc

namespace Host

variable {α P : Type}

def Closed (h : Host α P) (feed : Feed) (bin : Str) : Prop :=
  feed.selects bin = true ∧ Directory.Aged minAgeMs h.now h.dataDir bin

theorem mem_closed {h : Host α P} {feed : Feed} {bin : Str} :
    bin ∈ h.closed feed ↔ h.Closed feed bin :=
  Directory.mem_find

variable (convert : Feed → List α → Option P)

/-- The bucket has what the converter makes of these records. -/
def Archived (h : Host α P) (feed : Feed) (bin : Str) (rows : List α) : Prop :=
  ∃ parquet, convert feed rows = some parquet ∧
    h.bucket.lookup (feed, base bin) = some (some parquet)

/-- The parquet file of a closed bin is there. -/
def Ready (h : Host α P) (feed : Feed) (bin : Str) : Prop :=
  h.Closed feed bin ∧ ∃ file parquet, h.dataDir.lookup bin = some file ∧
    convert feed file.data = some parquet ∧
    h.parquets.lookup (feed, base bin) = some (some parquet)

/-- The object of a closed bin is there. -/
def Stored (h : Host α P) (feed : Feed) (bin : Str) : Prop :=
  h.Closed feed bin ∧ ∃ file, h.dataDir.lookup bin = some file ∧
    h.Archived convert feed bin file.data

structure ScriptInv (h : Host α P) : Prop where
  nodup : h.pc.hands.Nodup
  awaited : ∀ entry ∈ h.pc.awaited, h.Closed entry.1 entry.2
  ready : ∀ entry ∈ h.pc.ready, h.Ready convert entry.1 entry.2
  stored : ∀ entry ∈ h.pc.stored, h.Stored convert entry.1 entry.2

/-- Of every journal, `written` is in its file, or the file is gone and the bucket has it. -/
def Kept (written : Str → List α) (h : Host α P) : Prop :=
  ∀ feed bin, feed.selects bin = true →
    (∃ file, h.dataDir.lookup bin = some file ∧ file.data = written bin) ∨
      h.dataDir.lookup bin = none ∧
        (written bin = [] ∨ h.Archived convert feed bin (written bin))

variable {convert}

/-! ## What a step leaves alone -/

variable {h h' : Host α P} {feed feed' : Feed} {bin bin' : Str}

theorem key_ne (selected : feed.selects bin = true) (selected' : feed'.selects bin' = true)
    (ne : bin ≠ bin') : (feed, base bin) ≠ (feed', base bin') :=
  fun same => ne (eq_of_base selected selected' (congrArg Prod.snd same))

theorem Closed.frame (closed : h.Closed feed bin) (now : h.now ≤ h'.now)
    (file : h'.dataDir.lookup bin = h.dataDir.lookup bin) : h'.Closed feed bin :=
  ⟨closed.1, closed.2.of_lookup now file⟩

theorem Archived.frame {rows : List α} (archived : h.Archived convert feed bin rows)
    (object : h'.bucket.lookup (feed, base bin) = h.bucket.lookup (feed, base bin)) :
    h'.Archived convert feed bin rows := by
  obtain ⟨parquet, eq, found⟩ := archived
  exact ⟨parquet, eq, object.trans found⟩

theorem Ready.frame (ready : h.Ready convert feed bin) (now : h.now ≤ h'.now)
    (file : h'.dataDir.lookup bin = h.dataDir.lookup bin)
    (parquet : h'.parquets.lookup (feed, base bin) = h.parquets.lookup (feed, base bin)) :
    h'.Ready convert feed bin := by
  obtain ⟨closed, f, p, present, eq, found⟩ := ready
  exact ⟨closed.frame now file, f, p, file.trans present, eq, parquet.trans found⟩

theorem Stored.frame (stored : h.Stored convert feed bin) (now : h.now ≤ h'.now)
    (file : h'.dataDir.lookup bin = h.dataDir.lookup bin)
    (object : h'.bucket.lookup (feed, base bin) = h.bucket.lookup (feed, base bin)) :
    h'.Stored convert feed bin := by
  obtain ⟨closed, f, present, archived⟩ := stored
  exact ⟨closed.frame now file, f, file.trans present, archived.frame object⟩

theorem Closed.isPresent (closed : h.Closed feed bin) :
    ∃ file, h.dataDir.lookup bin = some file :=
  closed.2.imp fun _ both => both.1

/-! ## The commands -/

theorem ready_save (closed : h.Closed feed bin) {ok : Bool} {parquet : P}
    (converted : h.converted convert feed bin ok = some parquet) (pc : Pc) :
    ((h.save feed bin parquet).goto pc).Ready convert feed bin := by
  unfold Host.converted at converted
  split at converted
  · obtain ⟨file, present, eq⟩ := Option.bind_eq_some_iff.mp converted
    exact ⟨closed, file, parquet, present, eq, AList.lookup_insert _⟩
  · cases converted

theorem lookup_save (other : (feed', base bin') ≠ (feed, base bin)) (parquet : P) :
    (h.save feed bin parquet).parquets.lookup (feed', base bin') =
      h.parquets.lookup (feed', base bin') :=
  AList.lookup_insert_ne other

theorem lookup_spoil (other : (feed', base bin') ≠ (feed, base bin)) (wrote : Bool) :
    (h.spoil feed bin wrote).parquets.lookup (feed', base bin') =
      h.parquets.lookup (feed', base bin') := by
  unfold spoil
  split
  · exact AList.lookup_insert_ne other
  · rfl

theorem spoil_frame (feed : Feed) (bin : Str) (wrote : Bool) :
    (h.spoil feed bin wrote).now = h.now ∧ (h.spoil feed bin wrote).dataDir = h.dataDir ∧
      (h.spoil feed bin wrote).bucket = h.bucket := by
  unfold spoil
  split <;> exact ⟨rfl, rfl, rfl⟩

theorem copy_frame (feed : Feed) (bin : Str) (ok wrote : Bool) :
    (h.copy feed bin ok wrote).now = h.now ∧ (h.copy feed bin ok wrote).dataDir = h.dataDir ∧
      (h.copy feed bin ok wrote).parquets = h.parquets := by
  unfold copy
  split
  · exact ⟨rfl, rfl, rfl⟩
  · split <;> exact ⟨rfl, rfl, rfl⟩

theorem lookup_copy (other : (feed', base bin') ≠ (feed, base bin)) (ok wrote : Bool) :
    (h.copy feed bin ok wrote).bucket.lookup (feed', base bin') =
      h.bucket.lookup (feed', base bin') := by
  unfold copy
  split
  · rfl
  · split
    · exact AList.lookup_insert_ne other
    · rfl

theorem ready_copy (ready : h.Ready convert feed bin) (ok wrote : Bool) (pc : Pc) :
    ((h.copy feed' bin' ok wrote).goto pc).Ready convert feed bin := by
  obtain ⟨now, dataDir, parquets⟩ := h.copy_frame feed' bin' ok wrote
  exact ready.frame now.ge (congrArg _ dataDir) (congrArg _ parquets)

/-- A copy that is confirmed has been made. -/
theorem stored_copy (ready : h.Ready convert feed bin) {ok : Bool}
    (copies : h.copies feed bin ok = true) (wrote : Bool) (pc : Pc) :
    ((h.copy feed bin ok wrote).goto pc).Stored convert feed bin := by
  obtain ⟨now, dataDir, -⟩ := h.copy_frame feed bin ok wrote
  obtain ⟨closed, file, parquet, present, eq, found⟩ := ready
  have went : ok = true := (Bool.and_eq_true_iff.mp copies).1
  refine ⟨closed.frame now.ge (congrArg _ dataDir), file, ?_, parquet, eq, ?_⟩
  · exact (congrArg (AList.lookup bin) dataDir).trans present
  · show (h.copy feed bin ok wrote).bucket.lookup (feed, base bin) = _
    unfold copy
    rw [found, went]
    exact AList.lookup_insert _

/-- Another bin's object is not touched by a copy. -/
theorem stored_copy_of_ne (stored : h.Stored convert feed bin)
    (selected : feed'.selects bin' = true) (ne : bin ≠ bin') (ok wrote : Bool) (pc : Pc) :
    ((h.copy feed' bin' ok wrote).goto pc).Stored convert feed bin := by
  obtain ⟨now, dataDir, -⟩ := h.copy_frame feed' bin' ok wrote
  exact stored.frame now.ge (congrArg _ dataDir)
    (lookup_copy (key_ne stored.1.1 selected ne) ok wrote)

theorem lookup_removeBin (ne : bin ≠ bin') :
    (h.removeBin bin').dataDir.lookup bin = h.dataDir.lookup bin :=
  AList.lookup_erase_ne ne

/-! ## A step of the script -/

theorem forall_mem_mk {Q : Feed → Str → Prop} {feed : Feed} {bins : List Str} :
    (∀ entry ∈ bins.map (Prod.mk feed), Q entry.1 entry.2) ↔ ∀ bin ∈ bins, Q feed bin :=
  List.forall_mem_map

theorem forall_mem_closed {feed : Feed} :
    ∀ entry ∈ (h.closed feed).map (Prod.mk feed), h.Closed entry.1 entry.2 :=
  forall_mem_mk.mpr fun _ mem => mem_closed.mp mem

theorem convert_inv {bins convertedBins : List Str} {failed : Nat} (inv : h.ScriptInv convert)
    (pc : h.pc = .convert (bin :: bins) convertedBins failed) {ok : Bool} {parquet : P}
    (converted : h.converted convert .polymarket bin ok = some parquet) :
    ((h.save .polymarket bin parquet).goto
      (.convert bins (convertedBins ++ [bin]) failed)).ScriptInv convert := by
  obtain ⟨nodup, awaited, ready, -⟩ := inv
  rw [pc] at nodup awaited ready
  have closed := forall_mem_mk.mp awaited
  have done := forall_mem_mk.mp ready
  have here := closed bin List.mem_cons_self
  refine ⟨?_, ?_, ?_, nofun⟩
  · have moved : (bins ++ (convertedBins ++ [bin])).Perm (bin :: bins ++ convertedBins) := by
      rw [← List.append_assoc]
      exact List.perm_append_singleton bin _
    exact moved.nodup_iff.mpr nodup
  · exact forall_mem_mk.mpr fun other mem => closed other (List.mem_cons_of_mem bin mem)
  · refine forall_mem_mk.mpr fun other mem => ?_
    rcases List.mem_append.mp mem with before | last
    · have ne : other ≠ bin := by
        rintro rfl
        exact (List.nodup_cons.mp nodup).1 (List.mem_append_right bins before)
      exact (done other before).frame le_rfl rfl
        (lookup_save (key_ne (done other before).1.1 here.1 ne) parquet)
    · rw [List.mem_singleton.mp last]
      exact ready_save here converted _

theorem spoil_inv {bins convertedBins : List Str} {failed : Nat} (inv : h.ScriptInv convert)
    (pc : h.pc = .convert (bin :: bins) convertedBins failed) (wrote : Bool) :
    ((h.spoil .polymarket bin wrote).goto
      (.convert bins convertedBins (failed + 1))).ScriptInv convert := by
  obtain ⟨nodup, awaited, ready, -⟩ := inv
  rw [pc] at nodup awaited ready
  have closed := forall_mem_mk.mp awaited
  have done := forall_mem_mk.mp ready
  obtain ⟨now, dataDir, -⟩ := h.spoil_frame .polymarket bin wrote
  refine ⟨(List.nodup_cons.mp nodup).2, ?_, ?_, nofun⟩
  · exact forall_mem_mk.mpr fun other mem =>
      (closed other (List.mem_cons_of_mem bin mem)).frame now.ge (congrArg _ dataDir)
  · refine forall_mem_mk.mpr fun other mem => ?_
    have ne : other ≠ bin := by
      rintro rfl
      exact (List.nodup_cons.mp nodup).1 (List.mem_append_right bins mem)
    exact (done other mem).frame now.ge (congrArg _ dataDir) (lookup_spoil
      (key_ne (done other mem).1.1 (closed bin List.mem_cons_self).1 ne) wrote)

theorem upload_inv {parquets convertedBins : List Str} {failed : Nat} {uploadOk : Bool}
    (inv : h.ScriptInv convert)
    (pc : h.pc = .upload (bin :: parquets) convertedBins failed uploadOk) (ok wrote : Bool) :
    ((h.copy .polymarket bin ok wrote).goto (.upload parquets convertedBins failed
      (uploadOk && h.copies .polymarket bin ok))).ScriptInv convert := by
  obtain ⟨nodup, -, ready, stored⟩ := inv
  rw [pc] at nodup ready stored
  rw [Pc.ready, ← List.map_append, forall_mem_mk] at ready
  have here := ready bin List.mem_cons_self
  refine ⟨nodup, nofun, ?_, ?_⟩
  · rw [goto, Pc.ready, ← List.map_append, forall_mem_mk]
    exact fun other mem => ready_copy (ready other (List.mem_cons_of_mem bin mem)) ok wrote _
  · cases both : uploadOk && h.copies .polymarket bin ok with
    | false => exact nofun
    | true =>
        obtain ⟨before, copies⟩ := Bool.and_eq_true_iff.mp both
        rw [before, Pc.stored, if_pos rfl, forall_mem_mk] at stored
        rw [goto, Pc.stored, if_pos rfl, forall_mem_mk]
        intro other mem
        by_cases same : other = bin
        · rw [same]
          exact stored_copy here copies wrote _
        · refine stored_copy_of_ne (stored other ?_) here.1.1 same ok wrote _
          obtain ⟨mem, gone⟩ := List.mem_filter.mp mem
          refine List.mem_filter.mpr ⟨mem, decide_eq_true ?_⟩
          exact List.not_mem_cons_of_ne_of_not_mem same (of_decide_eq_true gone)

/-- What remains to be removed is there when a bin has been removed. -/
theorem closed_removeBin {bins : List Str} (nodup : (bin :: bins).Nodup)
    (closed : ∀ other ∈ bins, h.Closed feed other) (pc : Pc) :
    ∀ other ∈ bins, ((h.removeBin bin).goto pc).Closed feed other :=
  fun other mem => (closed other mem).frame le_rfl
    (lookup_removeBin (ne_of_mem_of_not_mem mem (List.nodup_cons.mp nodup).1))

/-- A copy leaves the files alone. -/
theorem closed_copy {entries : List (Feed × Str)}
    (closed : ∀ entry ∈ entries, h.Closed entry.1 entry.2) (ok wrote : Bool) (pc : Pc) :
    ∀ entry ∈ entries, ((h.copy feed bin ok wrote).goto pc).Closed entry.1 entry.2 := by
  obtain ⟨now, dataDir, -⟩ := h.copy_frame feed bin ok wrote
  exact fun entry mem => (closed entry mem).frame now.ge (congrArg _ dataDir)

/-- The script has nothing in hand. -/
theorem scriptInv_of_nothing (hands : h.pc.hands = []) (awaited : h.pc.awaited = [])
    (ready : h.pc.ready = []) (stored : h.pc.stored = []) : h.ScriptInv convert := by
  constructor
  · exact hands ▸ List.nodup_nil
  all_goals
    intro entry mem
    simp only [awaited, ready, stored] at mem
    cases mem

theorem scriptInv_of_stepScript (inv : h.ScriptInv convert) {ok wrote : Bool}
    (step : h.stepScript convert ok wrote = some h') : h'.ScriptInv convert := by
  have goes := goes_of_stepScript convert step
  generalize pc : h.pc = at_ at goes
  cases goes with
  | nothingClosed | nothingConverted | notCopied | allRemoved | ends | stuck | stuckParquet
  | stuckBtc | stuckBtcParquet => exact scriptInv_of_nothing rfl rfl rfl rfl
  | find =>
      refine ⟨?_, forall_mem_closed, nofun, nofun⟩
      rw [goto, Pc.hands, List.append_nil]
      exact Directory.nodup_find _ _ _ _
  | allConverted =>
      obtain ⟨nodup, -, ready, -⟩ := inv
      rw [pc] at nodup ready
      refine ⟨nodup, nofun, ?_, ?_⟩
      · rw [goto, Pc.ready, ← List.map_append, forall_mem_mk]
        exact fun other mem =>
          forall_mem_mk.mp ready other ((List.mem_append.mp mem).elim id id)
      · rw [goto, Pc.stored, if_pos rfl, forall_mem_mk]
        intro other mem
        obtain ⟨mem, gone⟩ := List.mem_filter.mp mem
        exact (of_decide_eq_true gone mem).elim
  | convert converted => exact convert_inv inv pc converted
  | spoil => exact spoil_inv inv pc wrote
  | allCopied =>
      obtain ⟨nodup, -, -, stored⟩ := inv
      rw [pc] at nodup stored
      refine ⟨nodup, nofun, nofun, ?_⟩
      rw [Pc.stored, if_pos rfl, forall_mem_mk] at stored
      refine forall_mem_mk.mpr fun other mem => stored other (List.mem_filter.mpr ⟨mem, ?_⟩)
      exact decide_eq_true List.not_mem_nil
  | upload => exact upload_inv inv pc ok wrote
  | @remove bin _ _ =>
      obtain ⟨nodup, -, -, stored⟩ := inv
      rw [pc] at nodup stored
      have stored := forall_mem_mk.mp stored
      refine ⟨(List.nodup_cons.mp nodup).2, nofun, nofun, forall_mem_mk.mpr fun other mem => ?_⟩
      exact (stored other (List.mem_cons_of_mem bin mem)).frame le_rfl
        (lookup_removeBin (ne_of_mem_of_not_mem mem (List.nodup_cons.mp nodup).1)) rfl
  | removeParquet =>
      obtain ⟨nodup, -, -, stored⟩ := inv
      rw [pc] at nodup stored
      exact ⟨nodup, nofun, nofun, stored⟩
  | findBtc => exact ⟨Directory.nodup_find _ _ _ _, forall_mem_closed, nofun, nofun⟩
  | @convertBtc bin _ _ _ converted =>
      obtain ⟨nodup, awaited, -, -⟩ := inv
      rw [pc] at nodup awaited
      have closed := forall_mem_mk.mp awaited
      refine ⟨nodup, forall_mem_mk.mpr fun other mem => closed other (List.mem_cons_of_mem bin mem),
        ?_, nofun⟩
      intro entry mem
      rw [List.mem_singleton.mp mem]
      exact ready_save (closed bin List.mem_cons_self) converted _
  | @spoilBtc bin _ _ =>
      obtain ⟨nodup, awaited, -, -⟩ := inv
      rw [pc] at nodup awaited
      have closed := forall_mem_mk.mp awaited
      obtain ⟨now, dataDir, -⟩ := h.spoil_frame .coinbase bin wrote
      exact ⟨(List.nodup_cons.mp nodup).2, forall_mem_mk.mpr fun other mem =>
        (closed other (List.mem_cons_of_mem bin mem)).frame now.ge (congrArg _ dataDir), nofun, nofun⟩
  | @uploadBtc bin _ _ copies =>
      obtain ⟨nodup, awaited, ready, -⟩ := inv
      rw [pc] at nodup awaited ready
      refine ⟨nodup, closed_copy awaited ok wrote _, nofun, ?_⟩
      intro entry mem
      rw [List.mem_singleton.mp mem]
      exact stored_copy (ready (.coinbase, bin) List.mem_cons_self) copies wrote _
  | notCopiedBtc =>
      obtain ⟨nodup, awaited, -, -⟩ := inv
      rw [pc] at nodup awaited
      exact ⟨(List.nodup_cons.mp nodup).2, closed_copy awaited ok wrote _, nofun, nofun⟩
  | removeBtc =>
      obtain ⟨nodup, awaited, -, -⟩ := inv
      rw [pc] at nodup awaited
      exact ⟨(List.nodup_cons.mp nodup).2,
        forall_mem_mk.mpr (closed_removeBin nodup (forall_mem_mk.mp awaited) _), nofun, nofun⟩
  | removeBtcParquet =>
      obtain ⟨nodup, awaited, -, -⟩ := inv
      rw [pc] at nodup awaited
      exact ⟨nodup, awaited, nofun, nofun⟩

/-! ## What the script keeps -/

theorem Kept.copy {written : Str → List α} (kept : h.Kept convert written)
    (here : h.Closed feed bin) (ok wrote : Bool) (pc : Pc) :
    ((h.copy feed bin ok wrote).goto pc).Kept convert written := by
  obtain ⟨-, dataDir, -⟩ := h.copy_frame feed bin ok wrote
  have files (other : Str) : ((h.copy feed bin ok wrote).goto pc).dataDir.lookup other =
      h.dataDir.lookup other := congrArg _ dataDir
  intro feed' other selected
  rw [files]
  refine (kept feed' other selected).imp id fun ⟨absent, archived⟩ => ⟨absent, ?_⟩
  refine archived.imp id fun archived => archived.frame (lookup_copy (key_ne selected here.1 ?_) ok wrote)
  rintro rfl
  obtain ⟨file, present⟩ := here.isPresent
  rw [absent] at present
  cases present

theorem Kept.removeBin {written : Str → List α} (kept : h.Kept convert written)
    (stored : h.Stored convert feed bin) (pc : Pc) :
    ((h.removeBin bin).goto pc).Kept convert written := by
  intro feed' other selected
  by_cases same : other = bin
  · subst same
    obtain ⟨closed, file, present, archived⟩ := stored
    have gone : ((h.removeBin other).goto pc).dataDir.lookup other = none := AList.lookup_erase _ _
    refine .inr ⟨gone, .inr ?_⟩
    have whole : file.data = written other := by
      rcases kept feed' other selected with ⟨file', present', eq⟩ | ⟨absent, -⟩
      · cases present.symm.trans present'
        exact eq
      · rw [absent] at present
        cases present
    rw [feed_eq selected closed.1, ← whole]
    exact archived.frame rfl
  · have file : ((h.removeBin bin).goto pc).dataDir.lookup other = h.dataDir.lookup other :=
      lookup_removeBin same
    rw [file]
    exact kept feed' other selected

theorem kept_of_stepScript {written : Str → List α} (kept : h.Kept convert written)
    (inv : h.ScriptInv convert) {ok wrote : Bool}
    (step : h.stepScript convert ok wrote = some h') : h'.Kept convert written := by
  have spoiled (feed : Feed) (bin : Str) (pc : Pc) :
      ((h.spoil feed bin wrote).goto pc).Kept convert written := by
    unfold spoil
    split <;> exact kept
  have goes := goes_of_stepScript convert step
  generalize pc : h.pc = at_ at goes
  obtain ⟨-, -, ready, stored⟩ := inv
  rw [pc] at ready stored
  cases goes with
  | spoil | spoilBtc => exact spoiled _ _ _
  | @upload bin =>
      exact kept.copy (ready (.polymarket, bin) List.mem_cons_self).1 ok wrote _
  | @uploadBtc bin | @notCopiedBtc bin =>
      exact kept.copy (ready (.coinbase, bin) List.mem_cons_self).1 ok wrote _
  | @remove bin => exact kept.removeBin (stored (.polymarket, bin) List.mem_cons_self) _
  | @removeBtc bin => exact kept.removeBin (stored (.coinbase, bin) List.mem_cons_self) _
  | _ => exact kept

end Host

namespace Label

variable {α P : Type}

/-- What the step writes to the file of this name. -/
def rowsOf (name : Str) : Label α → List α
  | .append other rows => if other = name then rows else []
  | _ => []

/-- A writer only writes to a file that is there and not old, and only makes a file whose object is
not in the bucket. -/
def Live (h : Host α P) : Label α → Prop
  | .append name _ => (h.dataDir.lookup name).isSome = true ∧
      ¬ Directory.Aged minAgeMs h.now h.dataDir name
  | .create name => h.dataDir.lookup name = none →
      ∀ feed, feed.selects name = true → h.bucket.lookup (feed, base name) = none
  | _ => True

instance (h : Host α P) : (l : Label α) → Decidable (l.Live h)
  | .append _ _ => inferInstanceAs (Decidable (_ ∧ _))
  | .create name =>
      decidable_of_iff (h.dataDir.lookup name = none →
          (Feed.polymarket.selects name = true → h.bucket.lookup (.polymarket, base name) = none) ∧
            (Feed.coinbase.selects name = true → h.bucket.lookup (.coinbase, base name) = none))
        (imp_congr_right fun _ => ⟨fun both feed => by cases feed; exacts [both.1, both.2],
          fun all => ⟨all _, all _⟩⟩)
  | .wait _ => .isTrue True.intro
  | .start => .isTrue True.intro
  | .script _ _ => .isTrue True.intro
  | .kill => .isTrue True.intro

end Label

namespace Host

variable {α P : Type} {convert : Feed → List α → Option P} {h h' : Host α P}

/-- Closed files are left alone while time passes and the writers write. -/
theorem ScriptInv.frame (inv : h.ScriptInv convert) (now : h.now ≤ h'.now) (pc : h'.pc = h.pc)
    (parquets : h'.parquets = h.parquets) (bucket : h'.bucket = h.bucket)
    (files : ∀ feed bin, h.Closed feed bin → h'.dataDir.lookup bin = h.dataDir.lookup bin) :
    h'.ScriptInv convert := by
  obtain ⟨nodup, awaited, ready, stored⟩ := inv
  refine ⟨pc ▸ nodup, ?_, ?_, ?_⟩
  · intro entry mem
    have closed := awaited entry (pc ▸ mem)
    exact closed.frame now (files _ _ closed)
  · intro entry mem
    have here := ready entry (pc ▸ mem)
    exact here.frame now (files _ _ here.1) (by rw [parquets])
  · intro entry mem
    have here := stored entry (pc ▸ mem)
    exact here.frame now (files _ _ here.1) (by rw [bucket])

theorem create_inv {written : Str → List α} (kept : h.Kept convert written)
    (inv : h.ScriptInv convert) {name : Str} (live : (Label.create name : Label α).Live h) :
    ({ h with dataDir := h.dataDir.create h.now name } : Host α P).Kept convert written ∧
      ({ h with dataDir := h.dataDir.create h.now name } : Host α P).ScriptInv convert := by
  constructor
  · intro feed bin selected
    by_cases same : bin = name
    · subst same
      rcases kept feed bin selected with ⟨file, present, eq⟩ | ⟨absent, archived⟩
      · left
        exact ⟨file, by rw [Directory.create_of_some present]; exact present, eq⟩
      · left
        refine ⟨⟨h.now, []⟩, Directory.lookup_create_self absent h.now, ?_⟩
        rcases archived with none | ⟨parquet, -, found⟩
        · exact none.symm
        · rw [live absent feed selected] at found
          cases found
    · show (∃ file, (h.dataDir.create h.now name).lookup bin = some file ∧ _) ∨
        (h.dataDir.create h.now name).lookup bin = none ∧ _
      rw [Directory.lookup_create_of_ne same]
      exact kept feed bin selected
  · refine inv.frame le_rfl rfl rfl rfl fun feed bin closed => ?_
    by_cases same : bin = name
    · subst same
      obtain ⟨file, present⟩ := closed.isPresent
      show (h.dataDir.create h.now bin).lookup bin = _
      rw [Directory.create_of_some present]
    · exact Directory.lookup_create_of_ne same h.dataDir h.now

theorem append_inv {written : Str → List α} (kept : h.Kept convert written)
    (inv : h.ScriptInv convert) {name : Str} {rows : List α}
    (live : (Label.append name rows).Live h) :
    ({ h with dataDir := h.dataDir.append h.now name rows } : Host α P).Kept convert
        (fun bin => written bin ++ (Label.append name rows).rowsOf bin) ∧
      ({ h with dataDir := h.dataDir.append h.now name rows } : Host α P).ScriptInv convert := by
  constructor
  · intro feed bin selected
    by_cases same : name = bin
    · subst same
      obtain ⟨file, present⟩ := Option.isSome_iff_exists.mp live.1
      left
      refine ⟨_, Directory.lookup_append_self present h.now rows, ?_⟩
      rcases kept feed name selected with ⟨file', present', eq⟩ | ⟨absent, -⟩
      · cases present.symm.trans present'
        show file.data ++ rows = written name ++ if name = name then rows else []
        rw [if_pos rfl, eq]
      · rw [absent] at present
        cases present
    · show (∃ file, (h.dataDir.append h.now name rows).lookup bin = some file ∧ _) ∨
        (h.dataDir.append h.now name rows).lookup bin = none ∧ _
      have nothing : (Label.append name rows).rowsOf bin = [] := if_neg same
      dsimp only
      rw [Directory.lookup_append_of_ne (Ne.symm same), nothing, List.append_nil]
      exact kept feed bin selected
  · refine inv.frame le_rfl rfl rfl rfl fun feed bin closed => ?_
    refine Directory.lookup_append_of_ne ?_ h.dataDir h.now rows
    rintro rfl
    exact live.2 closed.2

/-- **One step of anyone.** -/
theorem kept_of_step {written : Str → List α} (kept : h.Kept convert written)
    (inv : h.ScriptInv convert) {l : Label α} (live : l.Live h)
    (step : h.step convert l = some h') :
    h'.Kept convert (fun bin => written bin ++ l.rowsOf bin) ∧ h'.ScriptInv convert := by
  have nothing : (fun bin => written bin ++ []) = written :=
    funext fun bin => List.append_nil (written bin)
  cases l with
  | wait ms =>
      cases step
      simp only [Label.rowsOf, nothing]
      exact ⟨kept, inv.frame (Nat.le_add_right _ _) rfl rfl rfl fun _ _ _ => rfl⟩
  | create name =>
      cases step
      simp only [Label.rowsOf, nothing]
      exact create_inv kept inv live
  | append name rows =>
      cases step
      exact append_inv kept inv live
  | start =>
      simp only [Host.step] at step
      split at step <;> cases step
      simp only [Label.rowsOf, nothing]
      exact ⟨kept, List.nodup_nil, nofun, nofun, nofun⟩
  | script ok wrote =>
      simp only [Label.rowsOf, nothing]
      exact ⟨kept_of_stepScript kept inv step, scriptInv_of_stepScript inv step⟩
  | kill =>
      cases step
      simp only [Label.rowsOf, nothing]
      exact ⟨kept, List.nodup_nil, nofun, nofun, nofun⟩

theorem kept_of_run {written : Str → List α} {labels : List (Label α)}
    (kept : h.Kept convert written) (inv : h.ScriptInv convert)
    (live : (machine convert).Along (fun h l => l.Live h) h labels)
    (reached : (machine convert).run h labels = some h') :
    h'.Kept convert (fun bin => written bin ++ labels.flatMap (Label.rowsOf bin)) ∧
      h'.ScriptInv convert := by
  induction labels generalizing h written with
  | nil =>
      cases reached
      simpa using ⟨kept, inv⟩
  | cons l labels ih =>
      obtain ⟨m, step, rest⟩ := Machine.run_cons_eq_some.mp reached
      obtain ⟨kept', inv'⟩ := kept_of_step kept inv live.1 step
      have final := ih kept' inv' (live.2 m step) rest
      simpa [List.append_assoc] using final

/-- What is in a file. -/
def contentOf (h : Host α P) (name : Str) : List α :=
  ((h.dataDir.lookup name).map FileData.data).getD []

theorem kept_contentOf (h : Host α P) : h.Kept convert h.contentOf := by
  intro feed bin selected
  unfold contentOf
  cases present : h.dataDir.lookup bin with
  | none => exact .inr ⟨rfl, .inl rfl⟩
  | some file => exact .inl ⟨file, rfl, rfl⟩

/-- The journal has been found closed, and is still there or has been removed. -/
def Sealed (h : Host α P) (feed : Feed) (bin : Str) : Prop :=
  h.Closed feed bin ∨ feed.selects bin = true ∧ h.dataDir.lookup bin = none ∧
    (h.bucket.lookup (feed, base bin)).isSome = true

/-- **Nothing is lost.** Whatever the script does, is refused or is killed at, what a journal held at
first and what has been written to it since is in its file, or the file has been removed and the
bucket has the conversion of all of it. -/
theorem nothing_lost (convert : Feed → List α → Option P) (h h' : Host α P) (labels : List (Label α))
    (resting : h.resting = true) (live : (machine convert).Along (fun h l => l.Live h) h labels)
    (reached : (machine convert).run h labels = some h') (feed : Feed) (bin : Str)
    (selected : feed.selects bin = true) :
    (∃ file, h'.dataDir.lookup bin = some file ∧
        file.data = h.contentOf bin ++ labels.flatMap (Label.rowsOf bin)) ∨
      h'.dataDir.lookup bin = none ∧
        (h.contentOf bin ++ labels.flatMap (Label.rowsOf bin) = [] ∨
          h'.Archived convert feed bin
            (h.contentOf bin ++ labels.flatMap (Label.rowsOf bin))) := by
  have inv : h.ScriptInv convert := by
    unfold Host.resting at resting
    split at resting
    · rename_i pc
      exact ⟨by rw [pc]; exact List.nodup_nil, by rw [pc]; exact nofun, by rw [pc]; exact nofun,
        by rw [pc]; exact nofun⟩
    · rename_i pc
      exact ⟨by rw [pc]; exact List.nodup_nil, by rw [pc]; exact nofun, by rw [pc]; exact nofun,
        by rw [pc]; exact nofun⟩
    · cases resting
  exact (kept_of_run (kept_contentOf h) inv live reached).1 feed bin selected

/-- A host that has just been set up. -/
def new (now : Nat) : Host α P := ⟨now, ∅, ∅, ∅, .idle⟩

/-- A converter that keeps the rows and refuses an empty journal. -/
def plain (_ : Feed) (rows : List Nat) : Option (List Nat) := if rows.isEmpty then none else some rows

/-- The first copy fails. An hour later the script gets as far as the first `rm` and is killed, while
another journal is being written. -/
def killedAfterRemove : List (Label Nat) :=
  let first := ascii "polymarket_20260307_0930.bin"
  let second := ascii "polymarket_20260307_1015.bin"
  [.create first, .append first [1, 2], .wait 60000, .append first [3], .wait 2700000, .start,
    .script true false, .script true false, .script true false, .script false true,
    .script true false, .create second, .append second [4], .wait 900000, .start,
    .script true false, .script true false, .script true false, .script true false,
    .append second [5], .script true false, .script true false, .kill]

theorem nothing_lost_killedAfterRemove :
    ∃ h' : Host Nat (List Nat), (machine plain).run (new 0) killedAfterRemove = some h' ∧
      h'.dataDir.lookup (ascii "polymarket_20260307_0930.bin") = none ∧
      h'.Archived plain .polymarket (ascii "polymarket_20260307_0930.bin") [1, 2, 3] := by
  have runs : ((machine plain).run (new 0) killedAfterRemove).map
      (fun h => (h.dataDir.lookup (ascii "polymarket_20260307_0930.bin")).isNone) = some true := by
    decide +kernel
  obtain ⟨h', reached, gone⟩ := Option.map_eq_some_iff.mp runs
  have gone := Option.isNone_iff_eq_none.mp gone
  refine ⟨h', reached, gone, ?_⟩
  rcases nothing_lost plain (new 0) h' killedAfterRemove rfl (by decide +kernel) reached .polymarket
      (ascii "polymarket_20260307_0930.bin") (by decide) with ⟨file, present, -⟩ | ⟨-, archived⟩
  · rw [gone] at present
    cases present
  · exact archived.resolve_left (by decide)

end Host

end Tickscope.Harvester.HourlyFlush
