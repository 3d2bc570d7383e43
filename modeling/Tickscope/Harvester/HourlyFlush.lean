import Tickscope.Coinbase.SealedSegments
import Tickscope.Lib.Directory
import Tickscope.Lib.Machine

/-!
# The hourly flush

`src/scripts/harvester/hourly_flush.sh` beside the programs that write the journals. A step of the
script is one command that touches a file or the bucket; its label says whether the command succeeds
and, if not, whether it has left something behind. The converters are `convert`; a parquet file that
a converter has not finished is `none`. The script can be killed between any two commands, and it ends
with status 1 where an `rm` fails, by `set -e`. One run ends before the next begins: cron starts one
an hour. The copy of `market_metadata.csv`, whose failure is not fatal, is left out.
-/

namespace Tickscope.Harvester.HourlyFlush

open Tickscope.Lib
open Tickscope.Coinbase.BtcJournal (minAgeMs)

/-- The two loops of the script, with `PARQUET_DIR` and `COINBASE_DIR`, `parquet/` and `coinbase/`. -/
inductive Feed where
  | polymarket
  | coinbase
deriving DecidableEq

/-- `-name "polymarket_*.bin"` and `-name "btc_*.bin"`. -/
def Feed.selects (feed : Feed) (name : Str) : Bool :=
  let start := match feed with
    | .polymarket => ascii "polymarket_"
    | .coinbase => ascii "btc_"
  start.isPrefixOf name && (ascii ".bin").isSuffixOf (name.drop start.length)

/-- `basename "$bin_file" .bin`, of a name that ends so. -/
def base (name : Str) : Str := name.take (name.length - 4)

/-- The next command of the script. -/
inductive Pc where
  | idle
  /-- `find ... -name "polymarket_*.bin"` -/
  | find
  | convert (closedBins convertedBins : List Str) (failed : Nat)
  | upload (parquets convertedBins : List Str) (failed : Nat) (uploadOk : Bool)
  /-- `rm -f "$bin_file"` -/
  | remove (convertedBins : List Str) (failed : Nat)
  /-- `rm -f "$parquet_file"` -/
  | removeParquet (bin : Str) (convertedBins : List Str) (failed : Nat)
  /-- `find ... -name "btc_*.bin"` -/
  | findBtc (failed : Nat)
  | convertBtc (closedBtc : List Str) (failed : Nat)
  | uploadBtc (bin : Str) (closedBtc : List Str) (failed : Nat)
  | removeBtc (bin : Str) (closedBtc : List Str) (failed : Nat)
  | removeBtcParquet (bin : Str) (closedBtc : List Str) (failed : Nat)
  | exited (code : Nat)
deriving DecidableEq

/-- The clock in milliseconds, `DATA_DIR`, the parquet files, the objects in S3 and the script. -/
structure Host (α P : Type) where
  now : Nat
  dataDir : Directory α
  parquets : AList fun _ : Feed × Str => Option P
  bucket : AList fun _ : Feed × Str => Option P
  pc : Pc

/-- A write to a journal, a moment that passes, or a step of the script. -/
inductive Label (α : Type) where
  | wait (ms : Nat)
  | create (name : Str)
  | append (name : Str) (rows : List α)
  | start
  | script (ok wrote : Bool)
  | kill

namespace Host

variable {α P : Type} (convert : Feed → List α → Option P)

/-! ## The commands -/

/-- What the converter writes for this file, if it succeeds. -/
def converted (h : Host α P) (feed : Feed) (bin : Str) (ok : Bool) : Option P :=
  if ok then (h.dataDir.lookup bin).bind fun file => convert feed file.data else none

/-- The converter has failed; it may have left a broken file. -/
def spoil (h : Host α P) (feed : Feed) (bin : Str) (wrote : Bool) : Host α P :=
  if wrote then { h with parquets := h.parquets.insert (feed, base bin) none } else h

def save (h : Host α P) (feed : Feed) (bin : Str) (parquet : P) : Host α P :=
  { h with parquets := h.parquets.insert (feed, base bin) (some parquet) }

/-- `aws s3 cp` reports success: the file is there and the copy has been made. -/
def copies (h : Host α P) (feed : Feed) (bin : Str) (ok : Bool) : Bool :=
  ok && (h.parquets.lookup (feed, base bin)).isSome

/-- `aws s3 cp`; a copy that fails may have been made all the same. -/
def copy (h : Host α P) (feed : Feed) (bin : Str) (ok wrote : Bool) : Host α P :=
  match h.parquets.lookup (feed, base bin) with
  | none => h
  | some parquet =>
      if ok || wrote then { h with bucket := h.bucket.insert (feed, base bin) parquet } else h

def removeBin (h : Host α P) (bin : Str) : Host α P :=
  { h with dataDir := h.dataDir.erase bin }

def removeParquet (h : Host α P) (feed : Feed) (bin : Str) : Host α P :=
  { h with parquets := h.parquets.erase (feed, base bin) }

/-- The files of a feed that the script takes to be closed. -/
def closed (h : Host α P) (feed : Feed) : List Str :=
  h.dataDir.find feed.selects minAgeMs h.now

def goto (h : Host α P) (pc : Pc) : Host α P := { h with pc := pc }

/-! ## The script -/

def stepScript (h : Host α P) (ok wrote : Bool) : Option (Host α P) :=
  match h.pc with
  | .idle => none
  | .exited _ => none
  | .find =>
      let closedBins := h.closed .polymarket
      some (h.goto (if closedBins.isEmpty then .exited 0 else .convert closedBins [] 0))
  | .convert [] convertedBins failed =>
      some (h.goto (if convertedBins.isEmpty then .exited 1
        else .upload convertedBins convertedBins failed true))
  | .convert (bin :: closedBins) convertedBins failed =>
      match h.converted convert .polymarket bin ok with
      | some parquet =>
          some ((h.save .polymarket bin parquet).goto
            (.convert closedBins (convertedBins ++ [bin]) failed))
      | none =>
          some ((h.spoil .polymarket bin wrote).goto
            (.convert closedBins convertedBins (failed + 1)))
  | .upload [] convertedBins failed uploadOk =>
      some (h.goto (if uploadOk then .remove convertedBins failed else .exited 2))
  | .upload (bin :: parquets) convertedBins failed uploadOk =>
      some ((h.copy .polymarket bin ok wrote).goto
        (.upload parquets convertedBins failed (uploadOk && h.copies .polymarket bin ok)))
  | .remove [] failed => some (h.goto (.findBtc failed))
  | .remove (bin :: convertedBins) failed =>
      if ok then some ((h.removeBin bin).goto (.removeParquet bin convertedBins failed))
      else some (h.goto (.exited 1))
  | .removeParquet bin convertedBins failed =>
      if ok then some ((h.removeParquet .polymarket bin).goto (.remove convertedBins failed))
      else some (h.goto (.exited 1))
  | .findBtc failed => some (h.goto (.convertBtc (h.closed .coinbase) failed))
  | .convertBtc [] failed => some (h.goto (.exited (if failed = 0 then 0 else 1)))
  | .convertBtc (bin :: closedBtc) failed =>
      match h.converted convert .coinbase bin ok with
      | some parquet =>
          some ((h.save .coinbase bin parquet).goto (.uploadBtc bin closedBtc failed))
      | none =>
          some ((h.spoil .coinbase bin wrote).goto (.convertBtc closedBtc (failed + 1)))
  | .uploadBtc bin closedBtc failed =>
      some ((h.copy .coinbase bin ok wrote).goto
        (if h.copies .coinbase bin ok then .removeBtc bin closedBtc failed
        else .convertBtc closedBtc failed))
  | .removeBtc bin closedBtc failed =>
      if ok then some ((h.removeBin bin).goto (.removeBtcParquet bin closedBtc failed))
      else some (h.goto (.exited 1))
  | .removeBtcParquet bin closedBtc failed =>
      if ok then some ((h.removeParquet .coinbase bin).goto (.convertBtc closedBtc failed))
      else some (h.goto (.exited 1))

/-- What a step of the script does, by the command that comes next. -/
inductive Goes (h : Host α P) (ok wrote : Bool) : Pc → Host α P → Prop
  | nothingClosed : (h.closed .polymarket).isEmpty = true →
    Goes h ok wrote .find (h.goto (.exited 0))
  | find : (h.closed .polymarket).isEmpty = false →
    Goes h ok wrote .find (h.goto (.convert (h.closed .polymarket) [] 0))
  | nothingConverted {convertedBins : List Str} {failed : Nat} : convertedBins.isEmpty = true →
    Goes h ok wrote (.convert [] convertedBins failed) (h.goto (.exited 1))
  | allConverted {convertedBins : List Str} {failed : Nat} : convertedBins.isEmpty = false →
    Goes h ok wrote (.convert [] convertedBins failed)
      (h.goto (.upload convertedBins convertedBins failed true))
  | convert {bin : Str} {closedBins convertedBins : List Str} {failed : Nat} {parquet : P} :
    h.converted convert .polymarket bin ok = some parquet →
    Goes h ok wrote (.convert (bin :: closedBins) convertedBins failed)
      ((h.save .polymarket bin parquet).goto
        (.convert closedBins (convertedBins ++ [bin]) failed))
  | spoil {bin : Str} {closedBins convertedBins : List Str} {failed : Nat} :
    h.converted convert .polymarket bin ok = none →
    Goes h ok wrote (.convert (bin :: closedBins) convertedBins failed)
      ((h.spoil .polymarket bin wrote).goto (.convert closedBins convertedBins (failed + 1)))
  | allCopied {convertedBins : List Str} {failed : Nat} :
    Goes h ok wrote (.upload [] convertedBins failed true) (h.goto (.remove convertedBins failed))
  | notCopied {convertedBins : List Str} {failed : Nat} :
    Goes h ok wrote (.upload [] convertedBins failed false) (h.goto (.exited 2))
  | upload {bin : Str} {parquets convertedBins : List Str} {failed : Nat} {uploadOk : Bool} :
    Goes h ok wrote (.upload (bin :: parquets) convertedBins failed uploadOk)
      ((h.copy .polymarket bin ok wrote).goto
        (.upload parquets convertedBins failed (uploadOk && h.copies .polymarket bin ok)))
  | allRemoved {failed : Nat} : Goes h ok wrote (.remove [] failed) (h.goto (.findBtc failed))
  | remove {bin : Str} {convertedBins : List Str} {failed : Nat} : ok = true →
    Goes h ok wrote (.remove (bin :: convertedBins) failed)
      ((h.removeBin bin).goto (.removeParquet bin convertedBins failed))
  | stuck {bin : Str} {convertedBins : List Str} {failed : Nat} : ok = false →
    Goes h ok wrote (.remove (bin :: convertedBins) failed) (h.goto (.exited 1))
  | removeParquet {bin : Str} {convertedBins : List Str} {failed : Nat} : ok = true →
    Goes h ok wrote (.removeParquet bin convertedBins failed)
      ((h.removeParquet .polymarket bin).goto (.remove convertedBins failed))
  | stuckParquet {bin : Str} {convertedBins : List Str} {failed : Nat} : ok = false →
    Goes h ok wrote (.removeParquet bin convertedBins failed) (h.goto (.exited 1))
  | findBtc {failed : Nat} :
    Goes h ok wrote (.findBtc failed) (h.goto (.convertBtc (h.closed .coinbase) failed))
  | ends {failed : Nat} :
    Goes h ok wrote (.convertBtc [] failed) (h.goto (.exited (if failed = 0 then 0 else 1)))
  | convertBtc {bin : Str} {closedBtc : List Str} {failed : Nat} {parquet : P} :
    h.converted convert .coinbase bin ok = some parquet →
    Goes h ok wrote (.convertBtc (bin :: closedBtc) failed)
      ((h.save .coinbase bin parquet).goto (.uploadBtc bin closedBtc failed))
  | spoilBtc {bin : Str} {closedBtc : List Str} {failed : Nat} :
    h.converted convert .coinbase bin ok = none →
    Goes h ok wrote (.convertBtc (bin :: closedBtc) failed)
      ((h.spoil .coinbase bin wrote).goto (.convertBtc closedBtc (failed + 1)))
  | uploadBtc {bin : Str} {closedBtc : List Str} {failed : Nat} :
    h.copies .coinbase bin ok = true →
    Goes h ok wrote (.uploadBtc bin closedBtc failed)
      ((h.copy .coinbase bin ok wrote).goto (.removeBtc bin closedBtc failed))
  | notCopiedBtc {bin : Str} {closedBtc : List Str} {failed : Nat} :
    h.copies .coinbase bin ok = false →
    Goes h ok wrote (.uploadBtc bin closedBtc failed)
      ((h.copy .coinbase bin ok wrote).goto (.convertBtc closedBtc failed))
  | removeBtc {bin : Str} {closedBtc : List Str} {failed : Nat} : ok = true →
    Goes h ok wrote (.removeBtc bin closedBtc failed)
      ((h.removeBin bin).goto (.removeBtcParquet bin closedBtc failed))
  | stuckBtc {bin : Str} {closedBtc : List Str} {failed : Nat} : ok = false →
    Goes h ok wrote (.removeBtc bin closedBtc failed) (h.goto (.exited 1))
  | removeBtcParquet {bin : Str} {closedBtc : List Str} {failed : Nat} : ok = true →
    Goes h ok wrote (.removeBtcParquet bin closedBtc failed)
      ((h.removeParquet .coinbase bin).goto (.convertBtc closedBtc failed))
  | stuckBtcParquet {bin : Str} {closedBtc : List Str} {failed : Nat} : ok = false →
    Goes h ok wrote (.removeBtcParquet bin closedBtc failed) (h.goto (.exited 1))

theorem goes_of_stepScript {h h' : Host α P} {ok wrote : Bool}
    (step : h.stepScript convert ok wrote = some h') : h.Goes convert ok wrote h.pc h' := by
  unfold stepScript at step
  cases pc : h.pc with
  | idle | exited =>
      rw [pc] at step
      cases step
  | find =>
      rw [pc] at step
      cases none : (h.closed .polymarket).isEmpty <;> simp only [none] at step <;> cases step
      · exact .find none
      · exact .nothingClosed none
  | convert closedBins convertedBins failed =>
      rw [pc] at step
      cases closedBins with
      | nil =>
          cases none : convertedBins.isEmpty <;> simp only [none] at step <;> cases step
          · exact .allConverted none
          · exact .nothingConverted none
      | cons bin closedBins =>
          cases converted : h.converted convert .polymarket bin ok <;>
            simp only [converted] at step <;> cases step
          · exact .spoil converted
          · exact .convert converted
  | upload parquets convertedBins failed uploadOk =>
      rw [pc] at step
      cases parquets with
      | nil =>
          cases uploadOk <;> cases step
          · exact .notCopied
          · exact .allCopied
      | cons bin parquets =>
          cases step
          exact .upload
  | remove convertedBins failed =>
      rw [pc] at step
      cases convertedBins with
      | nil =>
          cases step
          exact .allRemoved
      | cons bin convertedBins =>
          cases ok <;> cases step
          · exact .stuck rfl
          · exact .remove rfl
  | removeParquet bin convertedBins failed =>
      rw [pc] at step
      cases ok <;> cases step
      · exact .stuckParquet rfl
      · exact .removeParquet rfl
  | findBtc failed =>
      rw [pc] at step
      cases step
      exact .findBtc
  | convertBtc closedBtc failed =>
      rw [pc] at step
      cases closedBtc with
      | nil =>
          cases step
          exact .ends
      | cons bin closedBtc =>
          cases converted : h.converted convert .coinbase bin ok <;>
            simp only [converted] at step <;> cases step
          · exact .spoilBtc converted
          · exact .convertBtc converted
  | uploadBtc bin closedBtc failed =>
      rw [pc] at step
      cases copied : h.copies .coinbase bin ok <;> simp only [copied] at step <;> cases step
      · exact .notCopiedBtc copied
      · exact .uploadBtc copied
  | removeBtc bin closedBtc failed =>
      rw [pc] at step
      cases ok <;> cases step
      · exact .stuckBtc rfl
      · exact .removeBtc rfl
  | removeBtcParquet bin closedBtc failed =>
      rw [pc] at step
      cases ok <;> cases step
      · exact .stuckBtcParquet rfl
      · exact .removeBtcParquet rfl

/-- The script is not running. -/
def resting (h : Host α P) : Bool :=
  match h.pc with
  | .idle => true
  | .exited _ => true
  | _ => false

def step (h : Host α P) : Label α → Option (Host α P)
  | .wait ms => some { h with now := h.now + ms }
  | .create name => some { h with dataDir := h.dataDir.create h.now name }
  | .append name rows => some { h with dataDir := h.dataDir.append h.now name rows }
  | .start => if h.resting then some (h.goto .find) else none
  | .script ok wrote => h.stepScript convert ok wrote
  | .kill => some (h.goto .idle)

def machine : Machine (Host α P) (Label α) := ⟨step convert⟩

end Host

/-! ## Names -/

theorem eq_of_base {feed feed' : Feed} {name name' : Str} (selected : feed.selects name = true)
    (selected' : feed'.selects name' = true) (same : base name = base name') : name = name' := by
  have ends : ∀ {feed : Feed} {name : Str}, feed.selects name = true →
      name = base name ++ ascii ".bin" := by
    intro feed name selected
    obtain ⟨-, suffix⟩ := Bool.and_eq_true_iff.mp selected
    obtain ⟨front, rfl⟩ := (List.isSuffixOf_iff_suffix.mp suffix).trans (List.drop_suffix _ name)
    have length : (front ++ ascii ".bin").length - 4 = front.length := by
      rw [List.length_append]
      rfl
    rw [base, length, List.take_left]
  rw [ends selected, ends selected', same]

/-- A name belongs to one feed at most. -/
theorem feed_eq {feed feed' : Feed} {name : Str} (selected : feed.selects name = true)
    (selected' : feed'.selects name = true) : feed = feed' := by
  have first : ∀ {feed : Feed}, feed.selects name = true →
      name.head? = some (match feed with | .polymarket => 112 | .coinbase => 98) := by
    intro feed selected
    obtain ⟨starts, -⟩ := Bool.and_eq_true_iff.mp selected
    obtain ⟨rest, rfl⟩ := List.isPrefixOf_iff_prefix.mp starts
    cases feed <;> rfl
  have same := (first selected).symm.trans (first selected')
  cases feed <;> cases feed' <;> first | rfl | cases same

end Tickscope.Harvester.HourlyFlush
