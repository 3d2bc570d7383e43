import Tickscope.Harvester.Rediscovery

/-!
# Metadata that is pruned alone

Rows are dropped by their end date, files by their age, and `metadata_known` keeps the tokens of
dropped rows, so that `append_new_metadata_csv` never writes them again. A market that is listed
past its end date loses its row for the rest of the session: `neverPrunedAlone_fails_when_listed`.
`neverPrunedAlone` says what a session must be spared for every listed and every captured token
to keep its row.
-/

namespace Tickscope.Harvester

open Tickscope.Gateway Tickscope.Lib

namespace System

/-- Between two cycles, every token of the last listing and of every data file has a row. -/
def NeverPrunedAlone (s : System) : Prop :=
  s.phase = .sleeping →
    (∀ token ∈ s.listing, HasRow s.csv token) ∧
      ∀ entry ∈ s.dataDir, ∀ token ∈ entry.content, HasRow s.csv token

/-- No row is dropped of a token that is listed in the cycle or has ticks in a file that stays. -/
def SparesRows (cfg : Config) (s : System) (time : Int) : Phase → Prop
  | .pruneMetadata fresh =>
      ∀ m ∈ expiredRows cfg s.csv time,
        m.tokenId ∉ tokens fresh ∧ ¬ Referenced s.dataDir m.tokenId
  | _ => True

/-- What is fetched can be stored, no row is dropped that is needed, and no token is listed or
captured after its row was dropped. -/
def Spares (cfg : Config) (s : System) : Label → Prop
  | .boot fresh _ => ∀ m ∈ fresh, RowOk m
  | .wake fresh => ∀ m ∈ fresh, RowOk m ∧ m.tokenId ∉ s.dropped
  | .step _ time _ => s.SparesRows cfg time s.phase
  | .capture _ token _ => token ∉ s.dropped
  | .files _ => True

instance (cfg : Config) (s : System) (time : Int) :
    ∀ phase, Decidable (s.SparesRows cfg time phase)
  | .pruneMetadata fresh =>
      inferInstanceAs (Decidable (∀ m ∈ expiredRows cfg s.csv time,
        m.tokenId ∉ tokens fresh ∧ ¬ Referenced s.dataDir m.tokenId))
  | .down => .isTrue True.intro
  | .sleeping => .isTrue True.intro
  | .append _ => .isTrue True.intro
  | .subscribe _ => .isTrue True.intro
  | .retention _ => .isTrue True.intro
  | .pruneFiles _ => .isTrue True.intro

instance (cfg : Config) (s : System) : ∀ l, Decidable (s.Spares cfg l)
  | .boot fresh _ => inferInstanceAs (Decidable (∀ m ∈ fresh, RowOk m))
  | .wake fresh => inferInstanceAs (Decidable (∀ m ∈ fresh, RowOk m ∧ m.tokenId ∉ s.dropped))
  | .step _ time _ => inferInstanceAs (Decidable (s.SparesRows cfg time s.phase))
  | .capture _ token _ => inferInstanceAs (Decidable (token ∉ s.dropped))
  | .files _ => .isTrue True.intro

/-! ## The invariant -/

/-- The fetched rows of the cycle: before the append they can be stored and were not dropped,
after it their tokens have rows. -/
def FreshOk (s : System) : Prop :=
  match s.phase with
  | .append fresh => ∀ m ∈ fresh, RowOk m ∧ m.tokenId ∉ s.dropped
  | .subscribe fresh => ∀ token ∈ tokens fresh, HasRow s.csv token
  | .retention fresh => ∀ token ∈ tokens fresh, HasRow s.csv token
  | .pruneFiles fresh => ∀ token ∈ tokens fresh, HasRow s.csv token
  | .pruneMetadata fresh => ∀ token ∈ tokens fresh, HasRow s.csv token
  | .sleeping => ∀ token ∈ s.listing, HasRow s.csv token
  | .down => True

structure Inv (s : System) : Prop where
  csv : s.phase = .down ∧ s.csv = none ∨ CsvOk s.csv
  metadataKnown : ∀ token ∈ s.metadataKnown, HasRow s.csv token ∨ token ∈ s.dropped
  knownIds : ∀ token ∈ s.knownIds, HasRow s.csv token ∨ token ∈ s.dropped
  files : ∀ token, Referenced s.dataDir token → HasRow s.csv token
  fresh : s.FreshOk

theorem new_inv : new.Inv where
  csv := .inl ⟨rfl, rfl⟩
  metadataKnown := nofun
  knownIds := nofun
  files := by
    rintro token ⟨entry, mem, -⟩
    cases mem
  fresh := True.intro

theorem Inv.rowsKept {s : System} (inv : s.Inv) : s.NeverPrunedAlone := by
  intro sleeping
  have fresh := inv.fresh
  unfold FreshOk at fresh
  rw [sleeping] at fresh
  exact ⟨fresh, fun entry mem token has => inv.files token ⟨entry, mem, has⟩⟩

/-! ## Files -/

theorem referenced_record {dataDir : List (DirEntry (List Str))} {name token other : Str}
    {mtime : BitVec 64} (referenced : Referenced (record dataDir name token mtime) other) :
    Referenced dataDir other ∨ other = token := by
  rcases referenced with ⟨entry, mem, has⟩
  unfold record at mem
  split at mem
  · obtain ⟨old, mem', rfl⟩ := List.mem_map.mp mem
    split at has
    · rcases List.mem_append.mp has with has | has
      · exact .inl ⟨old, mem', has⟩
      · exact .inr (List.mem_singleton.mp has)
    · exact .inl ⟨old, mem', has⟩
  · rcases List.mem_append.mp mem with mem | mem
    · exact .inl ⟨entry, mem, has⟩
    · rw [List.mem_singleton.mp mem] at has
      exact .inr (List.mem_singleton.mp has)

theorem referenced_prune {now : BitVec 64} {retentionDays : BitVec 32}
    {dataDir : List (DirEntry (List Str))} {token : Str}
    (referenced : Referenced (pruneOldDataFiles now retentionDays dataDir) token) :
    Referenced dataDir token := by
  rcases referenced with ⟨entry, mem, has⟩
  exact ⟨entry, (List.mem_filter.mp mem).1, has⟩

/-! ## Steps -/

/-- A step that leaves the table, the dropped tokens and the known tokens alone. -/
theorem Inv.frame {s s' : System} (inv : s.Inv) (csv : s'.csv = s.csv)
    (known : s'.metadataKnown = s.metadataKnown) (dropped : s'.dropped = s.dropped)
    (csvOk : s'.phase = .down ∧ s.csv = none ∨ CsvOk s.csv)
    (knownIds : ∀ token ∈ s'.knownIds, HasRow s.csv token ∨ token ∈ s.dropped)
    (files : ∀ token, Referenced s'.dataDir token → HasRow s.csv token) (fresh : s'.FreshOk) :
    s'.Inv where
  csv := csv ▸ csvOk
  metadataKnown := by
    rw [known, csv, dropped]
    exact inv.metadataKnown
  knownIds := by
    rw [csv, dropped]
    exact knownIds
  files := csv ▸ files
  fresh := fresh

/-- A cycle runs on a table that is well formed. -/
theorem Inv.csvOk {s : System} (inv : s.Inv) (up : s.phase ≠ .down) : CsvOk s.csv :=
  inv.csv.resolve_left fun down => up down.1

theorem Inv.boot {s : System} (inv : s.Inv) (cfg : Config) {fresh : List TokenMeta}
    (new : ∀ m ∈ fresh, RowOk m) (steady : Int) : (s.boot cfg fresh steady).Inv := by
  rcases mergeAndWrite_spec (inv.csv.imp_left And.right) new with ⟨ok, kept, added⟩
  refine ⟨.inr ok, fun token mem => .inl mem, fun token mem => .inl (added token ?_),
    fun token mem => kept token (inv.files token mem), added⟩
  exact List.map_subset _ (filterByQuestion_subset fresh cfg.filterStr) mem

theorem Inv.append {s : System} (inv : s.Inv) {fresh : List TokenMeta}
    (state : s.phase = .append fresh) :
    ({ s with
        csv := some (appendNewMetadataCsv s.csv s.metadataKnown fresh).1
        metadataKnown := (appendNewMetadataCsv s.csv s.metadataKnown fresh).2
        phase := .subscribe fresh } : System).Inv := by
  have allowed : ∀ m ∈ fresh, RowOk m ∧ m.tokenId ∉ s.dropped := by
    have fresh := inv.fresh
    unfold FreshOk at fresh
    rw [state] at fresh
    exact fresh
  obtain ⟨ok, kept, known⟩ := appendNew_spec (inv.csvOk (by rw [state]; exact nofun))
    s.metadataKnown fun m mem => (allowed m mem).1
  -- what is known has a row or was dropped
  have known' : ∀ token ∈ (appendNewMetadataCsv s.csv s.metadataKnown fresh).2,
      HasRow (some (appendNewMetadataCsv s.csv s.metadataKnown fresh).1) token ∨
        token ∈ s.dropped := by
    intro token mem
    rcases known token mem with mem | has
    · exact (inv.metadataKnown token mem).imp_left (kept token)
    · exact .inl has
  refine ⟨.inr ok, known', fun token mem => (inv.knownIds token mem).imp_left (kept token),
    fun token referenced => kept token (inv.files token referenced), fun token mem => ?_⟩
  obtain ⟨m, mem', rfl⟩ := List.mem_map.mp mem
  exact (known' _ ((tokens_subset_known s.metadataKnown fresh).2 mem)).resolve_right
    (allowed m mem').2

theorem Inv.pruneMetadata {s : System} (inv : s.Inv) (cfg : Config) {fresh : List TokenMeta}
    {time : Int} (ok : CsvOk s.csv) (rows : ∀ token ∈ tokens fresh, HasRow s.csv token)
    (spared : ∀ m ∈ expiredRows cfg s.csv time,
      m.tokenId ∉ tokens fresh ∧ ¬ Referenced s.dataDir m.tokenId) :
    ({ s with
        csv := pruneMetadataCsv s.csv (isoDateDaysAgo time cfg.retentionDays)
        phase := .sleeping
        listing := tokens fresh
        dropped := s.dropped ++ tokens (expiredRows cfg s.csv time) } : System).Inv := by
  rcases prune_spec ok (isoDateDaysAgo time cfg.retentionDays) with ⟨ok', kept⟩
  have kept : ∀ token, HasRow s.csv token →
      HasRow (pruneMetadataCsv s.csv (isoDateDaysAgo time cfg.retentionDays)) token ∨
        ∃ m ∈ expiredRows cfg s.csv time, m.tokenId = token := by
    intro token has
    refine (kept token has).imp_right ?_
    intro dropped
    rcases dropped with ⟨m, mem, eq, expired⟩
    exact ⟨m, List.mem_filter.mpr ⟨mem, by rw [expired]; rfl⟩, eq⟩
  have dropped : ∀ token, HasRow s.csv token ∨ token ∈ s.dropped →
      HasRow (pruneMetadataCsv s.csv (isoDateDaysAgo time cfg.retentionDays)) token ∨
        token ∈ s.dropped ++ tokens (expiredRows cfg s.csv time) := by
    rintro token (has | before)
    · refine (kept token has).imp_right fun ⟨m, mem, eq⟩ => ?_
      exact List.mem_append_right _ (List.mem_map.mpr ⟨m, mem, eq⟩)
    · exact .inr (List.mem_append_left _ before)
  refine ⟨.inr ok', fun token mem => dropped token (inv.metadataKnown token mem),
    fun token mem => dropped token (inv.knownIds token mem), fun token referenced => ?_,
    fun token mem => ?_⟩
  · refine (kept token (inv.files token referenced)).resolve_right ?_
    intro dropped
    rcases dropped with ⟨m, mem, rfl⟩
    exact (spared m mem).2 referenced
  · refine (kept token (rows token mem)).resolve_right ?_
    intro dropped
    rcases dropped with ⟨m, mem', rfl⟩
    exact (spared m mem').1 mem

/-- The cycle takes up new tokens. -/
theorem Inv.subscribe {s : System} (inv : s.Inv) (cfg : Config) {fresh : List TokenMeta}
    (state : s.phase = .subscribe fresh) (rows : ∀ token ∈ tokens fresh, HasRow s.csv token) :
    ({ s with
        knownIds := (newRows s.knownIds (filterByQuestion fresh cfg.filterStr)).2
        phase := .retention fresh } : System).Inv := by
  have ok := inv.csvOk (by rw [state]; exact nofun)
  refine inv.frame rfl rfl rfl (.inr ok) (fun token mem => ?_) inv.files rows
  rcases (mem_known_newRows _ _ token).mp mem with mem | mem
  · exact inv.knownIds token mem
  · have listed := List.map_subset TokenMeta.tokenId
      (List.Subset.trans (newRows_subset _ _) (filterByQuestion_subset fresh cfg.filterStr)) mem
    exact .inl (rows token listed)

theorem Inv.steps {cfg : Config} {s s' : System} (inv : s.Inv) {l : Label}
    (spares : s.Spares cfg l) (steps : s.Steps cfg l s') : s'.Inv := by
  have fresh := inv.fresh
  unfold FreshOk at fresh
  cases steps with
  | boot => exact inv.boot cfg spares _
  | skip => exact inv
  | wake state =>
      have ok := inv.csvOk (by rw [state]; exact nofun)
      exact inv.frame rfl rfl rfl (.inr ok) inv.knownIds inv.files spares
  | append state => exact inv.append state
  | subscribe state =>
      rw [state] at fresh
      exact inv.subscribe cfg state fresh
  | notDue state | due state =>
      have ok := inv.csvOk (by rw [state]; exact nofun)
      rw [state] at fresh
      exact inv.frame rfl rfl rfl (.inr ok) inv.knownIds inv.files fresh
  | pruneFiles state =>
      have ok := inv.csvOk (by rw [state]; exact nofun)
      rw [state] at fresh
      exact inv.frame rfl rfl rfl (.inr ok) inv.knownIds
        (fun token referenced => inv.files token (referenced_prune referenced)) fresh
  | pruneMetadata state =>
      have ok := inv.csvOk (by rw [state]; exact nofun)
      unfold Spares at spares
      rw [state] at fresh spares
      exact inv.pruneMetadata cfg ok fresh spares
  | capture up known =>
      refine inv.frame rfl rfl rfl inv.csv inv.knownIds (fun other referenced => ?_) inv.fresh
      rcases referenced_record referenced with referenced | rfl
      · exact inv.files other referenced
      · exact (inv.knownIds other known).resolve_right spares
  | files same =>
      refine inv.frame rfl rfl rfl inv.csv inv.knownIds (fun token referenced => ?_) inv.fresh
      rcases referenced with ⟨entry, mem, has⟩
      exact inv.files token (same entry mem token has)

/-! ## Every run -/

theorem keeps_inv (cfg : Config) : (machine cfg).Keeps (Spares cfg) Inv :=
  fun _ _ _ inv spares step => inv.steps spares (steps_of_step step)

/-- **Metadata is not pruned alone**, in every run that is spared as `Spares` says. -/
theorem neverPrunedAlone (cfg : Config) (labels : List Label) (s : System)
    (spared : (machine cfg).Along (Spares cfg) new labels)
    (reached : (machine cfg).run new labels = some s) : s.NeverPrunedAlone :=
  ((keeps_inv cfg).run new_inv spared reached).rowsKept

/-! ## Two runs -/

def monthlyConfig : Config := ⟨[], 30⟩

/-- A row of a market that ends on a date. -/
def sampleRow (token endDate : String) : TokenMeta where
  tokenId := ascii token
  conditionId := ascii "0xc1"
  outcome := ascii "YES"
  question := ascii "Up, or \"down\"?"
  endDate := ascii endDate
  active := true
  takerFeeBps := 0

/-- A cycle on 2026-06-01, at a reading of the steady clock. -/
def juneCycle (fresh : List TokenMeta) (steady : Int) : List Label :=
  .wake fresh :: List.replicate 5 (.step steady 1780272000 june2026)

/-- A market of last year is no longer listed and its row goes; a market without an end date
stays listed, and its ticks are captured. -/
def sparedRun : List Label :=
  [.boot [sampleRow "11" "2025-01-01T00:00:00Z", sampleRow "12" ""] 0] ++
    juneCycle [sampleRow "12" "", sampleRow "13" "2026-07-01T00:00:00Z"] oneHour ++
    [.capture (ascii "polymarket_20260601_0000.bin") (ascii "13") june2026]

theorem neverPrunedAlone_spared :
    ∃ s, (machine monthlyConfig).run new sparedRun = some s ∧
      (s.phase = .sleeping ∧ s.listing = [ascii "12", ascii "13"] ∧ s.dropped = [ascii "11"]) ∧
      s.NeverPrunedAlone := by
  have ends : ((machine monthlyConfig).run new sparedRun).map
      (fun s => (s.phase, s.listing, s.dropped)) =
        some (.sleeping, [ascii "12", ascii "13"], [ascii "11"]) := by decide +kernel
  rcases Option.map_eq_some_iff.mp ends with ⟨s, reached, eq⟩
  simp only [Prod.mk.injEq] at eq
  refine ⟨s, reached, eq, neverPrunedAlone monthlyConfig sparedRun s ?_ reached⟩
  decide +kernel

/-- A market is still listed five months after its end date. -/
def listedRun : List Label :=
  .boot [sampleRow "11" "2026-01-01T00:00:00Z"] 0 ::
    juneCycle [sampleRow "11" "2026-01-01T00:00:00Z"] oneHour

/-- Its row is gone after the cycle that has fetched it. -/
theorem neverPrunedAlone_fails_when_listed :
    ∃ s, (machine monthlyConfig).run new listedRun = some s ∧ ¬ s.NeverPrunedAlone := by
  have ends : ((machine monthlyConfig).run new listedRun).map
      (fun s => (s.phase, s.listing, readCsvTokens s.csv)) =
        some (.sleeping, [ascii "11"], []) := by decide +kernel
  rcases Option.map_eq_some_iff.mp ends with ⟨s, reached, eq⟩
  simp only [Prod.mk.injEq] at eq
  rcases eq with ⟨sleeping, listing, rows⟩
  refine ⟨s, reached, fun never => ?_⟩
  have has := (never sleeping).1 (ascii "11") (by rw [listing]; exact List.mem_cons_self)
  rw [HasRow, rows] at has
  cases has

end System

end Tickscope.Harvester
