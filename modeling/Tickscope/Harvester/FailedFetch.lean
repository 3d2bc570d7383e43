import Tickscope.Gateway.FetchActiveTokens
import Tickscope.Gateway.MergePositions
import Tickscope.Harvester.Rediscovery

/-!
# A fetch that fails at boot

A listing that ends at a failing page looks like a short listing, and the merge takes what it does
not have for delisted. `failedFetch_iff` says which active rows keep their flag: those whose
tokens are on the pages before the failing one.
-/

namespace Tickscope.Harvester

open Tickscope.Gateway Tickscope.Lib Tickscope.Lib.OnDemand

variable {D : Type}

/-- The tokens that the API lists as active. -/
def listedActive (json : GammaJson D) (listing : List (Result Value)) : List Str :=
  tokens ((listing.flatMap (readMarket json)).filter TokenMeta.active)

/-- A row of the token has had its active flag cleared. -/
def FlagCleared (existing table : List TokenMeta) (token : Str) : Prop :=
  ∃ (i : Nat) (m m' : TokenMeta), existing[i]? = some m ∧ table[i]? = some m' ∧
    m.tokenId = token ∧ m.active = true ∧ m'.active = false

/-- Every active row whose token is listed as active has its token on a page before the failing
one, and the last row of the token is replaced by an active one. -/
def Fetched (json : GammaJson D) (listing : List (Result Value)) (failing : Nat)
    (existing : List TokenMeta) : Prop :=
  ∀ i m, existing[i]? = some m → m.active = true → m.tokenId ∈ listedActive json listing →
    ∃ f, lastRow (rowsBefore json listing failing) m.tokenId = some f ∧
      (LastAt (tokens existing) m.tokenId i → f.active = true)

/-- The flag of one row after a merge. -/
theorem flag_mergeRows {existing fresh : List TokenMeta} {i : Nat} {m : TokenMeta}
    (old : existing[i]? = some m) (active : m.active = true) :
    (∀ m', (mergeRows existing fresh)[i]? = some m' → m'.active = true) ↔
      ∃ f, lastRow fresh m.tokenId = some f ∧
        (LastAt (tokens existing) m.tokenId i → f.active = true) := by
  rw [getElem?_mergeRows old]
  cases found : lastRow fresh m.tokenId with
  | none =>
      have absent : m.tokenId ∉ tokens fresh := lastRowOf_eq_none.mp found
      rw [if_neg absent]
      refine iff_of_false (fun all => ?_) nofun
      have cleared := all _ rfl
      cases cleared
  | some f =>
      have mem : m.tokenId ∈ tokens fresh := by
        by_contra absent
        rw [lastRow, lastRowOf_eq_none.mpr absent] at found
        cases found
      rw [if_pos mem]
      by_cases last : LastAt (tokens existing) m.tokenId i
      · simp [last]
      · simp [last, active]

/-- **A failed fetch.** The boot sequence writes the rows that were read, merged with those that were
fetched, and no row whose token the API still lists as active has its flag cleared exactly when all
of them were fetched. -/
theorem failedFetch_iff {json : GammaJson D} {server : Nat → Option HttpResponse}
    {listing : List (Result Value)} {failing : Nat} (stops : Stops json server listing failing)
    (cfg : Config) (s : System) (steady : Int) :
    let table := mergeRows (readCsvTokens s.csv) (fetchActiveTokens json server)
    (s.boot cfg (fetchActiveTokens json server) steady).csv = some (encodeCsv table) ∧
      ((∀ token ∈ listedActive json listing, ¬ FlagCleared (readCsvTokens s.csv) table token) ↔
        Fetched json listing failing (readCsvTokens s.csv)) := by
  refine ⟨rfl, ?_⟩
  rw [fetchActiveTokens_of_stops stops]
  constructor
  · intro none i m old active listed
    refine (flag_mergeRows old active).mp fun m' new => ?_
    by_contra cleared
    rw [Bool.not_eq_true] at cleared
    exact none m.tokenId listed ⟨i, m, m', old, new, rfl, active, cleared⟩
  · rintro fetched token listed ⟨i, m, m', old, new, rfl, active, cleared⟩
    have kept := (flag_mergeRows old active).mpr (fetched i m old active listed) m' new
    rw [cleared] at kept
    cases kept

/-- When already the first page fails, every row loses its flag. -/
theorem failedFetch_firstPage {json : GammaJson D} {server : Nat → Option HttpResponse}
    {listing : List (Result Value)} (stops : Stops json server listing 0)
    (existing : List TokenMeta) :
    ∀ m ∈ mergeRows existing (fetchActiveTokens json server), m.active = false := by
  rw [fetchActiveTokens_of_stops stops, rowsBefore, Nat.zero_mul]
  intro m mem
  obtain ⟨row, -, rfl⟩ := List.mem_map.mp mem
  rw [delist_of_not_mem List.not_mem_nil]

/-! ## A listing of 101 markets -/

/-- Texts stand for themselves, and for the array of one string. -/
def plainGamma : GammaJson Unit where
  iterate raw := .ok (.array [.ok (.string raw)])
  unescape raw := .ok raw
  uint64InString _ := .ok 0
  doubleInString _ := .ok ()
  double _ := .ok 0

/-- An active market with one token. -/
def plainMarket (token : String) : Result Value :=
  .ok (.object [(ascii "active", .ok (.bool true)),
    (ascii "clobTokenIds", .ok (.string (ascii token)))])

/-- A hundred markets with one token on the first page, and one on the second. -/
def twoPages : List (Result Value) := List.replicate 100 (plainMarket "1") ++ [plainMarket "2"]

/-- simdjson with the one document that the first page is. -/
def firstPageGamma : GammaJson Unit :=
  { plainGamma with
    iterate := fun raw =>
      if raw = [] then .ok (.array (twoPages.take 100)) else plainGamma.iterate raw }

/-- The second page cannot be had. -/
def firstPageOnly (offset : Nat) : Option HttpResponse :=
  if offset = 0 then some ⟨200, []⟩ else none

theorem firstPage_stops : Stops firstPageGamma firstPageOnly twoPages 1 where
  lt := by decide
  full := by decide
  objects := by
    intro entry mem
    have mem : entry ∈ List.replicate 100 (plainMarket "1") := mem
    rw [(List.mem_replicate.mp mem).2]
    rfl
  served := by
    intro page lt
    obtain rfl : page = 0 := by omega
    rfl
  failed := rfl

/-- The rows of both tokens, as they are written. -/
def bothActive : System :=
  { System.new with
    csv := some (encodeCsv [⟨ascii "1", [], ascii "YES", [], [], true, 0⟩,
      ⟨ascii "2", [], ascii "YES", [], [], true, 0⟩]) }

theorem failedFetch_secondPage :
    let table := mergeRows (readCsvTokens bothActive.csv)
      (fetchActiveTokens firstPageGamma firstPageOnly)
    (bothActive.boot ⟨[], 0⟩ (fetchActiveTokens firstPageGamma firstPageOnly) 0).csv =
        some (encodeCsv table) ∧
      ((∀ token ∈ listedActive firstPageGamma twoPages,
          ¬ FlagCleared (readCsvTokens bothActive.csv) table token) ↔
        Fetched firstPageGamma twoPages 1 (readCsvTokens bothActive.csv)) :=
  failedFetch_iff firstPage_stops ⟨[], 0⟩ bothActive 0

/-- The token on the second page is listed as active, and its flag is cleared. -/
theorem failedFetch_delists :
    Stops firstPageGamma firstPageOnly twoPages 1 ∧
      ascii "2" ∈ listedActive firstPageGamma twoPages ∧
      (bothActive.boot ⟨[], 0⟩ (fetchActiveTokens firstPageGamma firstPageOnly) 0).csv =
        some (encodeCsv (mergeRows (readCsvTokens bothActive.csv)
          (rowsBefore firstPageGamma twoPages 1))) ∧
      FlagCleared (readCsvTokens bothActive.csv)
        (mergeRows (readCsvTokens bothActive.csv) (rowsBefore firstPageGamma twoPages 1))
        (ascii "2") := by
  refine ⟨firstPage_stops, by decide +kernel, ?_, ?_⟩
  · rw [← fetchActiveTokens_of_stops firstPage_stops]
    rfl
  · have rows : (readCsvTokens bothActive.csv)[1]? =
        some ⟨ascii "2", [], ascii "YES", [], [], true, 0⟩ := by decide +kernel
    have merged : (mergeRows (readCsvTokens bothActive.csv)
        (rowsBefore firstPageGamma twoPages 1))[1]? =
          some ⟨ascii "2", [], ascii "YES", [], [], false, 0⟩ := by decide +kernel
    exact ⟨1, _, _, rows, merged, rfl, rfl, rfl⟩

end Tickscope.Harvester
