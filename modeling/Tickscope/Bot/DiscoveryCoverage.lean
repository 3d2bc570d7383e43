import Mathlib.Data.List.Flatten
import Tickscope.Bot.BotDiscovery

/-!
# What a scan covers

The server hands out at most 100 entries a page. A page of 200 is never full then, so the scan
stops after its first page: it covers the listing exactly when nothing that it should find is
listed behind position 100 (`scan_covers_iff`).
-/

namespace Tickscope.Bot

open Tickscope.Lib Tickscope.Lib.OnDemand

variable {D : Type} {json : Simdjson D} {filter : Str}

/-! ## The listing and its server -/

/-- The `conditionId` of an entry. -/
def conditionIdOf (json : Simdjson D) (entry : Result Value) : Option Str :=
  match getObject entry with
  | .error _ => none
  | .ok market => (json.getString (field market (ascii "conditionId"))).toOption

/-- The token ids of an entry. -/
def tokenIdsOf (json : Simdjson D) (entry : Result Value) : List Str :=
  match getObject entry with
  | .error _ => []
  | .ok market =>
      match json.getString (field market (ascii "clobTokenIds")) with
      | .error _ => []
      | .ok clobStr =>
          match parseClobTokenIds json clobStr with
          | none => []
          | some (yes, no) => [yes, no]

/-- A static market listing. -/
structure Listing (json : Simdjson D) where
  entries : List (Result Value)
  length_le : entries.length ≤ 2000
  conditionIds : (entries.filterMap (conditionIdOf json)).Nodup
  tokenIds : (entries.flatMap (tokenIdsOf json)).Nodup

/-- The results that a page can have. -/
def gammaCap : Nat := 100

/-- The response for an offset; every request asks for `PAGE_SIZE` entries and succeeds. -/
def Listing.serve (listing : Listing json) (offset : Nat) : Option (List (Result Value)) :=
  some ((listing.entries.drop offset).take (min pageSize gammaCap))

/-- The readings of the clock during a scan, none of them later than its end. -/
structure ScanClock where
  reading : Nat → Nat → Int
  finish : Int
  le_finish : ∀ offset i, reading offset i ≤ finish

/-- A listed market that should be found: its question matches, it has a condition id and two
token ids, and it ends more than `MIN_REMAINING_S` after the scan. -/
def Eligible (json : Simdjson D) (filter : Str) (finish : Int) (entry : Result Value)
    (info : MarketMeta) : Prop :=
  ∃ market clobStr, entry = .ok (.object market) ∧
    json.getString (field market (ascii "question")) = .ok info.question ∧
    matchesFilter info.question filter = true ∧
    json.getString (field market (ascii "conditionId")) = .ok info.conditionId ∧
    endTimeMs json market = info.endTimeMs ∧
    (0 < info.endTimeMs ∧ finish + minRemainingS * 1000 < info.endTimeMs) ∧
    json.getString (field market (ascii "clobTokenIds")) = .ok clobStr ∧
    parseClobTokenIds json clobStr = some (info.yesTokenId, info.noTokenId)

/-- Every market that should be found is tracked, and each of its tokens is returned once. -/
def Covers (json : Simdjson D) (filter : Str) (finish : Int) (listing : Listing json)
    (found : BotDiscovery × List Str) : Prop :=
  ∀ entry ∈ listing.entries, ∀ info, Eligible json filter finish entry info →
    found.1.books.has info.conditionId = true ∧
      found.2.count info.yesTokenId = 1 ∧ found.2.count info.noTokenId = 1

/-! ## Entries and pages -/

theorem readEntry_of_eligible {finish now : Int} {entry : Result Value} {info : MarketMeta}
    (eligible : Eligible json filter finish entry info) (early : now ≤ finish) :
    readEntry json filter now entry = (true, some info) := by
  obtain ⟨market, clobStr, isObject, question, matched, cid, ends, ⟨known, late⟩, clob, ids⟩ :=
    eligible
  have inTime : isExpiredOrTooSoon now info.endTimeMs = false := decide_eq_false (by omega)
  simp only [readEntry, getObject_eq_ok.mpr isObject, question, matched, cid, ends, inTime, clob,
    ids]
  rfl

/-- The market that is read from an entry has the entry's ids. -/
theorem ids_of_readEntry {now : Int} {entry : Result Value} {info : MarketMeta}
    (read : (readEntry json filter now entry).2 = some info) :
    conditionIdOf json entry = some info.conditionId ∧
      tokenIdsOf json entry = [info.yesTokenId, info.noTokenId] := by
  unfold readEntry at read
  cases isObject : getObject entry with
  | error e =>
      rw [isObject] at read
      cases read
  | ok market =>
      rw [isObject] at read
      dsimp only at read
      split at read
      · cases read
      · split at read
        · cases read
        · split at read
          · cases read
          · rename_i cid cidOk
            split at read
            · cases read
            · split at read
              · cases read
              · rename_i clobStr clobOk
                split at read
                · cases read
                · rename_i yes no ids
                  cases read
                  unfold conditionIdOf tokenIdsOf
                  rw [isObject]
                  dsimp only
                  rw [cidOk, clobOk]
                  dsimp only
                  rw [ids]
                  exact ⟨rfl, rfl⟩

section Pages

variable (json filter) (clock : Nat → Int)

theorem readPage_cons (i : Nat) (entry : Result Value) (page : List (Result Value)) :
    (readPage json filter clock i (entry :: page)).1 =
      (readEntry json filter (clock i) entry).2.toList ++
        (readPage json filter clock (i + 1) page).1 :=
  rfl

theorem readPage_count_le (i : Nat) (page : List (Result Value)) :
    (readPage json filter clock i page).2 ≤ page.length := by
  induction page generalizing i with
  | nil => exact Nat.le_refl 0
  | cons entry page ih =>
      have rest := ih (i + 1)
      show (if (readEntry json filter (clock i) entry).1 then 1 else 0) +
        (readPage json filter clock (i + 1) page).2 ≤ page.length + 1
      split <;> omega

/-- The condition ids and the tokens of the markets on a page are those of its entries. -/
theorem ids_readPage (i : Nat) (page : List (Result Value)) :
    List.Sublist ((readPage json filter clock i page).1.map MarketMeta.conditionId)
        (page.filterMap (conditionIdOf json)) ∧
      List.Sublist
        ((readPage json filter clock i page).1.flatMap fun info => [info.yesTokenId, info.noTokenId])
        (page.flatMap (tokenIdsOf json)) := by
  induction page generalizing i with
  | nil => exact ⟨.slnil, .slnil⟩
  | cons entry page ih =>
      rcases ih (i + 1) with ⟨cids, tokens⟩
      rw [readPage_cons]
      cases read : (readEntry json filter (clock i) entry).2 with
      | none =>
          refine ⟨cids.trans ?_, ?_⟩
          · exact (List.sublist_cons_self entry page).filterMap _
          · rw [List.flatMap_cons]
            exact tokens.trans (List.sublist_append_right _ _)
      | some info =>
          rcases ids_of_readEntry read with ⟨cid, ids⟩
          refine ⟨?_, ?_⟩
          · rw [List.filterMap_cons_some cid]
            exact cids.cons_cons _
          · rw [List.flatMap_cons, ids]
            exact (List.Sublist.refl [info.yesTokenId, info.noTokenId]).append tokens

theorem mem_readPage {finish : Int} (early : ∀ i, clock i ≤ finish) (i : Nat)
    {page : List (Result Value)} {entry : Result Value} {info : MarketMeta} (mem : entry ∈ page)
    (eligible : Eligible json filter finish entry info) :
    info ∈ (readPage json filter clock i page).1 := by
  induction page generalizing i with
  | nil => cases mem
  | cons first page ih =>
      rw [readPage_cons]
      rcases List.mem_cons.mp mem with rfl | mem
      · rw [readEntry_of_eligible eligible (early i)]
        exact List.mem_append_left _ (List.mem_singleton_self info)
      · exact List.mem_append_right _ (ih (i + 1) mem)

end Pages

/-! ## The scan -/

namespace Scan

/-- Markets with ids of their own that are not tracked yet are all added. -/
theorem addMarkets_spec {scan : Scan} {markets : List MarketMeta}
    (fresh : ∀ info ∈ markets, scan.books.has info.conditionId = false)
    (nodup : (markets.map MarketMeta.conditionId).Nodup) :
    (scan.addMarkets markets).allTokens =
        scan.allTokens ++ markets.flatMap (fun info => [info.yesTokenId, info.noTokenId]) ∧
      ∀ cid, (scan.addMarkets markets).books.has cid = true ↔
        scan.books.has cid = true ∨ cid ∈ markets.map MarketMeta.conditionId := by
  induction markets generalizing scan with
  | nil => exact ⟨(List.append_nil _).symm, fun cid => (or_iff_left List.not_mem_nil).symm⟩
  | cons info markets ih =>
      rcases List.forall_mem_cons.mp fresh with ⟨here, later⟩
      rcases List.nodup_cons.mp nodup with ⟨notIn, nodup⟩
      let next : Scan := { scan with
        books := scan.books.addMarket info
        allTokens := scan.allTokens ++ [info.yesTokenId, info.noTokenId] }
      have added : scan.addMarkets (info :: markets) = next.addMarkets markets :=
        if_neg (by rw [here]; decide)
      have fresh' : ∀ other ∈ markets, next.books.has other.conditionId = false := by
        intro other mem
        rw [Bool.eq_false_iff, ne_eq, BookState.has_addMarket, not_or]
        refine ⟨by rw [later other mem]; decide, fun same => notIn ?_⟩
        exact same ▸ List.mem_map_of_mem mem
      rcases ih fresh' nodup with ⟨tokens, has⟩
      rw [added]
      refine ⟨?_, fun cid => ?_⟩
      · rw [tokens, List.flatMap_cons, List.append_assoc]
      · rw [has, BookState.has_addMarket, or_assoc, List.map_cons, List.mem_cons]

/-- A scan that is done after the first batch. -/
theorem loop_of_batch {fetch : Nat → WorkerResult} {scan : Scan} (running : scan.done = false)
    (ends : (scan.merge ((List.range 8).map fun w => fetch (0 + w * pageSize))).done = true) :
    loop fetch scan 0 = scan.merge ((List.range 8).map fun w => fetch (0 + w * pageSize)) := by
  have batch : min nScanWorkers (maxPages - 0 / pageSize) = 8 := by decide
  rw [loop, if_pos ⟨running, by decide⟩]
  dsimp only
  rw [batch, if_neg (by decide), loop, if_neg]
  rw [ends]
  exact nofun

/-- A first page that is short is all that is merged. -/
theorem loop_of_short {fetch : Nat → WorkerResult} (got : 0 ≤ (fetch 0).pageCount)
    (short : (fetch 0).pageCount < pageSize) {scan : Scan} (running : scan.done = false) :
    loop fetch scan 0 =
      { scan.addMarkets (fetch 0).markets with lastOffset := (fetch 0).offset, done := true } := by
  have merged : scan.merge ((List.range 8).map fun w => fetch (0 + w * pageSize)) =
      { scan.addMarkets (fetch 0).markets with lastOffset := (fetch 0).offset, done := true } := by
    show scan.merge (fetch 0 :: _) = _
    rw [merge, if_neg (by omega), if_pos short]
  rw [loop_of_batch running (by rw [merged]), merged]

end Scan

/-- The entries of the first page. -/
def Listing.firstPage (listing : Listing json) : List (Result Value) :=
  listing.entries.take gammaCap

/-- The markets that a scan of the listing finds: those of the first page. -/
def Listing.found (listing : Listing json) (filter : Str) (clock : ScanClock) : List MarketMeta :=
  (readPage json filter (clock.reading 0) 0 listing.firstPage).1

section Scans

variable (listing : Listing json) (filter) (clock : ScanClock)

theorem Listing.nodup_found :
    ((listing.found filter clock).map MarketMeta.conditionId).Nodup ∧
      ((listing.found filter clock).flatMap fun info =>
        [info.yesTokenId, info.noTokenId]).Nodup := by
  rcases ids_readPage json filter (clock.reading 0) 0 listing.firstPage with ⟨cids, tokens⟩
  have first : List.Sublist listing.firstPage listing.entries := List.take_sublist ..
  refine ⟨(cids.trans (first.filterMap _)).nodup listing.conditionIds, ?_⟩
  exact (tokens.trans (first.flatMap _)).nodup listing.tokenIds

/-- A scan of the listing, from no tracked markets. -/
theorem Listing.scanAll_eq (filterStr : Str) :
    let found := (BotDiscovery.new .new filterStr).scanAll json listing.serve clock.reading
    (∀ cid, found.1.books.has cid = true ↔
      cid ∈ (listing.found (toLower filterStr) clock).map MarketMeta.conditionId) ∧
      found.2 = (listing.found (toLower filterStr) clock).flatMap fun info =>
        [info.yesTokenId, info.noTokenId] := by
  intro found
  let fetch := fun offset =>
    fetchGammaPageWorker json (toLower filterStr) (clock.reading offset) offset
      (listing.serve offset)
  have first : fetch 0 = ⟨listing.found (toLower filterStr) clock,
      (readPage json (toLower filterStr) (clock.reading 0) 0 listing.firstPage).2, 0⟩ := rfl
  have short : (readPage json (toLower filterStr) (clock.reading 0) 0 listing.firstPage).2 <
      pageSize := by
    have count := readPage_count_le json (toLower filterStr) (clock.reading 0) 0 listing.firstPage
    have length : listing.firstPage.length ≤ 100 := List.length_take_le ..
    show _ < 200
    omega
  have scanned := @Scan.loop_of_short fetch (by rw [first]; exact Int.natCast_nonneg _)
    (by rw [first]; exact Int.ofNat_lt.mpr short) ⟨.new, [], 0, false⟩ rfl
  obtain ⟨tokens, has⟩ := @Scan.addMarkets_spec ⟨.new, [], 0, false⟩
    (listing.found (toLower filterStr) clock) (fun _ _ => rfl)
    (listing.nodup_found (toLower filterStr) clock).1
  have books : found.1.books = (Scan.loop fetch ⟨.new, [], 0, false⟩ 0).books := rfl
  have returned : found.2 = (Scan.loop fetch ⟨.new, [], 0, false⟩ 0).allTokens := rfl
  rw [books, returned, scanned, first]
  refine ⟨fun cid => (has cid).trans (or_iff_right nofun), tokens.trans (List.nil_append _)⟩

end Scans

theorem count_flatMap_of_mem {markets : List MarketMeta} {info : MarketMeta} (mem : info ∈ markets)
    (nodup : (markets.flatMap fun info => [info.yesTokenId, info.noTokenId]).Nodup) :
    (markets.flatMap fun info => [info.yesTokenId, info.noTokenId]).count info.yesTokenId = 1 ∧
      (markets.flatMap fun info => [info.yesTokenId, info.noTokenId]).count info.noTokenId = 1 := by
  refine ⟨List.count_eq_one_of_mem nodup (List.mem_flatMap.mpr ⟨info, mem, ?_⟩),
    List.count_eq_one_of_mem nodup (List.mem_flatMap.mpr ⟨info, mem, ?_⟩)⟩
  · exact List.mem_cons_self
  · exact List.mem_cons_of_mem _ (List.mem_singleton_self _)

theorem conditionIdOf_of_eligible {finish : Int} {entry : Result Value} {info : MarketMeta}
    (eligible : Eligible json filter finish entry info) :
    conditionIdOf json entry = some info.conditionId := by
  have read := readEntry_of_eligible eligible (Int.le_refl finish)
  exact (ids_of_readEntry (congrArg Prod.snd read)).1

theorem Listing.entries_eq (listing : Listing json) :
    listing.entries = listing.firstPage ++ listing.entries.drop 100 :=
  (List.take_append_drop 100 listing.entries).symm

/-- What is listed behind the first page is not tracked. -/
theorem Listing.not_tracked_of_late (listing : Listing json) (clock : ScanClock) (filterStr : Str)
    {finish : Int} {entry : Result Value} {info : MarketMeta}
    (late : entry ∈ listing.entries.drop 100)
    (eligible : Eligible json (toLower filterStr) finish entry info) :
    ((BotDiscovery.new .new filterStr).scanAll json listing.serve clock.reading).1.books.has
      info.conditionId = false := by
  rcases listing.scanAll_eq clock filterStr with ⟨has, -⟩
  rw [Bool.eq_false_iff]
  intro tracked
  -- a tracked id comes from the first page, and ids are listed once
  have first : info.conditionId ∈ listing.firstPage.filterMap (conditionIdOf json) :=
    (ids_readPage json (toLower filterStr) (clock.reading 0) 0 listing.firstPage).1.subset
      ((has _).mp tracked)
  have later : info.conditionId ∈ (listing.entries.drop 100).filterMap (conditionIdOf json) :=
    List.mem_filterMap.mpr ⟨entry, late, conditionIdOf_of_eligible eligible⟩
  have nodup := listing.conditionIds
  rw [listing.entries_eq, List.filterMap_append, List.nodup_append] at nodup
  exact nodup.2.2 _ first _ later rfl

/-- **What a scan covers.** From no tracked markets and over a static listing, the scan finds all
that it should exactly when none of it is listed behind the first 100 entries. -/
theorem scan_covers_iff (json : Simdjson D) (filterStr : Str) (listing : Listing json)
    (clock : ScanClock) :
    Covers json (toLower filterStr) clock.finish listing
        ((BotDiscovery.new .new filterStr).scanAll json listing.serve clock.reading) ↔
      ∀ entry ∈ listing.entries.drop 100, ∀ info,
        ¬ Eligible json (toLower filterStr) clock.finish entry info := by
  constructor
  · intro covers entry late info eligible
    rcases covers entry (List.mem_of_mem_drop late) info eligible with ⟨tracked, -⟩
    rw [listing.not_tracked_of_late clock filterStr late eligible] at tracked
    cases tracked
  · intro noneLate entry mem info eligible
    rcases listing.scanAll_eq clock filterStr with ⟨has, tokens⟩
    rw [listing.entries_eq] at mem
    have onFirst : entry ∈ listing.firstPage := (List.mem_append.mp mem).resolve_right
      fun late => noneLate entry late info eligible
    have found : info ∈ listing.found (toLower filterStr) clock :=
      mem_readPage json (toLower filterStr) (clock.reading 0) (clock.le_finish 0) 0 onFirst eligible
    refine ⟨(has _).mpr (List.mem_map_of_mem found), ?_⟩
    rw [tokens]
    exact count_flatMap_of_mem found (listing.nodup_found (toLower filterStr) clock).2

/-! ## A market at position 100 -/

/-- A parser that knows one list of token ids. -/
def twoIdsJson : Simdjson Unit where
  iterate raw :=
    if raw = ascii "[\"1\",\"2\"]" then
      .ok (.array [.ok (.string (ascii "1")), .ok (.string (ascii "2"))])
    else .error (.parse 3)
  unescape := .ok
  uint64InString _ := .error (.parse 9)
  doubleInString _ := .error (.parse 9)

def otherMarket (i : Nat) : Result Value :=
  .ok (.object [(ascii "question", .ok (.string (ascii "Will it rain?"))),
    (ascii "conditionId", .ok (.string (decimal i)))])

def upOrDownFields : Fields :=
  [(ascii "question", .ok (.string (ascii "Bitcoin Up or Down"))),
    (ascii "conditionId", .ok (.string (ascii "0xc1"))),
    (ascii "endDateIso", .ok (.string (ascii "2030-01-01"))),
    (ascii "clobTokenIds", .ok (.string (ascii "[\"1\",\"2\"]")))]

def upOrDownMeta : MarketMeta where
  conditionId := ascii "0xc1"
  question := ascii "Bitcoin Up or Down"
  yesTokenId := ascii "1"
  noTokenId := ascii "2"
  endTimeMs := 1893542399000

/-- A hundred other markets, and then one that the filter is for. -/
def lateListing : Listing twoIdsJson where
  entries := (List.range 100).map otherMarket ++ [.ok (.object upOrDownFields)]
  length_le := by decide
  conditionIds := by decide +kernel
  tokenIds := by decide +kernel

/-- It is 2026-06-01 during the whole scan. -/
def june2026Clock : ScanClock := ⟨fun _ _ => 1780272000000, 1780272000000, fun _ _ => le_rfl⟩

theorem upOrDown_eligible : Eligible twoIdsJson (toLower (ascii "up or down"))
    june2026Clock.finish (.ok (.object upOrDownFields)) upOrDownMeta :=
  ⟨upOrDownFields, ascii "[\"1\",\"2\"]", rfl, by decide +kernel⟩

/-- The market is open for years, and the scan does not find it. -/
theorem scan_misses_position_100 :
    ¬ Covers twoIdsJson (toLower (ascii "up or down")) june2026Clock.finish lateListing
      ((BotDiscovery.new .new (ascii "up or down")).scanAll twoIdsJson lateListing.serve
        june2026Clock.reading) := by
  intro covers
  have late : .ok (.object upOrDownFields) ∈ lateListing.entries.drop 100 :=
    List.mem_singleton_self _
  rcases covers _ (List.mem_of_mem_drop late) _ upOrDown_eligible with ⟨tracked, -⟩
  rw [lateListing.not_tracked_of_late june2026Clock (ascii "up or down") late
    upOrDown_eligible] at tracked
  cases tracked

end Tickscope.Bot
