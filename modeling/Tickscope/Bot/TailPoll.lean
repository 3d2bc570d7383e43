import Mathlib.Data.List.Count
import Tickscope.Bot.DiscoveryCoverage

/-!
# What a poll finds

A poll walks the pages from `last_offset_` on, until one has fewer than 200 counted entries. The
listing is ranked by volume, so a new market can be listed anywhere. `tail_poll_finds_iff` says of
every history of scans and polls, and of every listing after it, when a poll of which no request
fails leaves every market tracked that should be.
-/

namespace Tickscope.Bot

open Tickscope.Lib Tickscope.Lib.OnDemand

variable {D : Type}

/-! ## Entries -/

/-- The entry counts towards the length of its page. -/
def counted (json : Simdjson D) (filter : Str) (entry : Result Value) : Bool :=
  match getObject entry with
  | .error _ => false
  | .ok market =>
      match json.getString (field market (ascii "question")) with
      | .error _ => false
      | .ok question =>
          match json.getString (field market (ascii "conditionId")) with
          | .error _ => !matchesFilter question filter
          | .ok _ => true

/-- A poll reads an entry as a scan does, leaves out what is tracked, and counts differently. -/
theorem readTailEntry_eq (json : Simdjson D) (filter : Str) (now : Int) (books : BookState)
    (entry : Result Value) :
    readTailEntry json filter now books entry =
      (counted json filter entry,
        (readEntry json filter now entry).2.filter fun info => !books.has info.conditionId) := by
  unfold readTailEntry readEntry counted
  cases getObject entry with
  | error e => rfl
  | ok market =>
      dsimp only
      cases json.getString (field market (ascii "question")) with
      | error e => rfl
      | ok question =>
          dsimp only
          cases json.getString (field market (ascii "conditionId")) with
          | error e => cases matchesFilter question filter <;> rfl
          | ok cid =>
              cases matchesFilter question filter with
              | false => rfl
              | true =>
                  dsimp only [Bool.not_true]
                  cases isExpiredOrTooSoon now (endTimeMs json market) with
                  | true => cases books.has cid <;> rfl
                  | false =>
                      cases json.getString (field market (ascii "clobTokenIds")) with
                      | error e => cases books.has cid <;> rfl
                      | ok clobStr =>
                          dsimp only
                          cases parseClobTokenIds json clobStr with
                          | none => cases books.has cid <;> rfl
                          | some ids =>
                              cases tracked : books.has cid <;> simp [tracked, Option.filter]

/-! ## Pages -/

theorem has_tailAdd (tail : Tail) (market : Option MarketMeta) (cid : Str) :
    (tail.add market).books.has cid = true ↔
      tail.books.has cid = true ∨ ∃ info, market = some info ∧ info.conditionId = cid := by
  cases market with
  | none => exact (or_iff_left (fun found => nomatch found.choose_spec.1)).symm
  | some info =>
      rw [Tail.add, BookState.has_addMarket]
      refine or_congr_right ⟨fun same => ⟨info, rfl, same.symm⟩, ?_⟩
      rintro ⟨_, eq, same⟩
      cases eq
      exact same.symm

section Pages

variable (json : Simdjson D) (filter : Str) (clock : Nat → Int)

theorem has_tailPage (i : Nat) (tail : Tail) (page : List (Result Value)) (cid : Str) :
    (tailPage json filter clock i tail page).1.books.has cid = true ↔
      tail.books.has cid = true ∨
        ∃ info ∈ (readPage json filter clock i page).1, info.conditionId = cid := by
  induction page generalizing i tail with
  | nil => exact (or_iff_left (fun found => nomatch found.choose_spec.1)).symm
  | cons entry page ih =>
      have here : (tailPage json filter clock i tail (entry :: page)).1 =
          (tailPage json filter clock (i + 1)
            (tail.add (readTailEntry json filter (clock i) tail.books entry).2) page).1 := rfl
      rw [here, ih, has_tailAdd, readTailEntry_eq, readPage_cons, or_assoc]
      simp only [List.mem_append, or_and_right, exists_or, Option.mem_toList]
      by_cases tracked : tail.books.has cid = true
      · exact iff_of_true (.inl tracked) (.inl tracked)
      · rw [or_iff_right tracked, or_iff_right tracked]
        refine or_congr (exists_congr fun info => and_congr_left fun same => ?_) Iff.rfl
        rw [Option.filter_eq_some_iff, same, Bool.not_eq_true', Bool.eq_false_iff]
        exact and_iff_left tracked

theorem tailPage_count (i : Nat) (tail : Tail) (page : List (Result Value)) :
    (tailPage json filter clock i tail page).2 = page.countP (counted json filter) := by
  induction page generalizing i tail with
  | nil => rfl
  | cons entry page ih =>
      have here : (tailPage json filter clock i tail (entry :: page)).2 =
          (if (readTailEntry json filter (clock i) tail.books entry).1 then 1 else 0) +
            (tailPage json filter clock (i + 1)
              (tail.add (readTailEntry json filter (clock i) tail.books entry).2) page).2 := rfl
      rw [here, ih, readTailEntry_eq, List.countP_cons, Nat.add_comm]

theorem mem_readPage_iff (i : Nat) (page : List (Result Value)) (info : MarketMeta) :
    info ∈ (readPage json filter clock i page).1 ↔
      ∃ k entry, page[k]? = some entry ∧
        (readEntry json filter (clock (i + k)) entry).2 = some info := by
  induction page generalizing i with
  | nil => simp [readPage]
  | cons first page ih =>
      rw [readPage_cons, List.mem_append, Option.mem_toList, ih]
      constructor
      · rintro (read | ⟨k, entry, found, read⟩)
        · exact ⟨0, first, rfl, read⟩
        · exact ⟨k + 1, entry, found, by rwa [Nat.add_comm k, ← Nat.add_assoc]⟩
      · rintro ⟨k, entry, found, read⟩
        cases k with
        | zero =>
            cases found
            exact .inl read
        | succ k =>
            refine .inr ⟨k, entry, found, ?_⟩
            rwa [Nat.add_comm k, ← Nat.add_assoc] at read

end Pages

/-! ## The listing -/

/-- A listing within the pages that a scan may ask for. -/
structure Ranking where
  entries : List (Result Value)
  length_le : entries.length ≤ maxPages * pageSize

namespace Ranking

variable (ranking : Ranking)

/-- The entries from an offset on, `limit=200`. -/
def page (offset : Nat) : List (Result Value) := (ranking.entries.drop offset).take pageSize

/-- A server that honours the limit; no request fails. -/
def serve (offset : Nat) : Option (List (Result Value)) := some (ranking.page offset)

theorem getElem?_page (offset k : Nat) :
    (ranking.page offset)[k]? = if k < pageSize then ranking.entries[offset + k]? else none := by
  rw [page, List.getElem?_take]
  split
  · rw [List.getElem?_drop]
  · rfl

/-- A page is not the last one when it is full and all its entries are counted. -/
theorem full_iff (json : Simdjson D) (filter : Str) (offset : Nat) :
    ¬ (ranking.page offset).countP (counted json filter) < pageSize ↔
      ∀ k < pageSize, ∃ entry, ranking.entries[offset + k]? = some entry ∧
        counted json filter entry = true := by
  have size : pageSize = 200 := rfl
  have length : (ranking.page offset).length ≤ pageSize := List.length_take_le ..
  have count := (List.countP_le_length : (ranking.page offset).countP (counted json filter) ≤ _)
  constructor
  · intro full k lt
    have whole : (ranking.page offset).countP (counted json filter) =
        (ranking.page offset).length := by omega
    have inside : k < (ranking.page offset).length := by omega
    have found := ranking.getElem?_page offset k
    rw [if_pos lt, List.getElem?_eq_getElem inside] at found
    refine ⟨_, found.symm, List.countP_eq_length.mp whole _ (List.getElem_mem inside)⟩
  · intro all
    have last := all 199 (by decide)
    obtain ⟨entry, found, -⟩ := last
    have inside := (List.getElem?_eq_some_iff.mp found).1
    have whole : (ranking.page offset).countP (counted json filter) =
        (ranking.page offset).length := by
      refine List.countP_eq_length.mpr fun entry mem => ?_
      obtain ⟨k, found⟩ := List.mem_iff_getElem?.mp mem
      rw [getElem?_page] at found
      split at found
      · rename_i lt
        obtain ⟨entry', found', is⟩ := all k lt
        cases found.symm.trans found'
        exact is
      · cases found
    rw [whole, page, List.length_take, List.length_drop]
    omega

end Ranking

/-! ## The poll -/

/-- The start of the page on which a poll from `last` finds a position. -/
def pageStart (last i : Nat) : Nat := last + (i - last) / pageSize * pageSize

theorem pageStart_add_mod {last i : Nat} (le : last ≤ i) :
    pageStart last i + (i - last) % pageSize = i := by
  have parts := Nat.div_add_mod' (i - last) pageSize
  rw [pageStart]
  omega

theorem pageStart_eq (last k : Nat) {m : Nat} (lt : m < pageSize) :
    pageStart last (last + k * pageSize + m) = last + k * pageSize := by
  have size : pageSize = 200 := rfl
  rw [pageStart, size]
  omega

/-- A poll from `last` comes to this position: it is not before `last`, and the pages between are
full of entries that are counted. -/
def Walked (json : Simdjson D) (filter : Str) (entries : List (Result Value)) (last i : Nat) :
    Prop :=
  last ≤ i ∧ ∀ j entry, last ≤ j → j < pageStart last i → entries[j]? = some entry →
    counted json filter entry = true

/-- The markets that a poll reads on the page at an offset. -/
def pageMarkets (json : Simdjson D) (filter : Str) (ranking : Ranking) (clock : ScanClock)
    (offset : Nat) : List MarketMeta :=
  (readPage json filter (clock.reading offset) 0 (ranking.page offset)).1

section Polls

variable (json : Simdjson D) (filter : Str) (ranking : Ranking) (clock : ScanClock)

/-- The requests of a poll. -/
def fetchRanking (offset : Nat) (tail : Tail) : Tail × Nat :=
  fetchGammaPage json filter (clock.reading offset) (ranking.serve offset) tail

theorem has_fetchRanking (offset : Nat) (tail : Tail) (cid : Str) :
    (fetchRanking json filter ranking clock offset tail).1.books.has cid = true ↔
      tail.books.has cid = true ∨
        ∃ info ∈ pageMarkets json filter ranking clock offset, info.conditionId = cid :=
  has_tailPage ..

/-- The loop reads the pages behind full ones. -/
theorem has_tailLoop (last pages offset : Nat) (tail : Tail) (cid : Str) :
    (tailLoop (fetchRanking json filter ranking clock) last pages offset tail).1.books.has cid =
        true ↔
      tail.books.has cid = true ∨
        ∃ k < pages, (∀ k' < k, ¬ (ranking.page (offset + k' * pageSize)).countP
            (counted json filter) < pageSize) ∧
          ∃ info ∈ pageMarkets json filter ranking clock (offset + k * pageSize),
            info.conditionId = cid := by
  induction pages generalizing offset tail with
  | zero => exact (or_iff_left (fun ⟨_, lt, _⟩ => Nat.not_lt_zero _ lt)).symm
  | succ pages ih =>
      have count : (fetchRanking json filter ranking clock offset tail).2 =
          (ranking.page offset).countP (counted json filter) := tailPage_count ..
      have shift : ∀ k, offset + (k + 1) * pageSize = offset + pageSize + k * pageSize := by
        intro k
        rw [Nat.add_one_mul]
        omega
      rw [tailLoop, count, Nat.exists_lt_succ_left]
      simp only [Nat.forall_lt_succ_left, shift, Nat.zero_mul, Nat.add_zero, Nat.not_lt_zero,
        false_imp_iff, implies_true, true_and]
      by_cases short : (ranking.page offset).countP (counted json filter) < pageSize
      · rw [if_pos short, has_fetchRanking]
        refine or_congr_right (or_iff_left ?_).symm
        rintro ⟨k, -, full, -⟩
        exact full.1 short
      · rw [if_neg short, ih, has_fetchRanking, or_assoc]
        simp only [short, not_false_eq_true, true_and]

/-- A position is walked to when the pages before its own are full. -/
theorem walked_iff_full {last i : Nat} (le : last ≤ i) (inside : i < ranking.entries.length) :
    Walked json filter ranking.entries last i ↔
      ∀ k < (i - last) / pageSize, ¬ (ranking.page (last + k * pageSize)).countP
        (counted json filter) < pageSize := by
  have start : pageStart last i = last + (i - last) / pageSize * pageSize := rfl
  have here := pageStart_add_mod le
  constructor
  · rintro ⟨-, full⟩ k lt
    rw [Ranking.full_iff]
    intro m inPage
    have next : (k + 1) * pageSize ≤ (i - last) / pageSize * pageSize :=
      Nat.mul_le_mul_right _ lt
    rw [Nat.add_one_mul] at next
    have listed : last + k * pageSize + m < ranking.entries.length := by omega
    exact ⟨_, List.getElem?_eq_getElem listed,
      full _ _ (by omega) (by omega) (List.getElem?_eq_getElem listed)⟩
  · refine fun full => ⟨le, fun j entry after before found => ?_⟩
    have position := pageStart_add_mod after
    have earlier : (j - last) / pageSize < (i - last) / pageSize := by
      rw [Nat.div_lt_iff_lt_mul (by decide)]
      omega
    -- the page of `j`
    have page := (ranking.full_iff json filter _).mp (full _ earlier)
    obtain ⟨entry', found', is⟩ := page ((j - last) % pageSize) (Nat.mod_lt _ (by decide))
    rw [← pageStart, position] at found'
    cases found.symm.trans found'
    exact is

/-- The pages that are read are those of the positions that are walked to. -/
theorem pages_iff_walked (last : Nat) (cid : Str) :
    (∃ k < maxPages, (∀ k' < k, ¬ (ranking.page (last + k' * pageSize)).countP
          (counted json filter) < pageSize) ∧
        ∃ info ∈ pageMarkets json filter ranking clock (last + k * pageSize),
          info.conditionId = cid) ↔
      ∃ i entry info, Walked json filter ranking.entries last i ∧
        ranking.entries[i]? = some entry ∧
        (readEntry json filter (clock.reading (pageStart last i) (i - pageStart last i)) entry).2 =
          some info ∧ info.conditionId = cid := by
  constructor
  · rintro ⟨k, -, full, info, mem, same⟩
    obtain ⟨m, entry, found, read⟩ := (mem_readPage_iff ..).mp mem
    rw [Ranking.getElem?_page] at found
    split at found
    · rename_i lt
      have start := pageStart_eq last k lt
      have inside := (List.getElem?_eq_some_iff.mp found).1
      have number : (last + k * pageSize + m - last) / pageSize = k := by
        rw [Nat.add_assoc, Nat.add_sub_cancel_left, Nat.mul_comm, Nat.mul_add_div (by decide),
          Nat.div_eq_of_lt lt, Nat.add_zero]
      refine ⟨last + k * pageSize + m, entry, info, ?_, found, ?_, same⟩
      · rw [walked_iff_full json filter ranking (by omega) inside, number]
        exact full
      · rw [start, Nat.add_sub_cancel_left]
        rwa [Nat.zero_add] at read
    · cases found
  · rintro ⟨i, entry, info, walked, found, read, same⟩
    have inside := (List.getElem?_eq_some_iff.mp found).1
    have length := ranking.length_le
    have here := pageStart_add_mod walked.1
    have lt : (i - last) % pageSize < pageSize := Nat.mod_lt _ (by decide)
    have full := (walked_iff_full json filter ranking walked.1 inside).mp walked
    refine ⟨(i - last) / pageSize, ?_, full, info, ?_, same⟩
    · rw [Nat.div_lt_iff_lt_mul (by decide)]
      omega
    · refine (mem_readPage_iff ..).mpr ⟨(i - last) % pageSize, entry, ?_, ?_⟩
      · rw [Ranking.getElem?_page, if_pos lt, ← pageStart, here]
        exact found
      · have offset : 0 + (i - last) % pageSize = i - pageStart last i := by omega
        rw [← pageStart, offset]
        exact read

end Polls

/-! ## Histories -/

/-- A scan or a poll, with whatever the server then answers and the clock reads. -/
inductive Request where
  | scan (server : Nat → Option (List (Result Value))) (clock : Nat → Nat → Int)
  | poll (server : Nat → Option (List (Result Value))) (clock : Nat → Nat → Int)

namespace BotDiscovery

def request (json : Simdjson D) (discovery : BotDiscovery) : Request → BotDiscovery
  | .scan server clock => (discovery.scanAll json server clock).1
  | .poll server clock => (discovery.tailPoll json server clock).1

/-- The discovery after a history of scans and polls. -/
def after (json : Simdjson D) (filterStr : Str) (history : List Request) : BotDiscovery :=
  history.foldl (request json) (new .new filterStr)

/-- After a poll of the listing, every market that should be found is tracked. -/
def FindsAll (json : Simdjson D) (discovery : BotDiscovery) (ranking : Ranking)
    (clock : ScanClock) : Prop :=
  ∀ entry ∈ ranking.entries, ∀ info, Eligible json discovery.filter clock.finish entry info →
    (discovery.tailPoll json ranking.serve clock.reading).1.books.has info.conditionId = true

/-- The poll comes to an entry that it reads as this market. -/
def ComesTo (json : Simdjson D) (discovery : BotDiscovery) (ranking : Ranking)
    (clock : ScanClock) (cid : Str) : Prop :=
  ∃ i entry info, Walked json discovery.filter ranking.entries discovery.lastOffset i ∧
    ranking.entries[i]? = some entry ∧
    (readEntry json discovery.filter (clock.reading (pageStart discovery.lastOffset i)
      (i - pageStart discovery.lastOffset i)) entry).2 = some info ∧ info.conditionId = cid

theorem has_tailPoll (json : Simdjson D) (discovery : BotDiscovery) (ranking : Ranking)
    (clock : ScanClock) (cid : Str) :
    (discovery.tailPoll json ranking.serve clock.reading).1.books.has cid = true ↔
      discovery.books.has cid = true ∨ discovery.ComesTo json ranking clock cid :=
  (has_tailLoop json discovery.filter ranking clock discovery.lastOffset maxPages
    discovery.lastOffset ⟨discovery.books, []⟩ cid).trans
      (or_congr_right (pages_iff_walked ..))

/-- A market that is listed where the poll comes to is found. -/
theorem comesTo_of_walked {json : Simdjson D} {discovery : BotDiscovery} {ranking : Ranking}
    {clock : ScanClock} {i : Nat} {entry : Result Value} {info : MarketMeta}
    (walked : Walked json discovery.filter ranking.entries discovery.lastOffset i)
    (listed : ranking.entries[i]? = some entry)
    (eligible : Eligible json discovery.filter clock.finish entry info) :
    discovery.ComesTo json ranking clock info.conditionId :=
  ⟨i, entry, info, walked, listed,
    congrArg Prod.snd (readEntry_of_eligible eligible (clock.le_finish ..)), rfl⟩

/-- **What a poll finds.** After any history and for any listing, a poll of which no request fails
leaves every market tracked that should be, if and only if each of them is tracked before, or is
listed where the poll comes to from `last_offset_`. -/
theorem tail_poll_finds_iff (json : Simdjson D) (filterStr : Str) (history : List Request)
    (ranking : Ranking) (clock : ScanClock) :
    (after json filterStr history).FindsAll json ranking clock ↔
      ∀ entry ∈ ranking.entries, ∀ info,
        Eligible json (after json filterStr history).filter clock.finish entry info →
          (after json filterStr history).books.has info.conditionId = true ∨
            (after json filterStr history).ComesTo json ranking clock info.conditionId :=
  forall₂_congr fun _ _ => forall_congr' fun info => imp_congr_right fun _ =>
    has_tailPoll json _ ranking clock info.conditionId

/-! ## A market that is listed first -/

/-- A listing of other markets, which the filter is not for. -/
def otherRanking : Ranking := ⟨(List.range 201).map otherMarket, by simp [maxPages, pageSize]⟩

/-- The same listing when a market that the filter is for has most of the volume. -/
def newRanking : Ranking where
  entries := .ok (.object upOrDownFields) :: (List.range 201).map otherMarket
  length_le := by simp [maxPages, pageSize]

/-- A scan of the first listing, of which no request fails. -/
def otherHistory : List Request := [.scan otherRanking.serve june2026Clock.reading]

/-- The new market is open for years, and the poll starts behind it. -/
theorem tail_poll_misses_position_0 :
    (after twoIdsJson (ascii "up or down") otherHistory).lastOffset = 200 ∧
    ((after twoIdsJson (ascii "up or down") otherHistory).tailPoll twoIdsJson newRanking.serve
      june2026Clock.reading).1.books.has (ascii "0xc1") = false ∧
    ¬ (after twoIdsJson (ascii "up or down") otherHistory).FindsAll twoIdsJson newRanking
      june2026Clock := by
  let fetch := fun offset => fetchGammaPageWorker twoIdsJson (toLower (ascii "up or down"))
    (june2026Clock.reading offset) offset (otherRanking.serve offset)
  have scanned : after twoIdsJson (ascii "up or down") otherHistory =
      { books := (Scan.loop fetch ⟨.new, [], 0, false⟩ 0).books
        filter := toLower (ascii "up or down")
        lastOffset := (Scan.loop fetch ⟨.new, [], 0, false⟩ 0).lastOffset } := rfl
  have batch := @Scan.loop_of_batch fetch ⟨.new, [], 0, false⟩ rfl (by decide +kernel)
  rw [batch] at scanned
  have missed : ((after twoIdsJson (ascii "up or down") otherHistory).tailPoll twoIdsJson
      newRanking.serve june2026Clock.reading).1.books.has (ascii "0xc1") = false := by
    rw [scanned]
    decide +kernel
  refine ⟨by rw [scanned]; decide +kernel, missed, fun finds => ?_⟩
  have filter : (after twoIdsJson (ascii "up or down") otherHistory).filter =
      toLower (ascii "up or down") := by
    rw [scanned]
  have found := finds _ List.mem_cons_self upOrDownMeta (by rw [filter]; exact upOrDown_eligible)
  exact Bool.false_ne_true (missed.symm.trans found)

end BotDiscovery

end Tickscope.Bot
