import Tickscope.Bot.BookState
import Tickscope.Bot.StrategyEngine
import Tickscope.Lib.Calendar
import Tickscope.Lib.OnDemand

/-!
# The bot's market discovery

`src/bot/BotDiscovery.cpp`: `scan_all` with its workers, and `tail_poll`. What a request gets for
its page is the response's array, or nothing when all attempts have failed or the body is no array.
The clock is read once for each entry.
-/

namespace Tickscope.Bot

open Tickscope.Lib Tickscope.Lib.OnDemand

/-! ## Constants -/

/-- `PAGE_SIZE`. -/
def pageSize : Nat := 200

/-- `MAX_PAGES`. -/
def maxPages : Nat := 25

/-- `N_SCAN_WORKERS`. -/
def nScanWorkers : Nat := 8

/-! ## Reading an entry -/

/-- The epoch in milliseconds, 0 before 1970. -/
def epochMs (tm : Tm) : Int :=
  if Calendar.timegm tm < 0 then 0 else Calendar.timegm tm * 1000

/-- `parse_iso8601_ms`: a date alone means its last second. -/
def parseIso8601Ms (iso : Str) : Int :=
  if iso = [] then 0
  else
    match Calendar.scanDateTime (cstr iso) with
    | some (tm, _) => epochMs tm
    | none =>
        match Calendar.scanDate (cstr iso) with
        | some (date, _) => epochMs { date with hour := 23, minute := 59, second := 59 }
        | none => 0

/-- `is_expired_or_too_soon`, at a reading of the clock. -/
def isExpiredOrTooSoon (now endTimeMs : Int) : Bool :=
  endTimeMs ≤ 0 ∨ endTimeMs ≤ now + minRemainingS * 1000

/-- `matches_filter`; the filter is in lower case. -/
def matchesFilter (question filter : Str) : Bool :=
  filter = [] ∨ occursIn filter (toLower question)

variable {D : Type}

/-- The loop of `parse_clob_token_ids`, over the ids found so far. -/
def clobLoop (json : Simdjson D) (idx : Nat) (yes no : Str) : List (Result Value) → Str × Str
  | [] => (yes, no)
  | elem :: rest =>
      match json.getString elem with
      | .error _ => clobLoop json (idx + 1) yes no rest
      | .ok sv =>
          if sv = [] then clobLoop json (idx + 1) yes no rest
          else if idx = 0 then clobLoop json (idx + 1) sv no rest
          else clobLoop json (idx + 1) yes sv rest

/-- `parse_clob_token_ids`: the two ids, when both are there. -/
def parseClobTokenIds (json : Simdjson D) (raw : Str) : Option (Str × Str) :=
  match getArray (json.iterate raw) with
  | .error _ => none
  | .ok arr =>
      let ids := clobLoop json 0 [] [] arr
      if ids.1 ≠ [] ∧ ids.2 ≠ [] then some ids else none

/-- `endDateIso` in epoch milliseconds, 0 when it is missing. -/
def endTimeMs (json : Simdjson D) (market : Fields) : Int :=
  match json.getString (field market (ascii "endDateIso")) with
  | .error _ => 0
  | .ok iso => parseIso8601Ms iso

/-- The body of the worker's loop: whether the entry is counted, and the market it yields. -/
def readEntry (json : Simdjson D) (filter : Str) (now : Int) (entry : Result Value) :
    Bool × Option MarketMeta :=
  match getObject entry with
  | .error _ => (false, none)
  | .ok market =>
      match json.getString (field market (ascii "question")) with
      | .error _ => (false, none)
      | .ok question =>
          if !matchesFilter question filter then (true, none)
          else
            match json.getString (field market (ascii "conditionId")) with
            | .error _ => (true, none)
            | .ok cid =>
                let endMs := endTimeMs json market
                if isExpiredOrTooSoon now endMs then (true, none)
                else
                  match json.getString (field market (ascii "clobTokenIds")) with
                  | .error _ => (true, none)
                  | .ok clobStr =>
                      match parseClobTokenIds json clobStr with
                      | none => (true, none)
                      | some (yes, no) => (true, some ⟨cid, question, yes, no, endMs⟩)

/-! ## Scanning -/

structure WorkerResult where
  markets : List MarketMeta
  /-- -1 = error -/
  pageCount : Int
  offset : Nat

/-- The loop over a page: the markets and the count, with the clock's readings by position. -/
def readPage (json : Simdjson D) (filter : Str) (clock : Nat → Int) :
    Nat → List (Result Value) → List MarketMeta × Nat
  | _, [] => ([], 0)
  | i, entry :: page =>
      let (counted, market) := readEntry json filter (clock i) entry
      let rest := readPage json filter clock (i + 1) page
      (market.toList ++ rest.1, (if counted then 1 else 0) + rest.2)

/-- `fetch_gamma_page_worker`. -/
def fetchGammaPageWorker (json : Simdjson D) (filter : Str) (clock : Nat → Int) (offset : Nat)
    (response : Option (List (Result Value))) : WorkerResult :=
  match response with
  | none => ⟨[], -1, offset⟩
  | some page =>
      let read := readPage json filter clock 0 page
      ⟨read.1, read.2, offset⟩

structure BotDiscovery where
  books : BookState
  filter : Str
  lastOffset : Nat

/-- The constructor. -/
def BotDiscovery.new (books : BookState) (filterStr : Str) : BotDiscovery :=
  ⟨books, toLower filterStr, 0⟩

/-- What a scan has reached. -/
structure Scan where
  books : BookState
  allTokens : List Str
  lastOffset : Nat
  done : Bool

namespace Scan

/-- The inner merge loop: the markets that are not tracked yet are added. -/
def addMarkets (scan : Scan) : List MarketMeta → Scan
  | [] => scan
  | info :: markets =>
      if scan.books.has info.conditionId then addMarkets scan markets
      else
        addMarkets { scan with
          books := scan.books.addMarket info
          allTokens := scan.allTokens ++ [info.yesTokenId, info.noTokenId] } markets

/-- The outer merge loop: an error is skipped, a short page ends the scan. -/
def merge (scan : Scan) : List WorkerResult → Scan
  | [] => scan
  | result :: results =>
      let scan := scan.addMarkets result.markets
      if result.pageCount < 0 then merge scan results
      else if result.pageCount < pageSize then
        { scan with lastOffset := result.offset, done := true }
      else merge scan results

/-- The loop over the batches; `fetch` is the worker for an offset. -/
def loop (fetch : Nat → WorkerResult) (scan : Scan) (nextOffset : Nat) : Scan :=
  if scan.done = false ∧ nextOffset < maxPages * pageSize then
    let batchSize := min nScanWorkers (maxPages - nextOffset / pageSize)
    if batchSize = 0 then scan
    else
      let results := (List.range batchSize).map fun w => fetch (nextOffset + w * pageSize)
      loop fetch (scan.merge results) (nextOffset + batchSize * pageSize)
  else scan
termination_by maxPages * pageSize - nextOffset
decreasing_by
  rename_i running batch
  have grows : 0 < batchSize * pageSize := Nat.mul_pos (Nat.pos_of_ne_zero batch) (by decide)
  exact Nat.sub_lt_sub_left running.2 (Nat.lt_add_of_pos_right grows)

end Scan

/-- `scan_all`, with the server's responses and the clock's readings by offset. -/
def BotDiscovery.scanAll (json : Simdjson D) (server : Nat → Option (List (Result Value)))
    (clock : Nat → Nat → Int) (discovery : BotDiscovery) : BotDiscovery × List Str :=
  let fetch := fun offset =>
    fetchGammaPageWorker json discovery.filter (clock offset) offset (server offset)
  let scan := Scan.loop fetch ⟨discovery.books, [], discovery.lastOffset, false⟩ 0
  ({ discovery with books := scan.books, lastOffset := scan.lastOffset }, scan.allTokens)

/-! ## Polling -/

/-- The body of the loop of `fetch_gamma_page`: whether the entry is counted, and the market that
it adds. Unlike in a scan, an entry that matches is not counted without a `conditionId`. -/
def readTailEntry (json : Simdjson D) (filter : Str) (now : Int) (books : BookState)
    (entry : Result Value) : Bool × Option MarketMeta :=
  match getObject entry with
  | .error _ => (false, none)
  | .ok market =>
      match json.getString (field market (ascii "question")) with
      | .error _ => (false, none)
      | .ok question =>
          if !matchesFilter question filter then (true, none)
          else
            match json.getString (field market (ascii "conditionId")) with
            | .error _ => (false, none)
            | .ok cid =>
                if books.has cid then (true, none)
                else
                  let endMs := endTimeMs json market
                  if isExpiredOrTooSoon now endMs then (true, none)
                  else
                    match json.getString (field market (ascii "clobTokenIds")) with
                    | .error _ => (true, none)
                    | .ok clobStr =>
                        match parseClobTokenIds json clobStr with
                        | none => (true, none)
                        | some (yes, no) => (true, some ⟨cid, question, yes, no, endMs⟩)

/-- What a poll has found. -/
structure Tail where
  books : BookState
  newTokens : List Str

/-- `books_.add_market` and the two tokens, for an entry that yields a market. -/
def Tail.add (tail : Tail) : Option MarketMeta → Tail
  | none => tail
  | some info =>
      { books := tail.books.addMarket info
        newTokens := tail.newTokens ++ [info.yesTokenId, info.noTokenId] }

/-- The loop over a page: what is found, and the count. -/
def tailPage (json : Simdjson D) (filter : Str) (clock : Nat → Int) :
    Nat → Tail → List (Result Value) → Tail × Nat
  | _, tail, [] => (tail, 0)
  | i, tail, entry :: page =>
      let (counted, market) := readTailEntry json filter (clock i) tail.books entry
      let rest := tailPage json filter clock (i + 1) (tail.add market) page
      (rest.1, (if counted then 1 else 0) + rest.2)

/-- `fetch_gamma_page`, which returns 0 when the request fails. -/
def fetchGammaPage (json : Simdjson D) (filter : Str) (clock : Nat → Int)
    (response : Option (List (Result Value))) (tail : Tail) : Tail × Nat :=
  match response with
  | none => (tail, 0)
  | some page => tailPage json filter clock 0 tail page

/-- The loop over so many pages; `fetch` is `fetch_gamma_page` for an offset. -/
def tailLoop (fetch : Nat → Tail → Tail × Nat) (lastOffset : Nat) :
    Nat → Nat → Tail → Tail × Nat
  | 0, _, tail => (tail, lastOffset)
  | pages + 1, offset, tail =>
      let fetched := fetch offset tail
      if fetched.2 < pageSize then (fetched.1, offset)
      else tailLoop fetch lastOffset pages (offset + pageSize) fetched.1

/-- `tail_poll`, with the server's responses and the clock's readings by offset. -/
def BotDiscovery.tailPoll (json : Simdjson D) (server : Nat → Option (List (Result Value)))
    (clock : Nat → Nat → Int) (discovery : BotDiscovery) : BotDiscovery × List Str :=
  let fetch := fun offset =>
    fetchGammaPage json discovery.filter (clock offset) (server offset)
  let polled := tailLoop fetch discovery.lastOffset maxPages discovery.lastOffset
    ⟨discovery.books, []⟩
  ({ discovery with books := polled.1.books, lastOffset := polled.2 }, polled.1.newTokens)

end Tickscope.Bot
