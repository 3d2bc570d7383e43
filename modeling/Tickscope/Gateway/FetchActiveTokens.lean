import Mathlib.Data.Rat.Floor
import Tickscope.Gateway.MetadataCsv
import Tickscope.Lib.OnDemand

/-!
# Fetching the active tokens

`fetch_active_tokens` of `src/gateway/MarketDiscovery.cpp`. The loop over the pages ends in the
same way at the last page and at a page that cannot be had: `fetchActiveTokens_of_stops` gives
what has been fetched by then.
-/

namespace Tickscope.Gateway

open Tickscope.Lib Tickscope.Lib.OnDemand

/-! ## Constants -/

/-- `PAGE_SIZE`. -/
def pageSize : Nat := 100

/-- `MAX_PAGES`. -/
def maxPages : Nat := 50

/-! ## Reading a market -/

/-- simdjson with the numbers of the listing, as exact decimals. -/
structure GammaJson (D : Type) extends Simdjson D where
  double : Str → Result ℚ

variable {D : Type}

/-- A text field, empty when it cannot be read. -/
def textField (json : GammaJson D) (market : Fields) (key : Str) : Str :=
  match json.getString (field market key) with
  | .ok sv => sv
  | .error _ => []

/-- `active`, false when it cannot be read. -/
def activeField (market : Fields) : Bool :=
  match field market (ascii "active") with
  | .ok (.bool active) => active
  | _ => false

/-- `static_cast<int>(fee * 10000.0 + 0.5)`, which cuts towards zero. -/
def basisPoints (fee : ℚ) : Int :=
  let x := fee * 10000 + 1 / 2
  if 0 ≤ x then ⌊x⌋ else ⌈x⌉

def takerFeeBps (json : GammaJson D) (market : Fields) : Int :=
  match field market (ascii "takerBaseFee") with
  | .ok (.number raw) =>
      match json.double raw with
      | .ok fee => basisPoints fee
      | .error _ => 0
  | _ => 0

/-- The loop of `parse_clob_token_ids`; `info` has the fields of the market. -/
def clobRows (json : GammaJson D) (info : TokenMeta) (idx : Nat) :
    List (Result Value) → List TokenMeta
  | [] => []
  | elem :: rest =>
      match json.getString elem with
      | .error _ => clobRows json info (idx + 1) rest
      | .ok sv =>
          if sv = [] then clobRows json info (idx + 1) rest
          else
            { info with
              tokenId := sv
              outcome := if idx = 0 then ascii "YES" else ascii "NO" } ::
                clobRows json info (idx + 1) rest

/-- `parse_clob_token_ids`. -/
def parseClobTokenIds (json : GammaJson D) (raw : Str) (info : TokenMeta) : List TokenMeta :=
  match getArray (json.iterate raw) with
  | .error _ => []
  | .ok arr => clobRows json info 0 arr

/-- The rows of one entry of a page. -/
def readMarket (json : GammaJson D) (entry : Result Value) : List TokenMeta :=
  match getObject entry with
  | .error _ => []
  | .ok market =>
      match json.getString (field market (ascii "clobTokenIds")) with
      | .error _ => []
      | .ok clobStr =>
          parseClobTokenIds json clobStr
            { tokenId := []
              conditionId := textField json market (ascii "conditionId")
              outcome := []
              question := textField json market (ascii "question")
              endDate := textField json market (ascii "endDateIso")
              active := activeField market
              takerFeeBps := takerFeeBps json market }

/-! ## Pages -/

structure HttpResponse where
  status : Nat
  body : Str

/-- The entries of a page: a response with status 200 whose body is an array. -/
def pageEntries (json : GammaJson D) : Option HttpResponse → Option (List (Result Value))
  | none => none
  | some res =>
      if res.status ≠ 200 then none
      else
        match getArray (json.iterate res.body) with
        | .error _ => none
        | .ok markets => some markets

/-- The entry is counted. -/
def isObject (entry : Result Value) : Bool :=
  match getObject entry with
  | .ok _ => true
  | .error _ => false

/-- The loop over the pages, with `pages` still allowed; `server` answers for an offset. -/
def fetchLoop (json : GammaJson D) (server : Nat → Option HttpResponse) :
    Nat → Nat → List TokenMeta
  | 0, _ => []
  | pages + 1, offset =>
      match pageEntries json (server offset) with
      | none => []
      | some markets =>
          let found := markets.flatMap (readMarket json)
          if markets.countP isObject < pageSize then found
          else found ++ fetchLoop json server pages (offset + pageSize)

def fetchActiveTokens (json : GammaJson D) (server : Nat → Option HttpResponse) :
    List TokenMeta :=
  fetchLoop json server maxPages 0

/-! ## A fetch that stops early -/

/-- Page number `failing` cannot be had: there is no response, its status is not 200, or its body
is not an array. The pages before it are full pages of the listing. -/
structure Stops (json : GammaJson D) (server : Nat → Option HttpResponse)
    (listing : List (Result Value)) (failing : Nat) : Prop where
  lt : failing < maxPages
  full : failing * pageSize ≤ listing.length
  objects : ∀ entry ∈ listing.take (failing * pageSize), isObject entry = true
  served : ∀ page < failing, pageEntries json (server (page * pageSize)) =
    some ((listing.drop (page * pageSize)).take pageSize)
  failed : pageEntries json (server (failing * pageSize)) = none

/-- The rows that are listed on the pages before `page`. -/
def rowsBefore (json : GammaJson D) (listing : List (Result Value)) (page : Nat) :
    List TokenMeta :=
  (listing.take (page * pageSize)).flatMap (readMarket json)

theorem rowsBefore_succ (json : GammaJson D) (listing : List (Result Value)) (page : Nat) :
    rowsBefore json listing (page + 1) = rowsBefore json listing page ++
      ((listing.drop (page * pageSize)).take pageSize).flatMap (readMarket json) := by
  rw [rowsBefore, Nat.succ_mul, List.take_add, List.flatMap_append]
  rfl

/-- A page before the failing one does not look like the last page. -/
theorem Stops.countP {json : GammaJson D} {server : Nat → Option HttpResponse}
    {listing : List (Result Value)} {failing : Nat} (stops : Stops json server listing failing)
    {page : Nat} (before : page < failing) :
    ((listing.drop (page * pageSize)).take pageSize).countP isObject = pageSize := by
  have full := stops.full
  have within : (page + 1) * pageSize ≤ failing * pageSize :=
    Nat.mul_le_mul_right pageSize before
  have next : (page + 1) * pageSize = page * pageSize + pageSize := Nat.succ_mul page pageSize
  have all : ∀ entry ∈ (listing.drop (page * pageSize)).take pageSize, isObject entry = true := by
    intro entry mem
    refine stops.objects entry ((List.take_prefix_take_left within).subset ?_)
    rw [next, List.take_add]
    exact List.mem_append_right _ mem
  rw [List.countP_eq_length.mpr all, List.length_take, List.length_drop]
  omega

theorem fetchLoop_of_stops {json : GammaJson D} {server : Nat → Option HttpResponse}
    {listing : List (Result Value)} {failing : Nat} (stops : Stops json server listing failing) :
    ∀ {page left : Nat}, page + left = failing → ∀ {pages : Nat}, left < pages →
      rowsBefore json listing page ++ fetchLoop json server pages (page * pageSize) =
        rowsBefore json listing failing := by
  intro page left
  induction left generalizing page with
  | zero =>
      intro here pages more
      obtain ⟨pages, rfl⟩ := Nat.exists_eq_succ_of_ne_zero (Nat.ne_zero_of_lt more)
      rw [Nat.add_zero] at here
      subst here
      rw [fetchLoop, stops.failed, List.append_nil]
  | succ left ih =>
      intro here pages more
      obtain ⟨pages, rfl⟩ := Nat.exists_eq_succ_of_ne_zero (Nat.ne_zero_of_lt more)
      have before : page < failing := by omega
      have counted := stops.countP before
      rw [fetchLoop, stops.served page before]
      dsimp only
      rw [if_neg (by omega), ← List.append_assoc, ← rowsBefore_succ, ← Nat.succ_mul]
      exact ih (by omega) (by omega)

/-- What is fetched are the rows of the pages before the failing one. -/
theorem fetchActiveTokens_of_stops {json : GammaJson D} {server : Nat → Option HttpResponse}
    {listing : List (Result Value)} {failing : Nat} (stops : Stops json server listing failing) :
    fetchActiveTokens json server = rowsBefore json listing failing := by
  have loop := fetchLoop_of_stops stops (Nat.zero_add failing) stops.lt
  rw [Nat.zero_mul] at loop
  rw [← loop, rowsBefore, Nat.zero_mul]
  rfl

end Tickscope.Gateway
