import Tickscope.Bot.TailPoll
import Tickscope.Lib.Lists

/-!
# Two readers of a page

`fetch_gamma_page` reads a page and adds what it finds; `fetch_gamma_page_worker` reads it without
looking at the books, and `scan_all` merges what it has found. On every page they find the same
markets. They report the same count exactly if no entry that matches the filter is without a
`conditionId` (`pages_agree_iff`): the worker counts it, `fetch_gamma_page` does not.
-/

namespace Tickscope.Bot

open Tickscope.Lib Tickscope.Lib.OnDemand

variable {D : Type}

/-! ## Counting -/

/-- The worker counts every entry with a question. -/
def hasQuestion (json : Simdjson D) (entry : Result Value) : Bool :=
  match getObject entry with
  | .error _ => false
  | .ok market => (json.getString (field market (ascii "question"))).toOption.isSome

/-- The question of the entry matches, and there is no `conditionId`. -/
def Unidentified (json : Simdjson D) (filter : Str) (entry : Result Value) : Prop :=
  ∃ market question, entry = .ok (.object market) ∧
    json.getString (field market (ascii "question")) = .ok question ∧
    matchesFilter question filter = true ∧
    ∀ cid, json.getString (field market (ascii "conditionId")) ≠ .ok cid

theorem readEntry_counted (json : Simdjson D) (filter : Str) (now : Int) (entry : Result Value) :
    (readEntry json filter now entry).1 = hasQuestion json entry := by
  unfold readEntry hasQuestion
  cases getObject entry with
  | error e => rfl
  | ok market =>
      dsimp only
      cases json.getString (field market (ascii "question")) with
      | error e => rfl
      | ok question =>
          dsimp only [Except.toOption, Option.isSome]
          split
          · rfl
          · split
            · rfl
            · split
              · rfl
              · split
                · rfl
                · split <;> rfl

/-- What `fetch_gamma_page` does not count. -/
theorem counted_iff (json : Simdjson D) (filter : Str) (entry : Result Value) :
    counted json filter entry = true ↔
      hasQuestion json entry = true ∧ ¬ Unidentified json filter entry := by
  unfold counted hasQuestion
  cases object : getObject entry with
  | error e => exact iff_of_false nofun fun both => nomatch both.1
  | ok market =>
      have isObject := getObject_eq_ok.mp object
      dsimp only
      cases asked : json.getString (field market (ascii "question")) with
      | error e => exact iff_of_false nofun fun both => nomatch both.1
      | ok question =>
          have unidentified : Unidentified json filter entry ↔
              matchesFilter question filter = true ∧
                ∀ cid, json.getString (field market (ascii "conditionId")) ≠ .ok cid := by
            constructor
            · rintro ⟨market', question', isObject', asked', rest⟩
              cases isObject.symm.trans isObject'
              cases asked.symm.trans asked'
              exact rest
            · exact fun rest => ⟨market, question, isObject, asked, rest⟩
          rw [unidentified]
          dsimp only [Except.toOption, Option.isSome]
          rw [eq_self, true_and]
          cases json.getString (field market (ascii "conditionId")) with
          | error e =>
              dsimp only
              rw [Bool.not_eq_true', ← Bool.not_eq_true, not_and]
              exact ⟨fun other matched => absurd matched other, fun all matched => all matched nofun⟩
          | ok cid => exact iff_of_true rfl fun both => both.2 cid rfl

section Pages

variable (json : Simdjson D) (filter : Str) (clock : Nat → Int)

theorem readPage_count (i : Nat) (page : List (Result Value)) :
    (readPage json filter clock i page).2 = page.countP (hasQuestion json) := by
  induction page generalizing i with
  | nil => rfl
  | cons entry page ih =>
      have here : (readPage json filter clock i (entry :: page)).2 =
          (if (readEntry json filter (clock i) entry).1 then 1 else 0) +
            (readPage json filter clock (i + 1) page).2 := rfl
      rw [here, ih, readEntry_counted, List.countP_cons, Nat.add_comm]

/-! ## Finding -/

theorem addMarkets_append (scan : Scan) (markets later : List MarketMeta) :
    scan.addMarkets (markets ++ later) = (scan.addMarkets markets).addMarkets later := by
  induction markets generalizing scan with
  | nil => rfl
  | cons info markets ih =>
      rw [List.cons_append, Scan.addMarkets, Scan.addMarkets]
      split <;> exact ih _

/-- The books and the new tokens are the same in both. -/
def Same (scan : Scan) (tail : Tail) : Prop :=
  scan.books = tail.books ∧ scan.allTokens = tail.newTokens

theorem Same.add {scan : Scan} {tail : Tail} (same : Same scan tail) (now : Int)
    (entry : Result Value) :
    Same (scan.addMarkets (readEntry json filter now entry).2.toList)
      (tail.add (readTailEntry json filter now tail.books entry).2) := by
  rw [readTailEntry_eq]
  cases (readEntry json filter now entry).2 with
  | none => exact same
  | some info =>
      rw [Option.toList_some, Scan.addMarkets, same.1]
      cases tracked : tail.books.has info.conditionId with
      | true =>
          rw [if_pos rfl, Option.filter_some, tracked]
          exact same
      | false =>
          rw [if_neg Bool.false_ne_true, Option.filter_some, tracked, Bool.not_false, if_pos rfl]
          exact ⟨rfl, congrArg (· ++ [info.yesTokenId, info.noTokenId]) same.2⟩

/-- A page is the same for both, whatever has been found before. -/
theorem Same.page {scan : Scan} {tail : Tail} (same : Same scan tail) (i : Nat)
    (page : List (Result Value)) :
    Same (scan.addMarkets (readPage json filter clock i page).1)
      (tailPage json filter clock i tail page).1 := by
  induction page generalizing i scan tail with
  | nil => exact same
  | cons entry page ih =>
      rw [readPage_cons, addMarkets_append]
      exact ih (same.add json filter (clock i) entry) (i + 1)

end Pages

theorem Same.merge {scan : Scan} {tail : Tail} {result : WorkerResult}
    (same : Same (scan.addMarkets result.markets) tail) : Same (scan.merge [result]) tail := by
  rw [Scan.merge]
  split
  · exact same
  · split
    · exact same
    · exact same

/-- **The two readers of a page** leave the same books and return the same tokens in the same
order; they report the same count exactly if no entry that matches is without a `conditionId`. -/
theorem pages_agree_iff (json : Simdjson D) (filter : Str) (clock : Nat → Int) (books : BookState)
    (page : List (Result Value)) (offset lastOffset : Nat) :
    let tail := fetchGammaPage json filter clock (some page) ⟨books, []⟩
    let result := fetchGammaPageWorker json filter clock offset (some page)
    let scan := Scan.merge ⟨books, [], lastOffset, false⟩ [result]
    (scan.books = tail.1.books ∧ scan.allTokens = tail.1.newTokens ∧
        result.pageCount = tail.2) ↔
      ∀ entry ∈ page, ¬ Unidentified json filter entry := by
  intro tail result scan
  have found : Same scan tail.1 := by
    have start : Same ⟨books, [], lastOffset, false⟩ ⟨books, []⟩ := ⟨rfl, rfl⟩
    exact (start.page json filter clock 0 page).merge
  have counts : result.pageCount = tail.2 ↔
      page.countP (counted json filter) = page.countP (hasQuestion json) := by
    show ((readPage json filter clock 0 page).2 : Int) =
      ((tailPage json filter clock 0 ⟨books, []⟩ page).2 : Int) ↔ _
    rw [readPage_count, tailPage_count, Int.ofNat_inj, eq_comm]
  rw [and_iff_right found.1, and_iff_right found.2, counts,
    countP_eq_countP_iff fun entry _ is => ((counted_iff json filter entry).mp is).1]
  refine forall₂_congr fun entry _ => ?_
  rw [counted_iff]
  constructor
  · intro asked unidentified
    have question : hasQuestion json entry = true := by
      obtain ⟨market, question, rfl, asked', -⟩ := unidentified
      show (json.getString (field market (ascii "question"))).toOption.isSome = true
      rw [asked']
      rfl
    exact (asked question).2 unidentified
  · exact fun identified question => ⟨question, identified⟩

/-- A market of the series that has no `conditionId`. -/
def unidentified : Result Value :=
  .ok (.object [(ascii "question", .ok (.string (ascii "Bitcoin Up or Down")))])

/-- The worker counts the entry, and `fetch_gamma_page` does not. -/
theorem pages_disagree :
    let filter := toLower (ascii "up or down")
    (fetchGammaPageWorker twoIdsJson filter (fun _ => 0) 0 (some [unidentified])).pageCount = 1 ∧
      (fetchGammaPage twoIdsJson filter (fun _ => 0) (some [unidentified]) ⟨.new, []⟩).2 = 0 := by
  decide +kernel

end Tickscope.Bot
