import Tickscope.Gateway.Subscription
import Tickscope.Harvester.Rediscovery
import Tickscope.Lib.FirstSeen

/-!
# The subscription text after re-discovery

`src/harvester/main.cpp` hands the initial tokens to the client and to `known_ids`, and each cycle
hands the client the tokens that the diff against `known_ids` finds; the client edits its text.
`subscription_rebuilt` says that the text is the one built from all tokens, and that no token is
handed over twice. The client's side, on all its threads, is
`Gateway.System.fullSubscriptionJson_run`.
-/

namespace Tickscope.Harvester

open Tickscope.Gateway Tickscope.Lib

/-- What the diff and the client keep. -/
structure Subscriptions where
  knownIds : List Str
  fullSubscriptionJson : Str
  /-- the calls of `subscribe` -/
  batches : List (List Str)

/-- The rows that a cycle looks at for the subscription. -/
def subscribeFresh (filterStr : Str) (fresh : List TokenMeta) : List TokenMeta :=
  if filterStr = [] then fresh else filterByQuestion fresh filterStr

namespace Subscriptions

/-- Before the first cycle. -/
def boot (tokenIds : List Str) : Subscriptions where
  knownIds := tokenIds
  fullSubscriptionJson := buildSubscriptionJson tokenIds
  batches := []

/-- `WebSocketClient::subscribe`, as far as the text goes. -/
def subscribe (s : Subscriptions) (newTokens : List Str) : Subscriptions :=
  { s with
    fullSubscriptionJson :=
      if newTokens = [] then s.fullSubscriptionJson
      else addTokens s.fullSubscriptionJson newTokens
    batches := s.batches ++ [newTokens] }

/-- A cycle with a fetch. -/
def cycle (filterStr : Str) (s : Subscriptions) (fresh : List TokenMeta) : Subscriptions :=
  if fresh = [] then s
  else
    let diff := newRows s.knownIds (subscribeFresh filterStr fresh)
    let newIds := tokens diff.1
    let s := { s with knownIds := diff.2 }
    if newIds = [] then s else s.subscribe newIds

end Subscriptions

/-- The tokens that pass the filter, fetch by fetch. -/
def passing (filterStr : Str) (fetches : List (List TokenMeta)) : List Str :=
  fetches.flatMap fun fresh => tokens (subscribeFresh filterStr fresh)

/-- The newly found tokens in first-seen order. -/
def newlyFound (filterStr : Str) (tokenIds : List Str) (fetches : List (List TokenMeta)) :
    List Str :=
  (firstSeen (passing filterStr fetches)).filter (· ∉ tokenIds)

theorem nodup_newlyFound (filterStr : Str) (tokenIds : List Str)
    (fetches : List (List TokenMeta)) : (newlyFound filterStr tokenIds fetches).Nodup :=
  (nodup_firstSeen _).filter _

/-! ## One diff -/

/-- The diff keeps the unknown tokens in first-seen order. -/
theorem tokens_newRows (known : List Str) (fresh : List TokenMeta) :
    tokens (newRows known fresh).1 = (firstSeen (tokens fresh)).filter (· ∉ known) := by
  induction fresh generalizing known with
  | nil => rfl
  | cons m fresh ih =>
      have fresh_cons : tokens (m :: fresh) = m.tokenId :: tokens fresh := rfl
      rw [newRows, fresh_cons, firstSeen_cons]
      by_cases seen : m.tokenId ∈ known
      · rw [if_pos seen, List.filter_cons_of_neg (by simpa using seen), List.filter_filter]
        refine (ih known).trans (List.filter_congr fun token _ => ?_)
        have other : token ∉ known → token ≠ m.tokenId := fun unknown eq => unknown (eq ▸ seen)
        simpa using other
      · rw [if_neg seen, List.filter_cons_of_pos (by simpa using seen), List.filter_filter]
        refine congrArg (m.tokenId :: ·) ((ih _).trans (List.filter_congr fun token _ => ?_))
        simp [Bool.and_comm]

/-- An empty filter lets everything pass, as `filter_by_question` would. -/
theorem subscribeFresh_eq (filterStr : Str) (fresh : List TokenMeta) :
    subscribeFresh filterStr fresh = filterByQuestion fresh filterStr := by
  unfold subscribeFresh
  split
  · rename_i noFilter
    subst noFilter
    rfl
  · rfl

namespace Subscriptions

/-- What a cycle does, whether it is skipped, finds nothing or calls `subscribe`. -/
theorem cycle_eq (filterStr : Str) (s : Subscriptions) (fresh : List TokenMeta) :
    let newIds := tokens (newRows s.knownIds (subscribeFresh filterStr fresh)).1
    (cycle filterStr s fresh).knownIds =
        (newRows s.knownIds (subscribeFresh filterStr fresh)).2 ∧
      (cycle filterStr s fresh).fullSubscriptionJson =
        (if newIds = [] then s.fullSubscriptionJson
          else addTokens s.fullSubscriptionJson newIds) ∧
      (cycle filterStr s fresh).batches = if newIds = [] then s.batches
        else s.batches ++ [newIds] := by
  dsimp only
  unfold cycle
  by_cases nothing : fresh = []
  · rw [if_pos nothing, nothing, subscribeFresh_eq]
    have empty : filterByQuestion [] filterStr = [] := by
      unfold filterByQuestion
      dsimp only
      split <;> rfl
    rw [empty]
    exact ⟨rfl, rfl, rfl⟩
  · rw [if_neg nothing]
    dsimp only
    split
    · exact ⟨rfl, rfl, rfl⟩
    · rename_i noId
      exact ⟨rfl, if_neg noId, rfl⟩

/-! ## All cycles -/

/-- The tokens handed over so far are the newly found ones, the known ones are these and the
initial ones, and the text is built from both. -/
structure Rebuilt (filterStr : Str) (tokenIds : List Str) (fetches : List (List TokenMeta))
    (s : Subscriptions) : Prop where
  batches : s.batches.flatten = newlyFound filterStr tokenIds fetches
  known : ∀ token, token ∈ s.knownIds ↔ token ∈ tokenIds ∨ token ∈ passing filterStr fetches
  text : s.fullSubscriptionJson =
    buildSubscriptionJson (tokenIds ++ newlyFound filterStr tokenIds fetches)

theorem rebuilt_boot (filterStr : Str) (tokenIds : List Str) :
    Rebuilt filterStr tokenIds [] (boot tokenIds) where
  batches := rfl
  known := fun _ => (or_iff_left List.not_mem_nil).symm
  text := congrArg buildSubscriptionJson (List.append_nil tokenIds).symm

theorem passing_concat (filterStr : Str) (fetches : List (List TokenMeta))
    (fresh : List TokenMeta) :
    passing filterStr (fetches ++ [fresh]) =
      passing filterStr fetches ++ tokens (subscribeFresh filterStr fresh) := by
  rw [passing, List.flatMap_append, List.flatMap_singleton]
  rfl

theorem Rebuilt.cycle {filterStr : Str} {tokenIds : List Str} {fetches : List (List TokenMeta)}
    {s : Subscriptions} (rebuilt : Rebuilt filterStr tokenIds fetches s)
    (fresh : List TokenMeta) :
    Rebuilt filterStr tokenIds (fetches ++ [fresh]) (s.cycle filterStr fresh) := by
  obtain ⟨known, text, batches⟩ := cycle_eq filterStr s fresh
  -- the diff finds what the longer history adds
  have found : newlyFound filterStr tokenIds (fetches ++ [fresh]) =
      newlyFound filterStr tokenIds fetches ++
        tokens (newRows s.knownIds (subscribeFresh filterStr fresh)).1 := by
    rw [newlyFound, passing_concat, firstSeen_append, List.filter_append, List.filter_filter,
      tokens_newRows]
    refine congrArg (_ ++ ·) (List.filter_congr fun token _ => ?_)
    simp [rebuilt.known token]
  constructor
  · rw [batches, found, ← rebuilt.batches]
    split
    · rename_i noIds
      rw [noIds, List.append_nil]
    · exact List.flatten_concat
  · intro token
    rw [known, passing_concat, List.mem_append, ← or_assoc, ← rebuilt.known token,
      mem_known_newRows, tokens_newRows]
    simp [or_and_left, em]
  · rw [text, found, rebuilt.text]
    split
    · rename_i noIds
      rw [noIds, List.append_nil]
    · rw [addTokens_build, List.append_assoc]

theorem rebuilt_cycles (filterStr : Str) (tokenIds : List Str)
    (fetches : List (List TokenMeta)) :
    Rebuilt filterStr tokenIds fetches (fetches.foldl (cycle filterStr) (boot tokenIds)) := by
  induction fetches using List.reverseRecOn with
  | nil => exact rebuilt_boot filterStr tokenIds
  | append_singleton fetches fresh ih =>
      rw [List.foldl_concat]
      exact ih.cycle fresh

/-- **Incremental is rebuilt.** After any cycles the text is the one built from the initial tokens
and the newly found ones, and each of these was in one call of `subscribe`, once. -/
theorem subscription_rebuilt (filterStr : Str) (tokenIds : List Str)
    (fetches : List (List TokenMeta)) :
    let s := fetches.foldl (cycle filterStr) (boot tokenIds)
    s.fullSubscriptionJson =
        buildSubscriptionJson (tokenIds ++ newlyFound filterStr tokenIds fetches) ∧
      s.batches.flatten = newlyFound filterStr tokenIds fetches ∧
      ∀ token ∈ newlyFound filterStr tokenIds fetches, ∃ before batch after,
        s.batches = before ++ batch :: after ∧ batch.count token = 1 ∧
          ∀ other ∈ before ++ after, token ∉ other := by
  intro s
  have rebuilt := rebuilt_cycles filterStr tokenIds fetches
  refine ⟨rebuilt.text, rebuilt.batches, fun token mem => ?_⟩
  have once : s.batches.flatten.count token = 1 := by
    rw [rebuilt.batches]
    exact List.count_eq_one_of_mem (nodup_newlyFound filterStr tokenIds fetches) mem
  rw [← rebuilt.batches] at mem
  obtain ⟨batch, handed, mem⟩ := List.mem_flatten.mp mem
  obtain ⟨before, after, split⟩ := List.append_of_mem handed
  have here : 0 < batch.count token := List.count_pos_iff.mpr mem
  rw [split, List.flatten_append, List.flatten_cons, List.count_append, List.count_append] at once
  refine ⟨before, batch, after, split, by omega, fun other inside again => ?_⟩
  have elsewhere : 0 < (before ++ after).flatten.count token :=
    List.count_pos_iff.mpr (List.mem_flatten.mpr ⟨other, inside, again⟩)
  rw [List.flatten_append, List.count_append] at elsewhere
  omega

end Subscriptions

end Tickscope.Harvester
