import Tickscope.Lib.Str

/-!
# Subscription messages

`src/gateway/WebSocketClient.cpp`: the message is built once from all tokens, and
`subscribe` inserts new tokens into its text. `addTokens_build` says that the text
is then the one that would be built from all tokens.
-/

namespace Tickscope.Gateway

open Tickscope.Lib

/-- The loop over the tokens: each in quotes, a comma before all but perhaps the first. -/
def quoteAll (first : Bool) : List Str → Str
  | [] => []
  | token :: tokens =>
      (if first then [] else ascii ",") ++ ascii "\"" ++ token ++ ascii "\"" ++
        quoteAll false tokens

def buildSubscriptionJson (tokens : List Str) : Str :=
  ascii "\x7b\"assets_ids\":[" ++ quoteAll true tokens ++ ascii "],\"type\":\"market\"\x7d"

/-- What `subscribe` does to `full_subscription_json_`: the new tokens go before the last `]`,
the first of them without a comma when the array is empty. -/
def addTokens (full : Str) (newTokens : List Str) : Str :=
  match rfind 93 full with
  | none => full
  | some pos =>
      let emptyArray : Bool := 0 < pos ∧ full[pos - 1]? = some 91
      full.take pos ++ quoteAll emptyArray newTokens ++ full.drop pos

/-- The message is a subscription to the token. -/
def Names (msg token : Str) : Prop :=
  ∃ tokens, token ∈ tokens ∧ msg = buildSubscriptionJson tokens

/-! ## The text after an insertion -/

theorem quoteAll_append (first : Bool) (tokens newTokens : List Str) :
    quoteAll first (tokens ++ newTokens) =
      quoteAll first tokens ++ quoteAll (first && tokens.isEmpty) newTokens := by
  induction tokens generalizing first with
  | nil => rw [List.nil_append, quoteAll, List.nil_append, List.isEmpty_nil, Bool.and_true]
  | cons token tokens ih =>
      rw [List.cons_append, quoteAll, quoteAll, ih, Bool.false_and, List.isEmpty_cons,
        Bool.and_false]
      simp only [List.append_assoc]

/-- A list of tokens ends with a quote. -/
theorem quoteAll_eq_concat (first : Bool) {tokens : List Str} (nonempty : tokens ≠ []) :
    ∃ text, quoteAll first tokens = text ++ ascii "\"" := by
  induction tokens generalizing first with
  | nil => exact (nonempty rfl).elim
  | cons token tokens ih =>
      rw [quoteAll]
      cases tokens with
      | nil => exact ⟨_, List.append_nil _⟩
      | cons next tokens =>
          rcases ih false (List.cons_ne_nil next tokens) with ⟨text, eq⟩
          exact ⟨_, by rw [eq, ← List.append_assoc]⟩

theorem buildSubscriptionJson_eq (tokens : List Str) :
    buildSubscriptionJson tokens =
      (ascii "\x7b\"assets_ids\":[" ++ quoteAll true tokens) ++
        93 :: ascii ",\"type\":\"market\"\x7d" :=
  rfl

/-- The character before the array's end shows whether the array is empty. -/
theorem getElem?_before_end (tokens : List Str) :
    (buildSubscriptionJson tokens)[(ascii "\x7b\"assets_ids\":[" ++ quoteAll true tokens).length -
      1]? = some (if tokens.isEmpty then 91 else 34) := by
  cases tokens with
  | nil => rfl
  | cons token tokens =>
      rcases quoteAll_eq_concat true (List.cons_ne_nil token tokens) with ⟨text, eq⟩
      rw [buildSubscriptionJson_eq, eq, ← List.append_assoc, List.length_append, List.append_assoc]
      show _[_ + 1 - 1]? = _
      rw [Nat.add_sub_cancel, List.getElem?_append_right (Nat.le_refl _), Nat.sub_self]
      rfl

/-- **Insertion is rebuilding.** -/
theorem addTokens_build (tokens newTokens : List Str) :
    addTokens (buildSubscriptionJson tokens) newTokens =
      buildSubscriptionJson (tokens ++ newTokens) := by
  have found : rfind 93 (buildSubscriptionJson tokens) =
      some (ascii "\x7b\"assets_ids\":[" ++ quoteAll true tokens).length := by
    rw [buildSubscriptionJson_eq]
    exact rfind_append_cons (by decide) _
  have empty : (decide (0 < (ascii "\x7b\"assets_ids\":[" ++ quoteAll true tokens).length ∧
      (buildSubscriptionJson tokens)[(ascii "\x7b\"assets_ids\":[" ++
        quoteAll true tokens).length - 1]? = some 91)) = (true && tokens.isEmpty) := by
    rw [getElem?_before_end, List.length_append]
    cases tokens <;> simp [ascii, quoteAll]
  rw [addTokens, found]
  dsimp only
  rw [empty, buildSubscriptionJson_eq, List.take_left, List.drop_left, buildSubscriptionJson_eq,
    quoteAll_append]
  simp only [List.append_assoc]

/-- A subscription has its tokens in it, in quotes. -/
theorem Names.isInfix {msg token : Str} (names : Names msg token) :
    ascii "\"" ++ token ++ ascii "\"" <:+: msg := by
  obtain ⟨tokens, mem, rfl⟩ := names
  obtain ⟨before, after, rfl⟩ := List.append_of_mem mem
  refine ⟨ascii "\x7b\"assets_ids\":[" ++ quoteAll true before ++
    (if true && before.isEmpty then [] else ascii ","),
    quoteAll false after ++ ascii "],\"type\":\"market\"\x7d", ?_⟩
  rw [buildSubscriptionJson, quoteAll_append, quoteAll]
  simp only [List.append_assoc]

/-! ## What has been sent -/

/-- The token is in a subscription among the messages. -/
def Sent (messages : List Str) (token : Str) : Prop :=
  ∃ msg ∈ messages, Names msg token

theorem Sent.append {messages : List Str} {token : Str} (sent : Sent messages token)
    (more : List Str) : Sent (messages ++ more) token := by
  rcases sent with ⟨msg, mem, names⟩
  exact ⟨msg, List.mem_append_left more mem, names⟩

theorem sent_build {tokens : List Str} {token : Str} (mem : token ∈ tokens)
    (messages : List Str) : Sent (messages ++ [buildSubscriptionJson tokens]) token :=
  ⟨_, List.mem_append_right messages (List.mem_singleton_self _), tokens, mem, rfl⟩

end Tickscope.Gateway
