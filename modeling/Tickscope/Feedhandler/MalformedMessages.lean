import Mathlib.Algebra.Order.Field.Rat
import Tickscope.Bot.FeedHandler
import Tickscope.Feedhandler.Feedhandler

/-!
# Malformed messages

Fields are read with checked error codes, but the loops convert their elements implicitly, and
that conversion throws. `returns_iff` says for which messages nothing leaves `parse_and_push`,
which is `noexcept`, and `on_message`.
-/

namespace Tickscope.Feedhandler

open Tickscope.Lib Tickscope.Lib.OnDemand

/-- **Malformed messages.** A message is discarded or handled by both programs exactly when all
that their loops convert, within the sizes that they take, are objects. -/
theorem returns_iff {D : Type} [Zero D] [LE D] [DecidableLE D] (json : Simdjson D)
    (payload : Str) :
    ((onMessage json payload).thrown = none ↔
        (payload.length ≤ maxPayloadBytes → LegsConvert json payload)) ∧
      ((Bot.FeedHandler.onMessage json payload).thrown = none ↔
        (payload ≠ [] → payload.length ≤ Bot.FeedHandler.maxPayload →
          Bot.FeedHandler.ElementsConvert json payload)) :=
  ⟨onMessage_thrown json payload, Bot.FeedHandler.onMessage_thrown json payload⟩

/-- A text that the parser rejects as a whole is discarded by both. -/
theorem returns_of_rejected {D : Type} [Zero D] [LE D] [DecidableLE D] {json : Simdjson D}
    {payload : Str} {e : Error} (rejected : json.iterate payload = .error e) :
    (onMessage json payload).thrown = none ∧
      (Bot.FeedHandler.onMessage json payload).thrown = none := by
  refine ⟨(onMessage_thrown ..).mpr fun _ => ?_,
    (Bot.FeedHandler.onMessage_thrown ..).mpr fun _ _ => ?_⟩
  · intro obj timestamp changes document
    exact nomatch rejected.symm.trans document
  · exact ⟨fun elements document => (nomatch rejected.symm.trans document),
      fun obj changes document => (nomatch rejected.symm.trans document)⟩

/-! ## A number where a leg should be -/

def numberLeg : Str :=
  ascii "\x7b\"event_type\":\"price_change\",\"timestamp\":\"1\",\"price_changes\":[1]\x7d"

def numberLegFields : Fields :=
  [(ascii "event_type", .ok (.string (ascii "price_change"))),
    (ascii "timestamp", .ok (.string (ascii "1"))),
    (ascii "price_changes", .ok (.array [.ok (.number (ascii "1"))]))]

/-- A parser that knows this one text. -/
def numberLegJson : Simdjson ℚ where
  iterate text :=
    if text = numberLeg then .ok (.object numberLegFields) else .error (.parse 3)
  unescape := .ok
  uint64InString raw := if raw = ascii "1" then .ok 1 else .error (.parse 9)
  doubleInString raw := if raw = ascii "1" then .ok 1 else .error (.parse 9)

/-- The element `1` is a number: both loops throw. -/
theorem returns_fails_at_number :
    ¬ ((onMessage numberLegJson numberLeg).thrown = none ∧
      (Bot.FeedHandler.onMessage numberLegJson numberLeg).thrown = none) ∧
    (onMessage numberLegJson numberLeg).thrown = some .incorrectType ∧
      (Bot.FeedHandler.onMessage numberLegJson numberLeg).thrown = some .incorrectType := by
  have harvester : (onMessage numberLegJson numberLeg).thrown = some .incorrectType := by
    decide +kernel
  have bot : (Bot.FeedHandler.onMessage numberLegJson numberLeg).thrown = some .incorrectType := by
    decide +kernel
  exact ⟨fun both => (nomatch harvester.symm.trans both.1), harvester, bot⟩

end Tickscope.Feedhandler
