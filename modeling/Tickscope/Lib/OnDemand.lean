import Mathlib.Data.List.Basic
import Tickscope.Lib.KeyedTable
import Tickscope.Lib.Str

/-!
# A message as simdjson's on-demand parser shows it

The parser reads a message while the program walks over it, so it may fail anywhere. A `Value` is
what one pass meets: an element or a field where the parser fails is an error. A program that asks
an object for a key at most once needs no more than one outcome for each key.

`Simdjson` has what the library decides: the pass over a text, and what is in a string. Accessors
that are called with `.get(x)` return their error. The implicit conversion of an element in a
range-for throws it: `forObjects` is such a loop, and `forObjects_thrown` says when it throws.
`member` and `inText` are the lookups of a dictionary, in which the last of two fields with a key
counts; in an object without a repeated key they find what the accessors find.
-/

namespace Tickscope.Lib.OnDemand

/-- `simdjson::error_code`. -/
inductive Error where
  | incorrectType
  | noSuchField
  /-- a failure of the parser, by its code -/
  | parse (code : Nat)
deriving DecidableEq

/-- `simdjson_result`. -/
abbrev Result (α : Type) := Except Error α

inductive Value where
  | null
  | bool (b : Bool)
  | number (raw : Str)
  | string (raw : Str)
  | array (elements : List (Except Error Value))
  | object (fields : List (Str × Except Error Value))

/-- An object's fields, each with what its lookup gives. -/
abbrev Fields := List (Str × Result Value)

/-- What the library decides; `D` stands for `double`. -/
structure Simdjson (D : Type) where
  /-- the document of a text -/
  iterate : Str → Result Value
  /-- the text of a raw string -/
  unescape : Str → Result Str
  uint64InString : Str → Result (BitVec 64)
  doubleInString : Str → Result D

/-! ## Accessors -/

/-- `object[key]`. -/
def field (fields : Fields) (key : Str) : Result Value :=
  ((fields.find? fun entry => entry.1 = key).map Prod.snd).getD (.error .noSuchField)

/-- `get_object()`. -/
def getObject : Result Value → Result Fields
  | .ok (.object fields) => .ok fields
  | .ok _ => .error .incorrectType
  | .error e => .error e

/-- `get_array()`. -/
def getArray : Result Value → Result (List (Result Value))
  | .ok (.array elements) => .ok elements
  | .ok _ => .error .incorrectType
  | .error e => .error e

/-- An accessor of what is in a string. -/
def inString {α : Type} (read : Str → Result α) : Result Value → Result α
  | .ok (.string raw) => read raw
  | .ok _ => .error .incorrectType
  | .error e => .error e

namespace Simdjson

variable {D : Type} (json : Simdjson D)

/-- `get_string()`. -/
def getString (value : Result Value) : Result Str := inString json.unescape value

/-- `get_uint64_in_string()`. -/
def getUint64InString (value : Result Value) : Result (BitVec 64) :=
  inString json.uint64InString value

/-- `get_double_in_string()`. -/
def getDoubleInString (value : Result Value) : Result D := inString json.doubleInString value

end Simdjson

/-- The element converts to an object. -/
def IsObject (element : Result Value) : Prop := ∃ fields, element = .ok (.object fields)

theorem getObject_eq_ok {element : Result Value} {fields : Fields} :
    getObject element = .ok fields ↔ element = .ok (.object fields) := by
  constructor
  · intro eq
    cases element with
    | error e => cases eq
    | ok value =>
        cases value <;> cases eq
        rfl
  · intro same
    subst same
    rfl

/-! ## Lookups of a dictionary -/

def member (fields : Fields) (key : Str) : Option Value :=
  (lastRowOf Prod.fst fields key).bind fun entry => entry.2.toOption

/-- What is in the string under a key. -/
def inText {α : Type} (read : Str → Result α) (fields : Fields) (key : Str) : Option α :=
  match member fields key with
  | some (.string raw) => (read raw).toOption
  | _ => none

/-- An object without a repeated key. -/
def Distinct (fields : Fields) : Prop := (fields.map Prod.fst).Nodup

theorem toOption_field {fields : Fields} (distinct : Distinct fields) (key : Str) :
    (field fields key).toOption = member fields key := by
  rw [member, lastRowOf_of_nodup distinct, field]
  show _ = Option.bind (fields.find? fun entry => entry.1 = key) _
  cases fields.find? fun entry => entry.1 = key with
  | none => rfl
  | some entry => rfl

theorem toOption_inString {α : Type} (read : Str → Result α) {fields : Fields}
    (distinct : Distinct fields) (key : Str) :
    (inString read (field fields key)).toOption = inText read fields key := by
  rw [inText, ← toOption_field distinct]
  cases field fields key with
  | error e => rfl
  | ok value => cases value <;> rfl

/-! ## Range-for with an implicit conversion -/

/-- What a piece of code has put out, and the exception that has ended it, if any. -/
structure Ran (β : Type) where
  out : List β
  thrown : Option Error

/-- The code returns normally with this output. -/
def Ran.done {β : Type} (out : List β) : Ran β := ⟨out, none⟩

/-- `for (object element : array) body`. -/
def forObjects {β : Type} (body : Fields → Result (List β)) : List (Result Value) → Ran β
  | [] => .done []
  | element :: rest =>
      match getObject element with
      | .error e => ⟨[], some e⟩
      | .ok fields =>
          match body fields with
          | .error e => ⟨[], some e⟩
          | .ok out =>
              let ran := forObjects body rest
              ⟨out ++ ran.out, ran.thrown⟩

/-- The loop returns normally when every element converts and the body throws for none. -/
theorem forObjects_thrown {β : Type} (body : Fields → Result (List β))
    (elements : List (Result Value)) :
    (forObjects body elements).thrown = none ↔
      ∀ element ∈ elements, ∃ fields out, element = .ok (.object fields) ∧ body fields = .ok out := by
  induction elements with
  | nil => exact ⟨fun _ => nofun, fun _ => rfl⟩
  | cons element rest ih =>
      rw [List.forall_mem_cons, ← ih, forObjects]
      cases converted : getObject element with
      | error e =>
          refine ⟨nofun, ?_⟩
          intro both
          rcases both with ⟨⟨fields, out, isObject, -⟩, -⟩
          rw [getObject_eq_ok.mpr isObject] at converted
          cases converted
      | ok fields =>
          have isObject := getObject_eq_ok.mp converted
          dsimp only
          cases ran : body fields with
          | error e =>
              refine ⟨nofun, ?_⟩
              intro both
              rcases both with ⟨⟨fields', out, isObject', ran'⟩, -⟩
              cases isObject.symm.trans isObject'
              cases ran.symm.trans ran'
          | ok out =>
              exact ⟨fun done => ⟨⟨fields, out, isObject, ran⟩, done⟩, fun both => both.2⟩

/-- What the loop puts out was put out for an element of the array. -/
theorem mem_forObjects {β : Type} {body : Fields → Result (List β)}
    {elements : List (Result Value)} {b : β} (mem : b ∈ (forObjects body elements).out) :
    ∃ fields out, body fields = .ok out ∧ b ∈ out := by
  induction elements with
  | nil => cases mem
  | cons element rest ih =>
      rw [forObjects] at mem
      split at mem
      · cases mem
      · rename_i fields _
        split at mem
        · cases mem
        · rename_i out ran
          rcases List.mem_append.mp mem with mem | mem
          · exact ⟨fields, out, ran, mem⟩
          · exact ih mem

/-- A loop that keeps only some of what its body puts out. -/
theorem forObjects_filter {β : Type} (p : β → Bool) (body : Fields → Result (List β))
    (elements : List (Result Value)) :
    (forObjects (fun fields => (body fields).map (List.filter p)) elements).out =
      (forObjects body elements).out.filter p := by
  induction elements with
  | nil => rfl
  | cons element rest ih =>
      rw [forObjects, forObjects]
      cases getObject element with
      | error e => rfl
      | ok fields =>
          dsimp only
          cases body fields with
          | error e => rfl
          | ok out =>
              rw [List.filter_append, ← ih]
              rfl

/-- A loop whose body never throws returns normally when every element is an object. -/
theorem forObjects_thrown_total {β : Type} (body : Fields → List β)
    (elements : List (Result Value)) :
    (forObjects (fun fields => .ok (body fields)) elements).thrown = none ↔
      ∀ element ∈ elements, IsObject element := by
  rw [forObjects_thrown]
  refine forall₂_congr fun element _ => ⟨?_, ?_⟩
  · intro runs
    rcases runs with ⟨fields, out, isObject, -⟩
    exact ⟨fields, isObject⟩
  · intro isObject
    rcases isObject with ⟨fields, isObject⟩
    exact ⟨fields, body fields, isObject, rfl⟩

/-- A loop over objects whose body never throws. -/
theorem forObjects_out_total {β : Type} (body : Fields → List β) {elements : List (Result Value)}
    (all : ∀ element ∈ elements, IsObject element) :
    (forObjects (fun fields => .ok (body fields)) elements).out =
      elements.flatMap fun element =>
        match element with
        | .ok (.object fields) => body fields
        | _ => [] := by
  induction elements with
  | nil => rfl
  | cons element rest ih =>
      rw [List.forall_mem_cons] at all
      obtain ⟨⟨fields, rfl⟩, all⟩ := all
      rw [List.flatMap_cons, ← ih all]
      rfl

end Tickscope.Lib.OnDemand
