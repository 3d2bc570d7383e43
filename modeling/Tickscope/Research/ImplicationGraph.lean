import Mathlib.Data.Finset.Dedup
import Mathlib.Data.Finset.Insert
import Mathlib.Data.NNReal.Defs
import Tickscope.Research.FetchMarkets

/-!
# The implication graph

`build_implication_graph` connects the markets of one asset and one date by their strikes: an edge
A → B means "A being true guarantees B is true". A title that asks for a price above the strike at a
time and one that asks for a price that is reached up to this time are treated alike.
`edges_sound_iff` says of every set of accepted titles when all edges hold on every price path.
-/

namespace Tickscope.Research.FetchMarkets

open Tickscope.Lib

/-! ## What a title asks -/

inductive Form where
  /-- the price is above the amount at the date -/
  | above
  /-- the price is at the amount, or above it, at some time up to the date -/
  | touch
deriving DecidableEq

structure Question where
  form : Form
  amount : Nat
  date : Text
deriving DecidableEq

/-- The market resolves true on this path of the price; `day` is the time that a date stands for. -/
def Question.Resolves (day : Text → ℝ) (path : ℝ → NNReal) (q : Question) : Prop :=
  match q.form with
  | .above => q.amount < path (day q.date)
  | .touch => ∃ t ≤ day q.date, q.amount ≤ path t

section Paths

variable {day : Text → ℝ} {q : Question} {c : NNReal}

theorem Question.resolves_const (lt : q.amount < c) : q.Resolves day fun _ => c := by
  unfold Resolves
  split
  · exact lt
  · exact ⟨day q.date, le_rfl, lt.le⟩

theorem Question.not_resolves_const (lt : c < q.amount) : ¬ q.Resolves day fun _ => c := by
  unfold Resolves
  split
  · exact not_lt.mpr lt.le
  · rintro ⟨_, -, le⟩
    exact absurd le (not_le.mpr lt)

/-- The price is at `c` until it falls to nothing. -/
noncomputable def crash (time : ℝ) (c : NNReal) (t : ℝ) : NNReal := if t < time then c else 0

end Paths

/-- On this path an amount has been reached, and the price is not above any at the date. -/
theorem Question.resolves_crash (day : Text → ℝ) {a b : Question} (same : a.date = b.date)
    (touch : a.form = .touch) (above : b.form = .above) :
    a.Resolves day (crash (day a.date) a.amount) ∧
      ¬ b.Resolves day (crash (day a.date) a.amount) := by
  constructor
  · rw [Resolves, touch]
    exact ⟨day a.date - 1, (sub_one_lt _).le, (if_pos (sub_one_lt _)).ge⟩
  · intro later
    rw [Resolves, above, same, crash] at later
    exact not_lt_zero (later.trans_eq (if_neg (lt_irrefl _)))

/-- **Two questions** about the same date: the first implies the second on every path exactly if it
asks for no less, and not for another time. -/
theorem Question.implies_iff (day : Text → ℝ) {a b : Question} (same : a.date = b.date) :
    (∀ path, a.Resolves day path → b.Resolves day path) ↔
      ¬ (a.form = .touch ∧ b.form = .above) ∧ b.amount ≤ a.amount := by
  constructor
  · intro implies
    constructor
    · rintro ⟨touch, above⟩
      obtain ⟨reached, fallen⟩ := resolves_crash day same touch above
      exact fallen (implies _ reached)
    · by_contra less
      -- a price between the two amounts, at all times
      obtain ⟨c, above, below⟩ := exists_between (Nat.cast_lt (α := NNReal).mpr (not_le.mp less))
      exact not_resolves_const below (implies _ (resolves_const above))
  · rintro ⟨sameTime, le⟩ path
    have le' : (b.amount : NNReal) ≤ a.amount := Nat.cast_le.mpr le
    unfold Resolves
    cases first : a.form with
    | above =>
        intro lt
        cases b.form with
        | above => exact same ▸ le'.trans_lt lt
        | touch => exact ⟨day b.date, le_rfl, same ▸ le'.trans lt.le⟩
    | touch =>
        rintro ⟨t, before, reached⟩
        cases second : b.form with
        | above => exact absurd ⟨first, second⟩ sameTime
        | touch => exact ⟨t, same ▸ before, le'.trans reached⟩

/-! ## What a title says -/

/-- The form of the question; a price that falls or stays between two amounts is not one of them. -/
def Phrase.form : Phrase → Option Form
  | .above => some .above
  | .beGreaterThan => some .above
  | .reach => some .touch
  | .hit => some .touch
  | .dipTo => none
  | .beLessThan => none
  | .beBetween => none

section Match

variable (m : Regex.Match PriceGroup)

def phraseOf : Option Phrase :=
  m.groups.findSome? fun found =>
    match found.1 with
    | .phrase phrase => some phrase
    | _ => none

/-- The amount that the title names, exactly. -/
def amount : Option Nat :=
  (PyText.digits (raw m)).bind fun number => (multiplier m).map fun mult => number * mult.getD 1

end Match

/-- The question of a title. -/
def reading (title : Text) : Option Question :=
  (priceRe.search title).bind fun m =>
    ((phraseOf m).bind Phrase.form).bind fun form =>
      (amount m).map fun amount => ⟨form, amount, date m⟩

theorem reading_eq_some {title : Text} {q : Question} (read : reading title = some q) :
    ∃ m, priceRe.search title = some m ∧ amount m = some q.amount ∧ q.date = date m := by
  obtain ⟨m, found, rest⟩ := Option.bind_eq_some_iff.mp read
  obtain ⟨form, -, rest⟩ := Option.bind_eq_some_iff.mp rest
  obtain ⟨_, amount, rfl⟩ := Option.map_eq_some_iff.mp rest
  exact ⟨m, found, amount, rfl⟩

/-- The strike is the amount as far as a double is exact. -/
theorem strikePrice_of_lt {m : Regex.Match PriceGroup} {parsed : Parsed}
    (made : parseMatch m = .ok parsed) {exact : Nat} (named : amount m = some exact)
    (small : exact < 2 ^ 53) : parsed.strikePrice = .some exact := by
  obtain ⟨-, number, digits, strike⟩ := parseMatch_cases made
  rw [amount, digits, Option.bind_some] at named
  rcases strike with ⟨plain, strike⟩ | ⟨mult, suffixed, strike⟩
  · rw [plain, Option.map_some, Option.getD_none, Nat.mul_one] at named
    cases named
    exact strike.trans (toDouble_of_lt small)
  · rw [suffixed, Option.map_some, Option.getD_some] at named
    cases named
    exact strike.trans (timesDouble_of_lt (multiplier_pos suffixed) small)

/-! ## The graph -/

/-- A row of the data frame: a market whose title has been accepted. -/
structure Row where
  marketId : Text
  title : Text
  parsed : Parsed
  accepted : parseMarketTitle title = .ok (some parsed)
deriving DecidableEq

/-- The row of a market, if its title is accepted. -/
def accept (marketId title : Text) : Except Exception (Option Row) :=
  match accepted : parseMarketTitle title with
  | .error e => .error e
  | .ok none => .ok none
  | .ok (some parsed) => .ok (some ⟨marketId, title, parsed, accepted⟩)

/-- The rows that `main` keeps; one title that raises ends it. -/
def parsedRows (markets : List (Text × Text)) : Except Exception (List Row) :=
  (markets.mapM fun market => accept market.1 market.2).map List.reduceOption

/-- The key of `groupby`. -/
def Row.key (row : Row) : Text × Text := (row.parsed.asset, row.parsed.date)

def groups (rows : List Row) : List (List Row) :=
  (rows.map Row.key).dedup.map fun key => rows.filter fun row => row.key = key

/-- `combinations` of two. -/
def combinations {α : Type} : List α → List (α × α)
  | [] => []
  | a :: as => as.map (fun b => (a, b)) ++ combinations as

def edgeOf (pair : Row × Row) : List (Row × Row) :=
  if pair.1.parsed.strikePrice > pair.2.parsed.strikePrice then [(pair.1, pair.2)]
  else if pair.2.parsed.strikePrice > pair.1.parsed.strikePrice then [(pair.2, pair.1)]
  else []

/-- The rows for which `add_edge` is called. -/
def implications (rows : List Row) : List (Row × Row) :=
  (groups rows).flatMap fun group =>
    if group.length < 2 then [] else (combinations group).flatMap edgeOf

structure DiGraph where
  nodes : Finset Text
  edges : Finset (Text × Text)

def buildImplicationGraph (rows : List Row) : DiGraph where
  nodes := (rows.map Row.marketId).toFinset
  edges := ((implications rows).map fun edge => (edge.1.marketId, edge.2.marketId)).toFinset

section Combinations

variable {α : Type} {as : List α} {a b : α}

theorem mem_of_mem_combinations (mem : (a, b) ∈ combinations as) : a ∈ as ∧ b ∈ as := by
  induction as with
  | nil => cases mem
  | cons c as ih =>
      rcases List.mem_append.mp mem with first | later
      · obtain ⟨b, mem, ⟨⟩⟩ := List.mem_map.mp first
        exact ⟨List.mem_cons_self, List.mem_cons_of_mem _ mem⟩
      · exact (ih later).imp (List.mem_cons_of_mem _) (List.mem_cons_of_mem _)

theorem mem_combinations_of_ne (memA : a ∈ as) (memB : b ∈ as) (ne : a ≠ b) :
    (a, b) ∈ combinations as ∨ (b, a) ∈ combinations as := by
  induction as with
  | nil => cases memA
  | cons c as ih =>
      rw [combinations, List.mem_append, List.mem_append]
      rw [List.mem_cons] at memA memB
      rcases memA with rfl | memA
      · exact .inl (.inl (List.mem_map_of_mem (memB.resolve_left ne.symm)))
      · rcases memB with rfl | memB
        · exact .inr (.inl (List.mem_map_of_mem memA))
        · exact (ih memA memB).imp .inr .inr

theorem combinations_of_length_lt (lt : as.length < 2) : combinations as = [] := by
  match as with
  | [] => rfl
  | [_] => rfl
  | _ :: _ :: _ => exact absurd lt (by simp)

end Combinations

theorem mem_edgeOf {pair : Row × Row} {a b : Row} :
    (a, b) ∈ edgeOf pair ↔
      (pair = (a, b) ∨ pair = (b, a)) ∧ b.parsed.strikePrice < a.parsed.strikePrice := by
  obtain ⟨c, d⟩ := pair
  rw [Prod.mk.injEq, Prod.mk.injEq, edgeOf]
  constructor
  · intro mem
    split_ifs at mem with gt gt'
    · cases List.mem_singleton.mp mem
      exact ⟨.inl ⟨rfl, rfl⟩, gt⟩
    · cases List.mem_singleton.mp mem
      exact ⟨.inr ⟨rfl, rfl⟩, gt'⟩
    · cases mem
  · rintro ⟨⟨rfl, rfl⟩ | ⟨rfl, rfl⟩, gt⟩
    · rw [if_pos gt]
      exact List.mem_singleton_self _
    · rw [if_neg (not_lt.mpr gt.le), if_pos gt]
      exact List.mem_singleton_self _

/-- Two rows of one asset and one date, the first with the higher strike. -/
structure Row.Higher (a b : Row) : Prop where
  key : a.key = b.key
  strike : b.parsed.strikePrice < a.parsed.strikePrice

/-- An edge leads from every higher strike to every lower, for one asset and one date. -/
theorem mem_implications {rows : List Row} {a b : Row} :
    (a, b) ∈ implications rows ↔ a ∈ rows ∧ b ∈ rows ∧ a.Higher b := by
  rw [implications, List.mem_flatMap]
  constructor
  · rintro ⟨group, isGroup, mem⟩
    obtain ⟨key, -, rfl⟩ := List.mem_map.mp isGroup
    split at mem
    · cases mem
    · obtain ⟨⟨c, d⟩, pair, mem⟩ := List.mem_flatMap.mp mem
      obtain ⟨memC, memD⟩ := mem_of_mem_combinations pair
      obtain ⟨inC, keyC⟩ := List.mem_filter.mp memC
      obtain ⟨inD, keyD⟩ := List.mem_filter.mp memD
      have same : c.key = d.key := (of_decide_eq_true keyC).trans (of_decide_eq_true keyD).symm
      obtain ⟨eq | eq, gt⟩ := mem_edgeOf.mp mem
      · cases eq
        exact ⟨inC, inD, same, gt⟩
      · cases eq
        exact ⟨inD, inC, same.symm, gt⟩
  · rintro ⟨inA, inB, ⟨same, gt⟩⟩
    have ne : a ≠ b := fun eq => (eq ▸ gt).false
    have memA : a ∈ rows.filter fun row => row.key = a.key :=
      List.mem_filter.mpr ⟨inA, decide_eq_true rfl⟩
    have memB : b ∈ rows.filter fun row => row.key = a.key :=
      List.mem_filter.mpr ⟨inB, decide_eq_true same.symm⟩
    refine ⟨_, List.mem_map_of_mem (List.mem_dedup.mpr (List.mem_map_of_mem inA)), ?_⟩
    have pairs := mem_combinations_of_ne memA memB ne
    split
    · rename_i lt
      rw [combinations_of_length_lt lt] at pairs
      rcases pairs with pair | pair <;> cases pair
    · rw [List.mem_flatMap]
      rcases pairs with pair | pair
      · exact ⟨_, pair, mem_edgeOf.mpr ⟨.inl rfl, gt⟩⟩
      · exact ⟨_, pair, mem_edgeOf.mpr ⟨.inr rfl, gt⟩⟩

/-! ## Soundness -/

theorem date_of_reading {row : Row} {q : Question} (read : reading row.title = some q) :
    q.date = row.parsed.date := by
  obtain ⟨m, found, -, named⟩ := reading_eq_some read
  obtain ⟨m', found', made⟩ := parseMarketTitle_eq_ok_some row.accepted
  cases found.symm.trans found'
  exact named.trans (parseMatch_cases made).1.symm

theorem strike_of_reading {row : Row} {q : Question} (read : reading row.title = some q)
    (small : q.amount < 2 ^ 53) : row.parsed.strikePrice = .some q.amount := by
  obtain ⟨m, found, exact, -⟩ := reading_eq_some read
  obtain ⟨m', found', made⟩ := parseMarketTitle_eq_ok_some row.accepted
  cases found.symm.trans found'
  exact strikePrice_of_lt made exact small

/-- **The edges.** All edges between titles that are read hold on every price path if and only if,
of two titles for one asset and one date, the one with the higher strike never asks whether the
price reaches or hits an amount while the other asks whether it is above one, and never names the
smaller amount. -/
theorem edges_sound_iff (day : Text → ℝ) (rows : List Row) :
    (∀ a b, (a, b) ∈ implications rows → ∀ asked implied, reading a.title = some asked →
        reading b.title = some implied →
        ∀ path, asked.Resolves day path → implied.Resolves day path) ↔
      ∀ a ∈ rows, ∀ b ∈ rows, a.Higher b → ∀ asked implied, reading a.title = some asked →
        reading b.title = some implied →
        ¬ (asked.form = .touch ∧ implied.form = .above) ∧ implied.amount ≤ asked.amount := by
  have sameDate : ∀ {a b : Row}, a.Higher b → ∀ asked implied, reading a.title = some asked →
      reading b.title = some implied → asked.date = implied.date := by
    intro a b higher asked implied readA readB
    rw [date_of_reading readA, date_of_reading readB]
    exact congrArg Prod.snd higher.key
  constructor
  · intro sound a inA b inB higher asked implied readA readB
    refine (Question.implies_iff day (sameDate higher asked implied readA readB)).mp ?_
    exact sound a b (mem_implications.mpr ⟨inA, inB, higher⟩) asked implied readA readB
  · intro apart a b edge asked implied readA readB
    obtain ⟨inA, inB, higher⟩ := mem_implications.mp edge
    refine (Question.implies_iff day (sameDate higher asked implied readA readB)).mpr ?_
    exact apart a inA b inB higher asked implied readA readB

/-- Amounts below 2⁵³ are in the order of the strikes. -/
theorem amount_lt_of_higher {a b : Row} {asked implied : Question} (higher : a.Higher b)
    (readA : reading a.title = some asked) (readB : reading b.title = some implied)
    (smallA : asked.amount < 2 ^ 53) (smallB : implied.amount < 2 ^ 53) :
    implied.amount < asked.amount := by
  have lt := higher.strike
  rw [strike_of_reading readA smallA, strike_of_reading readB smallB] at lt
  exact WithTop.coe_lt_coe.mp lt

def reaches : Row where
  marketId := "0xa".toList
  title := "Will Bitcoin reach $150,000 by December 31, 2026?".toList
  parsed := ⟨"BTC".toList, WithTop.some 150000, "December 31, 2026".toList⟩
  accepted := by decide +kernel

def isAbove : Row where
  marketId := "0xb".toList
  title := "Will the price of Bitcoin be above $100,000 on December 31, 2026?".toList
  parsed := ⟨"BTC".toList, WithTop.some 100000, "December 31, 2026".toList⟩
  accepted := by decide +kernel

/-- The price is at $150,000 until the last day, and at nothing on it. -/
theorem edge_fails_from_reach_to_above :
    parsedRows [(reaches.marketId, reaches.title), (isAbove.marketId, isAbove.title)] =
        .ok [reaches, isAbove] ∧
      (buildImplicationGraph [reaches, isAbove]).edges = {("0xa".toList, "0xb".toList)} ∧
      ∃ asked implied, reading reaches.title = some asked ∧ reading isAbove.title = some implied ∧
        asked.Resolves (fun _ => 0) (crash 0 asked.amount) ∧
        ¬ implied.Resolves (fun _ => 0) (crash 0 asked.amount) := by
  refine ⟨by decide +kernel, by decide +kernel, ⟨.touch, 150000, "December 31, 2026".toList⟩,
    ⟨.above, 100000, "December 31, 2026".toList⟩, by decide +kernel, by decide +kernel, ?_⟩
  exact Question.resolves_crash _ rfl rfl rfl

end Tickscope.Research.FetchMarkets
