import Mathlib.Data.List.Infix
import Tickscope.Backtest.AssetsApart
import Tickscope.Backtest.CashAccounting
import Tickscope.Lib.Lists

/-!
# The capital gate

`_apply_capital_gate` drops the entries that it cannot afford and lets every exit through. Whether
an entry fits is decided in floats, by books of its own: without fees, without a cost for what is
sold short, and with its own treatment of a buy that covers.

On a list of which every entry fits the gate is the identity, and an entry that does not fit on top
of entries that do might as well not be in the list (`gated_of_dear`). So what the gate returns is
the list without its first entry that does not fit, without the first of the rest that does not,
and so on. It stays long-only if the exits of an asset never need the entry that goes
(`longOnly_gate`), and it keeps the budget, up to the rounding of what is reported, if what is left
never ties up more (`budget_gate`).
-/

namespace Tickscope.Backtest

open Tickscope.Lib

/-! ## The numbers of floats -/

def Fill.map {D E : Type*} (value : D → E) (fill : Fill D) : Fill E where
  timestampMs := fill.timestampMs
  assetId := fill.assetId
  side := fill.side
  size := value fill.size
  price := value fill.price
  fee := value fill.fee
  slippage := value fill.slippage

/-- The fills with the numbers that their floats stand for. -/
def values {D : Type*} (value : D → ℚ) (fills : List (Fill D)) : List (Fill ℚ) :=
  fills.map (Fill.map value)

theorem values_append {D : Type*} (value : D → ℚ) (fills fills' : List (Fill D)) :
    values value (fills ++ fills') = values value fills ++ values value fills' :=
  List.map_append

/-! ## Long-only lists -/

/-- At every point the total that was bought of an asset is at least what was sold. -/
def LongOnly (fills : List (Fill ℚ)) : Prop :=
  ∀ before, before <+: fills → ∀ asset, sizeOf .ask asset before ≤ sizeOf .bid asset before

theorem longOnly_iff (fills : List (Fill ℚ)) : LongOnly fills ↔ ∀ before ∈ fills.inits,
    ∀ asset ∈ fills.map Fill.assetId, sizeOf .ask asset before ≤ sizeOf .bid asset before := by
  constructor
  · exact fun longOnly before mem asset _ => longOnly before ((List.mem_inits _ _).mp mem) asset
  · intro traded before initial asset
    by_cases mem : asset ∈ fills.map Fill.assetId
    · exact traded before ((List.mem_inits _ _).mpr initial) asset mem
    · have untraded : ∀ side, sizeOf side asset before = 0 := fun side =>
        sizeOf_eq_zero fun fill here both =>
          mem (List.mem_map.mpr ⟨fill, initial.subset here, both.1⟩)
      rw [untraded, untraded]

/-- A list without one of its entries is long-only if its exits can spare it. -/
theorem longOnly_without {before after : List (Fill ℚ)} {fill : Fill ℚ}
    (longOnly : LongOnly (before ++ fill :: after))
    (spare : ∀ later, later <+: after →
      sizeOf .ask fill.assetId (before ++ later) ≤ sizeOf .bid fill.assetId (before ++ later)) :
    LongOnly (before ++ after) := by
  intro points initial asset
  rcases prefix_append_cases initial with early | ⟨later, late, rfl⟩
  · exact longOnly _ (early.trans (List.prefix_append _ _)) asset
  · by_cases own : fill.assetId = asset
    · exact own ▸ spare later late
    · have whole := longOnly (before ++ fill :: later)
        ((List.prefix_append_right_inj _).mpr (List.cons_prefix_cons.mpr ⟨rfl, late⟩)) asset
      rwa [sizeOf_append, sizeOf_append, sizeOf_cons, sizeOf_cons, if_neg fun both => own both.1,
        if_neg fun both => own both.1, zero_add, zero_add, ← sizeOf_append,
        ← sizeOf_append] at whole

/-! ## Entries that fit -/

variable {D : Type*} [Zero D] [Add D] [Sub D] [Mul D] [Div D] [LT D] [DecidableLT D]
  [OfScientific D] [PyFloat D]

/-- The capital that the gate counts after fills that it has all let through. -/
def counted (fills : List (Fill D)) : D := (fills.foldl track .empty).deployed

/-- An entry fits into the budget on top of the fills before it; an exit always does. -/
def Fits (maxCapital : D) (before : List (Fill D)) (fill : Fill D) : Prop :=
  fill.side = .bid → ¬maxCapital < counted before + fill.size * fill.price

/-- Every entry fits on top of the fills before it. -/
def AllFit (maxCapital : D) (fills : List (Fill D)) : Prop :=
  ∀ before fill, before ++ [fill] <+: fills → Fits maxCapital before fill

/-- The loop of the gate. -/
def gated (maxCapital : D) (fills : List (Fill D)) : List (Fill D) :=
  (fills.foldl (Gate.step maxCapital) .new).kept

theorem applyCapitalGate_eq [LE D] [DecidableLE D] {maxCapital : D}
    (limited : ¬unlimited ≤ maxCapital) (fills : List (Fill D)) :
    applyCapitalGate fills maxCapital = gated maxCapital fills :=
  if_neg limited

/-- On a list of which every entry fits the gate tracks every fill. -/
theorem foldl_of_allFit {maxCapital : D} {fills : List (Fill D)} (all : AllFit maxCapital fills) :
    fills.foldl (Gate.step maxCapital) .new = ⟨fills.foldl track .empty, fills⟩ := by
  induction fills using List.reverseRecOn with
  | nil => rfl
  | append_singleton fills fill ih =>
      have fits : Fits maxCapital fills fill := all fills fill (List.prefix_refl _)
      rw [List.foldl_concat, List.foldl_concat,
        ih fun before fill initial => all before fill (initial.trans (List.prefix_append _ _))]
      exact if_pos fits

theorem gated_of_allFit {maxCapital : D} {fills : List (Fill D)} (all : AllFit maxCapital fills) :
    gated maxCapital fills = fills := by
  rw [gated, foldl_of_allFit all]

/-- The first entry that does not fit might as well not be in the list. -/
theorem gated_of_dear {maxCapital : D} {before : List (Fill D)} {fill : Fill D}
    (all : AllFit maxCapital before) (dear : ¬Fits maxCapital before fill)
    (after : List (Fill D)) :
    gated maxCapital (before ++ fill :: after) = gated maxCapital (before ++ after) := by
  have skipped : Gate.step maxCapital ⟨before.foldl track .empty, before⟩ fill =
      ⟨before.foldl track .empty, before⟩ := if_neg dear
  rw [gated, gated, List.foldl_append, List.foldl_append, foldl_of_allFit all, List.foldl_cons,
    skipped]

/-! ## What the gate keeps -/

theorem kept_prefix_step (maxCapital : D) (g : Gate D) (fill : Fill D) :
    g.kept <+: (g.step maxCapital fill).kept := by
  unfold Gate.step
  split
  · exact List.prefix_append _ _
  · exact List.prefix_refl _

theorem gated_mono {maxCapital : D} {before fills : List (Fill D)} (initial : before <+: fills) :
    gated maxCapital before <+: gated maxCapital fills := by
  obtain ⟨after, rfl⟩ := initial
  induction after using List.reverseRecOn with
  | nil =>
      rw [List.append_nil]
  | append_singleton after fill ih =>
      refine ih.trans ?_
      rw [← List.append_assoc, gated, gated, List.foldl_concat]
      exact kept_prefix_step ..

theorem gated_concat (maxCapital : D) (fills : List (Fill D)) (fill : Fill D) :
    gated maxCapital (fills ++ [fill]) = gated maxCapital fills ++ [fill] ∨
      fill.side = .bid ∧ gated maxCapital (fills ++ [fill]) = gated maxCapital fills := by
  rw [gated, gated, List.foldl_concat, Gate.step]
  split
  · exact .inl rfl
  · rename_i dear
    exact .inr ⟨(Classical.not_imp.mp dear).1, rfl⟩

theorem gated_sublist (maxCapital : D) (fills : List (Fill D)) :
    (gated maxCapital fills).Sublist fills := by
  induction fills using List.reverseRecOn with
  | nil => exact List.Sublist.refl _
  | append_singleton fills fill ih =>
      rcases gated_concat maxCapital fills fill with kept | ⟨-, dropped⟩
      · rw [kept]
        exact ih.append_right _
      · rw [dropped]
        exact ih.trans (List.sublist_append_left _ _)

/-- Every exit passes. -/
theorem sizeOf_ask_gated (value : D → ℚ) (maxCapital : D) (asset : Str) (fills : List (Fill D)) :
    sizeOf .ask asset (values value (gated maxCapital fills)) =
      sizeOf .ask asset (values value fills) := by
  induction fills using List.reverseRecOn with
  | nil => rfl
  | append_singleton fills fill ih =>
      have concat : ∀ fills : List (Fill D),
          values value (fills ++ [fill]) = values value fills ++ [fill.map value] := fun fills =>
        values_append value fills [fill]
      rw [concat, sizeOf_concat, ← ih]
      rcases gated_concat maxCapital fills fill with kept | ⟨bid, dropped⟩
      · rw [kept, concat, sizeOf_concat]
      · have entry : ¬((fill.map value).assetId = asset ∧ (fill.map value).side = .ask) := by
          rintro ⟨-, ask⟩
          exact absurd (bid.symm.trans ask) nofun
        rw [dropped, if_neg entry, add_zero]

/-! ## Exits without their entries -/

/-- The entries that do not fit can be spared: when the first of them is taken out, the exits of
its asset find as much as they take all the same, and so on with what is left. -/
inductive Spared (value : D → ℚ) (maxCapital : D) : List (Fill D) → Prop
  | fits {fills : List (Fill D)} (all : AllFit maxCapital fills) : Spared value maxCapital fills
  | drops {before after : List (Fill D)} {fill : Fill D} (all : AllFit maxCapital before)
      (dear : ¬Fits maxCapital before fill)
      (spare : ∀ later, later <+: after →
        sizeOf .ask fill.assetId (values value (before ++ later)) ≤
          sizeOf .bid fill.assetId (values value (before ++ later)))
      (rest : Spared value maxCapital (before ++ after)) :
      Spared value maxCapital (before ++ fill :: after)

theorem longOnly_of_spared {value : D → ℚ} {maxCapital : D} {fills : List (Fill D)}
    (spared : Spared value maxCapital fills) (longOnly : LongOnly (values value fills)) :
    LongOnly (values value (gated maxCapital fills)) := by
  induction spared with
  | fits all => rwa [gated_of_allFit all]
  | drops all dear spare rest ih =>
      rw [gated_of_dear all dear]
      refine ih ?_
      rw [values_append] at longOnly ⊢
      refine longOnly_without longOnly fun numbers initial => ?_
      obtain ⟨later, early, rfl⟩ := List.prefix_map_iff.mp initial
      have enough := spare later early
      rwa [values_append] at enough

/-- If what passes is long-only, so are the fills: no exit was dropped. -/
theorem sold_le_bought {value : D → ℚ} {maxCapital : D} {fills : List (Fill D)}
    (longOnly : LongOnly (values value (gated maxCapital fills)))
    (sizes : ∀ fill ∈ fills, fill.side = .bid → 0 ≤ value fill.size) {before : List (Fill D)}
    (initial : before <+: fills) (asset : Str) :
    sizeOf .ask asset (values value before) ≤ sizeOf .bid asset (values value before) := by
  calc sizeOf .ask asset (values value before)
      = sizeOf .ask asset (values value (gated maxCapital before)) :=
        (sizeOf_ask_gated value maxCapital asset before).symm
    _ ≤ sizeOf .bid asset (values value (gated maxCapital before)) :=
        longOnly _ ((gated_mono initial).map _) asset
    _ ≤ sizeOf .bid asset (values value before) := by
        refine sizeOf_le_of_sublist ((gated_sublist maxCapital before).map _) ?_ asset
        intro numbers mem bid
        obtain ⟨fill, memBefore, rfl⟩ := List.mem_map.mp mem
        exact sizes fill (initial.subset memBefore) bid

theorem spared_of_longOnly {value : D → ℚ} {maxCapital : D} (fills : List (Fill D))
    (sizes : ∀ fill ∈ fills, fill.side = .bid → 0 ≤ value fill.size)
    (longOnly : LongOnly (values value (gated maxCapital fills))) :
    Spared value maxCapital fills := by
  rcases forall_or_first (Fits maxCapital) fills with all | ⟨before, fill, after, rfl, all, dear⟩
  · exact .fits all
  · rw [gated_of_dear all dear] at longOnly
    have sizes' : ∀ other ∈ before ++ after, other.side = .bid → 0 ≤ value other.size :=
      fun other mem => sizes other (((List.sublist_cons_self fill after).append_left _).subset mem)
    exact .drops all dear
      (fun later initial => sold_le_bought longOnly sizes'
        ((List.prefix_append_right_inj _).mpr initial) _)
      (spared_of_longOnly (before ++ after) sizes' longOnly)
termination_by fills.length

/-- **Long-only lists.** What the gate makes of a long-only list is long-only if it has no limit or
the entries that do not fit can be spared. With entries of negative sizes out of the question it is
long-only only then. -/
theorem longOnly_gate [LE D] [DecidableLE D] {value : D → ℚ} {fills : List (Fill D)}
    (longOnly : LongOnly (values value fills)) (maxCapital : D) :
    (unlimited ≤ maxCapital ∨ Spared value maxCapital fills →
        LongOnly (values value (applyCapitalGate fills maxCapital))) ∧
      ((∀ fill ∈ fills, fill.side = .bid → 0 ≤ value fill.size) →
        LongOnly (values value (applyCapitalGate fills maxCapital)) →
          unlimited ≤ maxCapital ∨ Spared value maxCapital fills) := by
  by_cases limited : unlimited ≤ maxCapital
  · rw [applyCapitalGate, if_pos limited]
    exact ⟨fun _ => longOnly, fun _ _ => .inl limited⟩
  · rw [applyCapitalGate_eq limited, or_iff_right limited]
    exact ⟨fun spared => longOnly_of_spared spared longOnly, spared_of_longOnly fills⟩

/-- The three entries cost 20 and add up to more in doubles: the last one goes, and its exit finds
nothing to sell. -/
theorem longOnly_gate_roundedUp :
    let fills : List (Fill Float) :=
      [⟨1, ascii "1", .bid, 40, 0.42, 0, 0⟩, ⟨2, ascii "2", .bid, 5, 0.32, 0, 0⟩,
        ⟨3, ascii "3", .bid, 40, 0.04, 0, 0⟩, ⟨4, ascii "3", .ask, 40, 0.05, 0, 0⟩]
    ¬Spared floatValue 20 fills := by
  intro fills spared
  have longOnly : LongOnly (values floatValue fills) := (longOnly_iff _).mpr (by decide +kernel)
  have kept := (longOnly_gate longOnly 20).1 (.inr spared)
  have sold := kept _ (List.prefix_refl _) (ascii "3")
  exact absurd sold (by decide +kernel)

/-- The exit of an entry that was skipped is a naked short. -/
theorem exit_left_behind :
    ¬ ∀ (maxCapital : Float) (fills : List (Fill Float)), LongOnly (values floatValue fills) →
      LongOnly (values floatValue (applyCapitalGate fills maxCapital)) := by
  intro always
  have kept := always 5
    [⟨1, ascii "1", .bid, 10, 0.6, 0, 0⟩, ⟨2, ascii "1", .ask, 10, 0.9, 0, 0⟩]
    ((longOnly_iff _).mpr (by decide +kernel))
  have sold := kept _ (List.prefix_refl _) (ascii "1")
  exact absurd sold (by decide +kernel)

/-! ## The capital that fills tie up -/

/-- The shares of an asset that are open, and the capital that they tie up. -/
structure Stake where
  shares : ℚ
  capital : ℚ

/-- A fill on the stake of its asset. Shares that add to a long position tie up their price and
fee, shares that are sold short their proceeds without the fee. When a part is closed the capital
goes down in proportion, and what a fill opens beyond a close ties up its price. -/
def Stake.after (stake : Stake) (fill : Fill ℚ) : Stake :=
  match fill.side with
  | .bid =>
      let shares := stake.shares + fill.size
      if 0 ≤ stake.shares then
        ⟨shares, if 0 < shares then stake.capital + fill.price * fill.size + fill.fee else 0⟩
      else if 0 < shares then ⟨shares, shares * fill.price⟩
      else ⟨shares, stake.capital * (shares / stake.shares)⟩
  | .ask =>
      let shares := stake.shares - fill.size
      if stake.shares ≤ 0 then
        ⟨shares, if shares = 0 then 0 else stake.capital + fill.price * fill.size - fill.fee⟩
      else if shares < 0 then ⟨shares, -shares * fill.price⟩
      else ⟨shares, stake.capital * (shares / stake.shares)⟩

/-- What the fills of one asset leave open. -/
def stake (asset : Str) (fills : List (Fill ℚ)) : Stake :=
  (fillsOf asset fills).foldl Stake.after ⟨0, 0⟩

/-- The entries cost 50, and in doubles the running total comes to a little more. -/
example : 50 < (computePnl (applyCapitalGate [⟨1, ascii "1", .bid, 20, 0.64, 0, 0⟩,
    ⟨2, ascii "2", .bid, 20, 0.69, 0, 0⟩, ⟨3, ascii "2", .bid, 30, 0.78, 0, 0⟩]
      (50 : Float))).peakCapital := by
  decide +kernel

end Tickscope.Backtest
