import Tickscope.Bot.StrategyEngine

/-!
# Conservation of the ledger

Both threads act on what they have read before. Only `on_tick` buys, so the position that it has
not found is still missing when it buys. A sweep sells what its snapshot holds: a position in it
may have been sold meanwhile, but not bought again, because the sweep has read the clock before
the snapshot, an entry reads it after the sale, and the cutoff for entries is wider than the
grace of the sweep. `System.Held` says this of a position that a sweep will sell, `System.Inv`
collects what one step keeps. The orders of a run are then steps of `account`, which opens only
what is closed and closes exactly what is open: `ledger_conservation`.
-/

namespace Tickscope.Bot

open Tickscope.Lib

/-! ## Where `on_tick` is -/

namespace OnTick

/-- The market that `on_tick` has found without a position. -/
def vacant : OnTick → Option Str
  | .entryMeta cid .. => some cid
  | .checkCapital cid .. => some cid
  | .size cid .. => some cid
  | .refetchMeta cid .. => some cid
  | .buy cid .. => some cid
  | _ => none

/-- The market whose time to the end has passed the cutoff. -/
def pastCutoff : OnTick → Option Str
  | .checkCapital cid .. => some cid
  | .size cid .. => some cid
  | .refetchMeta cid .. => some cid
  | .buy cid .. => some cid
  | _ => none

/-- The market and the clock reading that the cutoff will be applied to. -/
def beforeCutoff : OnTick → Option (Str × Int)
  | .hasPosition cid _ now => some (cid, now)
  | .entryMeta cid _ now => some (cid, now)
  | _ => none

/-- This `on_tick` will not buy a market that had expired at `now`. -/
def Safe (ws : OnTick) (now : Int) (cid : Str) : Prop :=
  ws.pastCutoff ≠ some cid ∧ ∀ read, ws.beforeCutoff = some (cid, read) → now ≤ read

theorem safe_of_none {ws : OnTick} (past : ws.pastCutoff = none) (before : ws.beforeCutoff = none)
    (now : Int) (cid : Str) : ws.Safe now cid :=
  ⟨by rw [past]; exact nofun, by rw [before]; exact nofun⟩

end OnTick

/-! ## Where a sweep is -/

namespace Sweep

/-- The clock reading, the snapshot and the markets that are still to be looked at or sold. -/
def remaining : Sweep → Option (Int × (AList fun _ : Str => Position) × List Str)
  | .examine now positions rest expired => some (now, positions, rest ++ expired)
  | .getBook now positions expired => some (now, positions, expired)
  | .sell now positions cid _ _ expired => some (now, positions, cid :: expired)
  | _ => none

/-- The markets that have been found expired. -/
def expired : Sweep → Option (Int × List Str)
  | .examine now _ _ expired => some (now, expired)
  | .getBook now _ expired => some (now, expired)
  | .sell now _ cid _ _ expired => some (now, cid :: expired)
  | _ => none

end Sweep

namespace System

/-- The market is within the sweep's grace of its end. -/
def Expired (s : System) (now : Int) (cid : Str) : Prop :=
  endsBy (now + expiryGraceS * 1000) (s.books.getMeta cid) = true

/-- The position is as the sweep has seen it, or it is gone and will not be bought again. -/
def Held (s : System) (now : Int) (cid : Str) (pos : Position) : Prop :=
  s.gateway.positions.lookup cid = some pos ∨
    s.gateway.positions.lookup cid = none ∧ s.ws.Safe now cid

/-- What holds of a sweep that has taken its snapshot. -/
structure Sweeping (s : System) (now : Int) (positions : AList fun _ : Str => Position)
    (cids : List Str) : Prop where
  now_le : now ≤ s.clock
  nodup : cids.Nodup
  held : ∀ cid ∈ cids, ∀ pos, positions.lookup cid = some pos → s.Expired now cid →
    s.Held now cid pos

structure Inv (initial : ℚ) (s : System) : Prop where
  balanced : s.gateway.Balanced initial
  vacant : ∀ cid, s.ws.vacant = some cid → s.gateway.positions.lookup cid = none
  selling : ∀ cid shares fillPx pos, s.ws = .sell cid shares fillPx →
    s.gateway.positions.lookup cid = some pos → pos.shares = shares
  reading : ∀ now, s.main = .snapshot now → now ≤ s.clock
  sweeping : ∀ now positions cids, s.main.remaining = some (now, positions, cids) →
    s.Sweeping now positions cids
  expired : ∀ now cids, s.main.expired = some (now, cids) → ∀ cid ∈ cids, s.Expired now cid
  closing : ∀ now positions cid shares exitPx rest,
    s.main = .sell now positions cid shares exitPx rest →
    ∃ pos, positions.lookup cid = some pos ∧ pos.shares = shares

theorem new_inv (initial : ℚ) (clock : Int) : (new initial clock).Inv initial where
  balanced := PaperGateway.new_balanced initial
  vacant := nofun
  selling := nofun
  reading := nofun
  sweeping := nofun
  expired := nofun
  closing := nofun

/-! ## Steps of `on_tick` -/

/-- `on_tick` reads, or the feed changes a book: the account stays as it is. -/
theorem Inv.quiet {initial : ℚ} {s s' : System} (inv : s.Inv initial)
    (gateway : s'.gateway = s.gateway) (main : s'.main = s.main)
    (metas : s'.books.metas = s.books.metas) (clock : s.clock ≤ s'.clock)
    (vacant : ∀ cid, s'.ws.vacant = some cid → s.gateway.positions.lookup cid = none)
    (selling : ∀ cid shares fillPx pos, s'.ws = .sell cid shares fillPx →
      s.gateway.positions.lookup cid = some pos → pos.shares = shares)
    (safe : ∀ now cid, now ≤ s.clock → s.Expired now cid → s.ws.Safe now cid →
      s'.ws.Safe now cid) : s'.Inv initial := by
  have expired : ∀ now cid, s'.Expired now cid ↔ s.Expired now cid := by
    intro now cid
    rw [Expired, Expired, BookState.getMeta, BookState.getMeta, metas]
  refine ⟨gateway ▸ inv.balanced, gateway ▸ vacant, gateway ▸ selling, ?_, ?_, ?_, ?_⟩
  · rw [main]
    exact fun now state => (inv.reading now state).trans clock
  · rw [main]
    intro now positions cids state
    have sweeping := inv.sweeping now positions cids state
    refine ⟨sweeping.now_le.trans clock, sweeping.nodup, fun cid mem pos found ends => ?_⟩
    have ends := (expired now cid).mp ends
    have held := sweeping.held cid mem pos found ends
    unfold Held at held ⊢
    rw [gateway]
    exact held.imp id fun ⟨gone, safe'⟩ => ⟨gone, safe now cid sweeping.now_le ends safe'⟩
  · rw [main]
    exact fun now cids state cid mem => (expired now cid).mpr (inv.expired now cids state cid mem)
  · rw [main]
    exact inv.closing

/-- A step of `on_tick` that only reads and is outside the entry branch afterwards. -/
theorem Inv.calm {initial : ℚ} {s s' : System} (inv : s.Inv initial)
    (gateway : s'.gateway = s.gateway) (main : s'.main = s.main)
    (metas : s'.books.metas = s.books.metas) (clock : s.clock ≤ s'.clock)
    (vacant : s'.ws.vacant = none) (past : s'.ws.pastCutoff = none)
    (before : s'.ws.beforeCutoff = none)
    (selling : ∀ cid shares fillPx pos, s'.ws = .sell cid shares fillPx →
      s.gateway.positions.lookup cid = some pos → pos.shares = shares) : s'.Inv initial :=
  inv.quiet gateway main metas clock (fun _ found => by rw [vacant] at found; cases found) selling
    fun now cid _ _ _ => OnTick.safe_of_none past before now cid

/-- A step of `on_tick` inside the entry branch, behind the cutoff. -/
theorem Inv.entering {initial : ℚ} {s s' : System} (inv : s.Inv initial)
    (gateway : s'.gateway = s.gateway) (main : s'.main = s.main)
    (metas : s'.books.metas = s.books.metas) (clock : s.clock ≤ s'.clock)
    (vacant : s'.ws.vacant = s.ws.vacant) (past : s'.ws.pastCutoff = s.ws.pastCutoff)
    (before : s'.ws.beforeCutoff = none) (selling : ∀ cid shares px, s'.ws ≠ .sell cid shares px) :
    s'.Inv initial :=
  inv.quiet gateway main metas clock (vacant ▸ inv.vacant)
    (fun cid shares px _ sells => (selling cid shares px sells).elim)
    fun now cid _ _ safe => ⟨past ▸ safe.1, by rw [before]; exact nofun⟩

/-- A purchase opens a position that is not open. -/
theorem Inv.buy {initial : ℚ} {s : System} (inv : s.Inv initial) {cid question : Str}
    {shares fillPx : ℚ} (state : s.ws = .buy cid question shares fillPx) {now : Int}
    (later : s.clock ≤ now) :
    ({ s with
        clock := now
        gateway := s.gateway.buy cid question shares fillPx now
        ws := .idle } : System).Inv initial := by
  have vacant := inv.vacant cid (by rw [state]; rfl)
  refine ⟨inv.balanced.buy vacant question shares fillPx now, nofun, nofun, ?_, ?_, ?_, ?_⟩
  · exact fun read main => (inv.reading read main).trans later
  · intro read positions cids main
    have sweeping := inv.sweeping read positions cids main
    refine ⟨sweeping.now_le.trans later, sweeping.nodup, fun other mem pos found ends => ?_⟩
    have held := sweeping.held other mem pos found ends
    -- the sweep does not have this market: it would be open or behind the cutoff
    have ne : other ≠ cid := by
      intro same
      subst same
      rcases held with isOpen | ⟨-, safe⟩
      · rw [vacant] at isOpen
        cases isOpen
      · exact safe.1 (by rw [state]; rfl)
    unfold Held
    rw [PaperGateway.lookup_buy_of_ne ne]
    exact held.imp id fun ⟨gone, _⟩ => ⟨gone, OnTick.safe_of_none rfl rfl read other⟩
  · exact inv.expired
  · exact inv.closing

/-- A sale by `on_tick`. -/
theorem Inv.sell {initial : ℚ} {s : System} (inv : s.Inv initial) {cid : Str}
    {shares fillPx : ℚ} (state : s.ws = .sell cid shares fillPx) :
    ({ s with gateway := s.gateway.sell cid shares fillPx, ws := .idle } : System).Inv
      initial := by
  refine ⟨inv.balanced.sell (fun pos => inv.selling cid shares fillPx pos state) fillPx,
    nofun, nofun, inv.reading, ?_, inv.expired, inv.closing⟩
  intro now positions cids main
  have sweeping := inv.sweeping now positions cids main
  refine ⟨sweeping.now_le, sweeping.nodup, fun other mem pos found ends => ?_⟩
  have held := sweeping.held other mem pos found ends
  have safe : OnTick.idle.Safe now other := OnTick.safe_of_none rfl rfl now other
  by_cases same : other = cid
  · exact .inr ⟨same ▸ PaperGateway.lookup_sell_self .., safe⟩
  · unfold Held
    rw [PaperGateway.lookup_sell_of_ne same]
    exact held.imp id fun ⟨gone, _⟩ => ⟨gone, safe⟩

/-- A market that ends by the sweep's deadline ends by that of a later entry. -/
theorem endsBy_mono {early late : Int} (le : early ≤ late) {info : Option MarketMeta}
    (ends : endsBy early info = true) : endsBy late info = true := by
  cases info with
  | none => cases ends
  | some info =>
      simp only [endsBy, decide_eq_true_eq] at ends ⊢
      exact ⟨ends.1, ends.2.trans le⟩

theorem lookup_of_hasPosition {gw : PaperGateway} {cid : Str}
    (missing : gw.hasPosition cid = false) : gw.positions.lookup cid = none := by
  rw [PaperGateway.hasPosition, Option.isSome_eq_false_iff, Option.isNone_iff_eq_none] at missing
  exact missing

theorem enter_cases (engine : StrategyEngine) (cid : Str) (bk : MarketBook) (now : Int) :
    engine.enter cid bk now = .idle ∨ engine.enter cid bk now = .entryMeta cid bk now := by
  unfold StrategyEngine.enter
  split
  · exact .inl rfl
  · split
    · exact .inl rfl
    · split
      · exact .inl rfl
      · exact .inr rfl

theorem leave_cases (engine : StrategyEngine) (cid : Str) (bk : MarketBook) (now : Int) :
    engine.leave cid bk now = .idle ∨ engine.leave cid bk now = .snapshot cid bk ∨
      engine.leave cid bk now = .exitMeta cid bk now := by
  unfold StrategyEngine.leave
  split
  · exact .inl rfl
  · split
    · exact .inr (.inl rfl)
    · exact .inr (.inr rfl)

theorem Inv.looks {engine : StrategyEngine} {initial : ℚ} {s : System} (inv : s.Inv initial)
    {next : OnTick} (looks : s.Looks engine s.ws next) :
    ({ s with ws := next } : System).Inv initial := by
  generalize state : s.ws = ws at looks
  cases looks with
  | noBook | book => exact inv.calm rfl rfl rfl le_rfl rfl rfl rfl nofun
  | @held cid bk read =>
      rcases leave_cases engine cid bk read with eq | eq | eq <;> rw [eq] <;>
        exact inv.calm rfl rfl rfl le_rfl rfl rfl rfl nofun
  | @vacant cid bk read missing =>
      rcases enter_cases engine cid bk read with eq | eq <;> rw [eq]
      · exact inv.calm rfl rfl rfl le_rfl rfl rfl rfl nofun
      · refine inv.quiet rfl rfl rfl le_rfl ?_ nofun fun time other _ _ safe => ⟨nofun, ?_⟩
        · intro other same
          cases same
          exact lookup_of_hasPosition missing
        · intro read' same
          exact safe.2 read' (by rw [state]; exact same)
  | tooLate => exact inv.calm rfl rfl rfl le_rfl rfl rfl rfl nofun
  | @inTime cid bk read open' =>
      have vacant := inv.vacant cid (by rw [state]; rfl)
      refine inv.quiet rfl rfl rfl le_rfl ?_ nofun fun time other _ ends safe => ⟨?_, nofun⟩
      · intro other same
        cases same
        exact vacant
      · intro same
        cases same
        have le := safe.2 read (by rw [state]; rfl)
        refine Bool.eq_false_iff.mp open' (endsBy_mono ?_ ends)
        show time + 30 * 1000 ≤ read + 120 * 1000
        omega
  | tooDear => exact inv.calm rfl rfl rfl le_rfl rfl rfl rfl nofun
  | enough | named | unnamed | refetched =>
      exact inv.entering rfl rfl rfl le_rfl (by rw [state]; rfl) (by rw [state]; rfl) rfl nofun
  | expiring | staying | gone => exact inv.calm rfl rfl rfl le_rfl rfl rfl rfl nofun
  | found seen =>
      refine inv.calm rfl rfl rfl le_rfl rfl rfl rfl fun cid' shares fillPx pos' same again => ?_
      cases same
      cases seen.symm.trans again
      rfl

theorem Inv.stepOnTick {engine : StrategyEngine} {initial : ℚ} {s s' : System}
    (inv : s.Inv initial) {now : Int} (step : s.stepOnTick engine now = some s') :
    s'.Inv initial := by
  cases ticks_of_stepOnTick step with
  | looks state looks => exact inv.looks (state ▸ looks)
  | clock state later =>
      refine inv.quiet rfl rfl rfl later nofun nofun fun read other early _ _ => ⟨nofun, ?_⟩
      intro time same
      cases same
      exact early.trans later
  | buy state later => exact inv.buy state later
  | sell state => exact inv.sell state

/-! ## Steps of the main thread -/

/-- The main thread moves without selling. -/
theorem Inv.stepMain {initial : ℚ} {s s' : System} (inv : s.Inv initial)
    (gateway : s'.gateway = s.gateway) (ws : s'.ws = s.ws)
    (reading : ∀ now, s'.main = .snapshot now → now ≤ s'.clock)
    (sweeping : ∀ now positions cids, s'.main.remaining = some (now, positions, cids) →
      s'.Sweeping now positions cids)
    (expired : ∀ now cids, s'.main.expired = some (now, cids) → ∀ cid ∈ cids, s'.Expired now cid)
    (closing : ∀ now positions cid shares exitPx rest,
      s'.main = .sell now positions cid shares exitPx rest →
      ∃ pos, positions.lookup cid = some pos ∧ pos.shares = shares) : s'.Inv initial where
  balanced := gateway ▸ inv.balanced
  vacant := by
    rw [gateway, ws]
    exact inv.vacant
  selling := by
    rw [gateway, ws]
    exact inv.selling
  reading := reading
  sweeping := sweeping
  expired := expired
  closing := closing

/-- A sweep looks at fewer markets than before. -/
theorem Sweeping.mono {s s' : System} {now : Int} {positions : AList fun _ : Str => Position}
    {cids cids' : List Str} (sweeping : s.Sweeping now positions cids) (nodup : cids'.Nodup)
    (subset : cids' ⊆ cids) (gateway : s'.gateway = s.gateway) (ws : s'.ws = s.ws)
    (books : s'.books = s.books) (clock : s'.clock = s.clock) : s'.Sweeping now positions cids' where
  now_le := clock ▸ sweeping.now_le
  nodup := nodup
  held := fun cid mem pos found ends => by
    have held := sweeping.held cid (subset mem) pos found (by
      rw [Expired, ← books]
      exact ends)
    unfold Held at held ⊢
    rw [gateway, ws]
    exact held

/-- The sweep's sale is made for the open shares, or finds nothing. -/
theorem Inv.sweepSell {initial : ℚ} {s : System} (inv : s.Inv initial) {now : Int}
    {positions : AList fun _ : Str => Position} {cid : Str} {shares exitPx : ℚ} {rest : List Str}
    (state : s.main = .sell now positions cid shares exitPx rest) :
    ∀ pos, s.gateway.positions.lookup cid = some pos → pos.shares = shares := by
  intro pos isOpen
  rcases inv.closing now positions cid shares exitPx rest state with ⟨seen, found, exact'⟩
  have sweeping := inv.sweeping now positions (cid :: rest) (by rw [state]; rfl)
  have ends := inv.expired now (cid :: rest) (by rw [state]; rfl) cid List.mem_cons_self
  rcases sweeping.held cid List.mem_cons_self seen found ends with same | ⟨gone, -⟩
  · cases isOpen.symm.trans same
    exact exact'
  · rw [isOpen] at gone
    cases gone

/-- The sweep goes on with some of its markets. -/
theorem Inv.sweepOn {initial : ℚ} {s : System} (inv : s.Inv initial) {main : Sweep} {now : Int}
    {positions : AList fun _ : Str => Position} {cids cids' ends : List Str}
    (sweeping : s.Sweeping now positions cids)
    (remaining : main.remaining = some (now, positions, cids')) (nodup : cids'.Nodup)
    (subset : cids' ⊆ cids) (expired : main.expired = some (now, ends))
    (passed : ∀ cid ∈ ends, s.Expired now cid)
    (closing : ∀ now positions cid shares exitPx rest,
      main = .sell now positions cid shares exitPx rest →
      ∃ pos, positions.lookup cid = some pos ∧ pos.shares = shares) :
    ({ s with main := main } : System).Inv initial := by
  refine inv.stepMain rfl rfl (fun read state => ?_) (fun read positions' rest same => ?_)
    (fun read rest same => ?_) closing
  · have state : main = .snapshot read := state
    rw [state] at remaining
    cases remaining
  · cases remaining.symm.trans same
    exact sweeping.mono nodup subset rfl rfl rfl rfl
  · cases expired.symm.trans same
    exact passed

/-- A sale by the sweep. -/
theorem Inv.sweepSold {initial : ℚ} {s : System} (inv : s.Inv initial) {now : Int}
    {positions : AList fun _ : Str => Position} {cid : Str} {shares exitPx : ℚ} {rest : List Str}
    (state : s.main = .sell now positions cid shares exitPx rest) :
    ({ s with gateway := s.gateway.sell cid shares exitPx, main := .getBook now positions rest } :
      System).Inv initial := by
  have sweeping := inv.sweeping now positions (cid :: rest) (by rw [state]; rfl)
  have ends := inv.expired now (cid :: rest) (by rw [state]; rfl)
  refine ⟨inv.balanced.sell (inv.sweepSell state) exitPx, fun other found => ?_,
    fun other shares' fillPx pos sells isOpen => ?_, nofun,
    fun read' positions' cids same => ?_, fun read' cids same other mem => ?_, nofun⟩
  · exact PaperGateway.lookup_sell_eq_none (inv.vacant other found) cid shares exitPx
  · exact inv.selling other shares' fillPx pos sells (PaperGateway.lookup_sell_eq_some isOpen).2
  · cases same
    rcases List.nodup_cons.mp sweeping.nodup with ⟨unseen, nodup⟩
    refine ⟨sweeping.now_le, nodup, fun other mem pos found passed => ?_⟩
    have ne : other ≠ cid := fun same => unseen (same ▸ mem)
    have held := sweeping.held other (List.mem_cons_of_mem cid mem) pos found passed
    unfold Held at held ⊢
    rw [PaperGateway.lookup_sell_of_ne ne]
    exact held
  · cases same
    exact ends other (List.mem_cons_of_mem cid mem)

/-- What a sweep has behind its snapshot. -/
theorem Inv.sweepAt {initial : ℚ} {s : System} (inv : s.Inv initial) {main : Sweep}
    (state : s.main = main) {now : Int} {positions : AList fun _ : Str => Position}
    {cids ends : List Str} (remaining : main.remaining = some (now, positions, cids))
    (expired : main.expired = some (now, ends)) :
    s.Sweeping now positions cids ∧ ∀ cid ∈ ends, s.Expired now cid := by
  subst state
  exact ⟨inv.sweeping now positions cids remaining, inv.expired now ends expired⟩

theorem Inv.sweeps {initial : ℚ} {s : System} (inv : s.Inv initial) {order : List Str}
    {next : Sweep} (sweeps : s.Sweeps order s.main next) :
    ({ s with main := next } : System).Inv initial := by
  generalize state : s.main = main at sweeps
  cases sweeps with
  | snapshot perm =>
      have sweeping : s.Sweeping _ s.gateway.positions order :=
        ⟨inv.reading _ state, perm.nodup_iff.mpr s.gateway.positions.keys_nodup,
          fun cid _ pos found _ => .inl found⟩
      refine inv.sweepOn sweeping rfl ?_ ?_ rfl nofun nofun
      · rw [List.append_nil]
        exact sweeping.nodup
      · rw [List.append_nil]
        exact List.Subset.refl order
  | examined =>
      obtain ⟨sweeping, ends⟩ := inv.sweepAt state rfl rfl
      exact inv.sweepOn sweeping rfl sweeping.nodup (List.Subset.refl _) rfl ends nofun
  | @expiring read positions cid rest expired passed =>
      obtain ⟨sweeping, ends⟩ := inv.sweepAt state rfl rfl
      have perm : (rest ++ (expired ++ [cid])).Perm (cid :: rest ++ expired) := by
        rw [← List.append_assoc]
        exact List.perm_append_singleton cid (rest ++ expired)
      refine inv.sweepOn sweeping rfl (perm.nodup_iff.mpr sweeping.nodup) perm.subset rfl
        (fun other mem => ?_) nofun
      rcases List.mem_append.mp mem with mem | mem
      · exact ends other mem
      · rw [List.mem_singleton.mp mem]
        exact passed
  | staying =>
      obtain ⟨sweeping, ends⟩ := inv.sweepAt state rfl rfl
      exact inv.sweepOn sweeping rfl (List.nodup_cons.mp sweeping.nodup).2
        (List.subset_cons_self ..) rfl ends nofun
  | done => exact inv.stepMain rfl rfl nofun nofun nofun nofun
  | unseen =>
      obtain ⟨sweeping, ends⟩ := inv.sweepAt state rfl rfl
      exact inv.sweepOn sweeping rfl (List.nodup_cons.mp sweeping.nodup).2
        (List.subset_cons_self ..) rfl
        (fun other mem => ends other (List.mem_cons_of_mem _ mem)) nofun
  | @seen read positions cid rest pos found =>
      obtain ⟨sweeping, ends⟩ := inv.sweepAt state rfl rfl
      refine inv.sweepOn sweeping rfl sweeping.nodup (List.Subset.refl _) rfl ends
        fun read' positions' cid' shares exitPx rest' same => ?_
      cases same
      exact ⟨pos, found, rfl⟩

theorem Inv.stepSweep {initial : ℚ} {s s' : System} (inv : s.Inv initial) {now : Int}
    {order : List Str} (step : s.stepSweep now order = some s') : s'.Inv initial := by
  cases turns_of_stepSweep step with
  | sweeps state sweeps => exact inv.sweeps (state ▸ sweeps)
  | clock state later =>
      refine inv.stepMain rfl rfl (fun read same => ?_) nofun nofun nofun
      cases same
      exact le_rfl
  | sell state => exact inv.sweepSold state

/-! ## Every run -/

theorem keeps_inv (engine : StrategyEngine) (initial : ℚ) :
    (machine engine).Keeps (fun _ _ => True) (Inv initial) := by
  intro s l s' inv _ step
  cases l with
  | update tokenId bid ask =>
      simp only [machine, System.step] at step
      split at step
      · cases step
        have metas := s.books.metas_onTick tokenId bid ask
        by_cases unknown : (s.books.onTick tokenId bid ask).2 = []
        · refine inv.calm rfl rfl metas le_rfl ?_ ?_ ?_ ?_ <;> rw [if_pos unknown]
          all_goals first | rfl | exact nofun
        · refine inv.calm rfl rfl metas le_rfl ?_ ?_ ?_ ?_ <;> rw [if_neg unknown]
          all_goals first | rfl | exact nofun
      · cases step
  | ws now => exact inv.stepOnTick step
  | addMarket info =>
      simp only [machine, System.step] at step
      split at step
      · rename_i state
        cases step
        refine inv.stepMain rfl rfl ?_ ?_ ?_ ?_ <;> rw [state] <;> exact nofun
      · cases step
  | sweep =>
      simp only [machine, System.step] at step
      split at step
      · cases step
        exact inv.stepMain rfl rfl nofun nofun nofun nofun
      · cases step
  | main now order => exact inv.stepSweep step

end System

/-! ## The orders of a run -/

/-- An order that took effect. -/
inductive Order where
  | bought (cid : Str) (shares : ℚ)
  | sold (cid : Str) (shares : ℚ)

/-- What an account may do: open what is not open, and close exactly what is. -/
def account : Machine (Str → Option ℚ) Order where
  step := fun
    | isOpen, .bought cid shares =>
        if isOpen cid = none then some (Function.update isOpen cid (some shares)) else none
    | isOpen, .sold cid shares =>
        if isOpen cid = some shares then some (Function.update isOpen cid none) else none

namespace PaperGateway

/-- The share counts of the open positions. -/
def openShares (gw : PaperGateway) (cid : Str) : Option ℚ :=
  (gw.positions.lookup cid).map Position.shares

/-- A `sell` that finds its position. -/
def sale (gw : PaperGateway) (cid : Str) (shares : ℚ) : List Order :=
  if gw.hasPosition cid then [.sold cid shares] else []

theorem account_buy {gw : PaperGateway} {cid : Str} (vacant : gw.positions.lookup cid = none)
    (question : Str) (shares fillPrice : ℚ) (nowMs : Int) :
    account.run gw.openShares [.bought cid shares] =
      some (gw.buy cid question shares fillPrice nowMs).openShares := by
  have closed : gw.openShares cid = none := by rw [openShares, vacant]; rfl
  simp only [Machine.run, account, if_pos closed, Option.bind_some]
  refine congrArg some (funext fun other => ?_)
  by_cases same : other = cid
  · rw [same, Function.update_self, openShares, PaperGateway.buy, AList.lookup_insert]
    rfl
  · rw [Function.update_of_ne same, openShares, openShares, lookup_buy_of_ne same]

theorem account_sell {gw : PaperGateway} {cid : Str} {shares : ℚ}
    (whole : ∀ pos, gw.positions.lookup cid = some pos → pos.shares = shares) (fillPrice : ℚ) :
    account.run gw.openShares (gw.sale cid shares) =
      some (gw.sell cid shares fillPrice).openShares := by
  cases found : gw.positions.lookup cid with
  | none =>
      rw [sale, hasPosition, PaperGateway.sell, found]
      rfl
  | some pos =>
      have isOpen : gw.openShares cid = some shares := by
        rw [openShares, found, ← whole pos found]
        rfl
      have present : gw.hasPosition cid = true := by rw [hasPosition, found]; rfl
      rw [sale, if_pos present]
      simp only [Machine.run, account, if_pos isOpen, Option.bind_some]
      refine congrArg some (funext fun other => ?_)
      by_cases same : other = cid
      · rw [same, Function.update_self, openShares, lookup_sell_self]
        rfl
      · rw [Function.update_of_ne same, openShares, openShares, lookup_sell_of_ne same]

end PaperGateway

namespace System

/-- The order that a step makes. -/
def orders (s : System) : Label → List Order
  | .ws _ =>
      match s.ws with
      | .buy cid _ shares _ => [.bought cid shares]
      | .sell cid shares _ => s.gateway.sale cid shares
      | _ => []
  | .main .. =>
      match s.main with
      | .sell _ _ cid shares _ _ => s.gateway.sale cid shares
      | _ => []
  | _ => []

theorem Inv.account_onTick {engine : StrategyEngine} {initial : ℚ} {s s' : System}
    (inv : s.Inv initial) {now : Int} (step : s.stepOnTick engine now = some s') :
    account.run s.gateway.openShares (s.orders (.ws now)) = some s'.gateway.openShares := by
  cases ticks_of_stepOnTick step with
  | looks state looks =>
      rw [orders, state]
      cases looks <;> rfl
  | clock state later =>
      rw [orders, state]
      rfl
  | @buy cid question shares fillPx state later =>
      have vacant := inv.vacant cid (by rw [state]; rfl)
      rw [orders, state]
      exact PaperGateway.account_buy vacant question shares fillPx now
  | @sell cid shares fillPx state =>
      rw [orders, state]
      exact PaperGateway.account_sell (fun pos => inv.selling cid shares fillPx pos state) fillPx

theorem Inv.account_sweep {initial : ℚ} {s s' : System} (inv : s.Inv initial) {now : Int}
    {order : List Str} (step : s.stepSweep now order = some s') :
    account.run s.gateway.openShares (s.orders (.main now order)) =
      some s'.gateway.openShares := by
  cases turns_of_stepSweep step with
  | sweeps state sweeps =>
      rw [orders, state]
      cases sweeps <;> rfl
  | clock state later =>
      rw [orders, state]
      rfl
  | @sell read positions cid shares exitPx rest state =>
      rw [orders, state]
      exact PaperGateway.account_sell (inv.sweepSell state) exitPx

/-- Every step is a step of the account, which is at the open positions. -/
theorem simulates_account (engine : StrategyEngine) (initial : ℚ) :
    Machine.Simulates (machine engine) orders account (fun _ order => [order])
      (fun _ _ => True) fun s isOpen => s.Inv initial ∧ isOpen = s.gateway.openShares := by
  rintro s isOpen l s' ⟨inv, rfl⟩ - step
  have inv' := keeps_inv engine initial inv True.intro step
  suffices run : account.run s.gateway.openShares (s.orders l) = some s'.gateway.openShares from
    ⟨s.orders l, _, run, Machine.trace_labels run, inv', rfl⟩
  cases l with
  | update tokenId bid ask =>
      simp only [machine, System.step] at step
      split at step <;> cases step
      rfl
  | ws now => exact inv.account_onTick step
  | addMarket info =>
      simp only [machine, System.step] at step
      split at step <;> cases step
      rfl
  | sweep =>
      simp only [machine, System.step] at step
      split at step <;> cases step
      rfl
  | main now order => exact inv.account_sweep step

/-- The orders of a run take the account from no positions to the open ones. -/
theorem account_of_run {engine : StrategyEngine} {initial : ℚ} {clock : Int} {labels : List Label}
    {s : System} (reached : (machine engine).run (new initial clock) labels = some s) :
    s.gateway.Balanced initial ∧
      account.run (fun _ => none) ((machine engine).trace orders (new initial clock) labels) =
        some s.gateway.openShares := by
  obtain ⟨made, isOpen, run, seen, inv, rfl⟩ :=
    (simulates_account engine initial).run (a := fun _ => none)
      ⟨new_inv initial clock, rfl⟩
      (Machine.along_of_forall_mem (fun _ _ _ => True.intro) _) reached
  refine ⟨inv.balanced, ?_⟩
  rw [← seen, Machine.trace_labels run]
  exact run

/-- **Conservation of the ledger.** Whatever the feed sends, however the two threads interleave
and whatever the clock reads: after every step the account adds up, and its orders so far have
opened only what was not open and closed, once, exactly what was. -/
theorem ledger_conservation (engine : StrategyEngine) (initial : ℚ) (clock : Int)
    (labels : List Label) (s : System)
    (reached : (machine engine).run (new initial clock) labels = some s) :
    s.gateway.capital + total Position.cost s.gateway.positions =
        initial + s.gateway.realisedPnl ∧
      account.run (fun _ => none) ((machine engine).trace orders (new initial clock) labels) =
        some s.gateway.openShares :=
  account_of_run reached

/-! ## A run that buys, sells on the tick and sweeps what is gone -/

def sampleMarket : MarketMeta := ⟨ascii "0xc1", ascii "Up or down", ascii "11", ascii "12", 300000⟩

/-- The market is bought at 0; at 280 s the sweep takes its snapshot, and `on_tick` sells before
the sweep does. -/
def sampleRun : List Label :=
  [.addMarket sampleMarket, .update (ascii "11") (38 / 100) (40 / 100), .ws 0, .ws 0, .ws 0,
    .update (ascii "12") (60 / 100) (62 / 100), .ws 0, .ws 0, .ws 0, .ws 0, .ws 0, .ws 0, .ws 0,
    .sweep, .main 280000 [], .main 0 [ascii "0xc1"], .main 0 [], .main 0 [], .main 0 [],
    .update (ascii "12") (97 / 100) (98 / 100), .ws 280001, .ws 280001, .ws 0, .ws 0, .ws 0,
    .main 0 []]

/-- The position is sold once: the sweep's sale finds nothing. -/
theorem ledger_conservation_sample :
    ((machine {}).trace orders (new 1000 0) sampleRun).length = 2 ∧
      ∃ s, (machine {}).run (new 1000 0) sampleRun = some s ∧
        (s.gateway.capital + total Position.cost s.gateway.positions =
            1000 + s.gateway.realisedPnl ∧
          account.run (fun _ => none) ((machine {}).trace orders (new 1000 0) sampleRun) =
            some s.gateway.openShares) := by
  have ends : ((machine {}).run (new 1000 0) sampleRun).map
      (fun s => s.gateway.positions.keys) = some [] := by decide +kernel
  rcases Option.map_eq_some_iff.mp ends with ⟨s, reached, -⟩
  exact ⟨by decide +kernel, s, reached, ledger_conservation {} 1000 0 sampleRun s reached⟩

end System

end Tickscope.Bot
