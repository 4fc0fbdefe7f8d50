import PersonalTrade.Execution.PaperHistory
import PersonalTrade.Library.Except
import PersonalTrade.Library.Grouping
import PersonalTrade.Strategy.Base

/-!
# The trade journal

`analytics/journal.py`: the closed round trips of an instrument, rebuilt from its trades by a
scan that keeps its own running quantity. `Follows` relates the scan to the position that the
broker kept over the same fills.
-/

namespace PersonalTrade

/-- The `context` of a signal. -/
abbrev SignalContext := List (String × ContextValue)

structure JournalEntry where
  instrumentId : ℕ
  symbol : String
  side : Side
  qty : ℕ
  entryPrice : ℚ
  entryAt : ℤ
  entryContext : SignalContext
  exitPrice : ℚ
  exitAt : ℤ
  exitContext : SignalContext
  realizedPnl : ℚ
  totalCosts : ℚ
deriving DecidableEq

/-! ## The totals of some legs -/

section Totals

variable (legs : List TradeLeg)

/-- Their quantity. -/
def legsQty : ℕ := (legs.map fun leg => leg.trade.qty).sum

/-- Their traded value. -/
def legsValue : ℚ := (legs.map fun leg => leg.trade.value).sum

/-- Their costs. -/
def legsCosts : ℚ := (legs.map fun leg => tradeCosts leg.trade).sum

/-- What they realized. -/
def legsRealized : ℚ := (legs.filterMap fun leg => leg.trade.realizedPnl).sum

variable (leg : TradeLeg)

@[simp]
theorem legsQty_concat : legsQty (legs ++ [leg]) = legsQty legs + leg.trade.qty := by
  simp [legsQty]

@[simp]
theorem legsValue_concat : legsValue (legs ++ [leg]) = legsValue legs + leg.trade.value := by
  simp [legsValue]

@[simp]
theorem legsCosts_append (more : List TradeLeg) :
    legsCosts (legs ++ more) = legsCosts legs + legsCosts more := by
  simp [legsCosts]

@[simp]
theorem legsCosts_singleton : legsCosts [leg] = tradeCosts leg.trade := by
  simp [legsCosts]

@[simp]
theorem legsRealized_nil : legsRealized [] = 0 := by
  simp [legsRealized]

@[simp]
theorem legsRealized_concat :
    legsRealized (legs ++ [leg]) = legsRealized legs + leg.trade.realizedPnl.getD 0 := by
  rw [legsRealized, List.filterMap_append, List.sum_append, legsRealized]
  cases realized : leg.trade.realizedPnl <;> simp [realized]

end Totals

/-! ## Episodes -/

/-- A round trip: its entry legs and its exit legs. -/
structure Episode where
  entryTrades : List TradeLeg := []
  exitTrades : List TradeLeg := []
deriving DecidableEq

/-- `_build_entry`; `none` where an index is out of range or a division is by zero. -/
def buildEntry (instrument : Instrument) (signalContext : Trade → SignalContext)
    (episode : Episode) : Option JournalEntry :=
  let entryQty := legsQty episode.entryTrades
  let exitQty := legsQty episode.exitTrades
  match episode.entryTrades.head?, episode.exitTrades.getLast? with
  | some first, some last =>
      if entryQty = 0 ∨ exitQty = 0 then none
      else
        some
          { instrumentId := instrument.id
            symbol := instrument.symbol
            side := first.side
            qty := entryQty
            entryPrice := legsValue episode.entryTrades / entryQty
            entryAt := first.trade.executedAt
            entryContext := signalContext first.trade
            exitPrice := legsValue episode.exitTrades / exitQty
            exitAt := last.trade.executedAt
            exitContext := signalContext last.trade
            realizedPnl := legsRealized episode.exitTrades
            totalCosts := legsCosts (episode.entryTrades ++ episode.exitTrades) }
  | _, _ => none

/-- All legs of a round trip. -/
def Episode.legs (episode : Episode) : List TradeLeg := episode.entryTrades ++ episode.exitTrades

/-- The loop variables of `_episodes_for_instrument`; `closed` holds the round trips that an
entry was built from. -/
structure EpisodeScan where
  closed : List Episode := []
  qty : ℤ := 0
  current : Episode := {}
deriving DecidableEq

/-- One trade of the loop. -/
def EpisodeScan.step (scan : EpisodeScan) (leg : TradeLeg) : EpisodeScan :=
  let qty := scan.qty + leg.signedQty
  let exitTrades := scan.current.exitTrades ++ [leg]
  if scan.current.entryTrades = [] then
    { scan with qty := leg.signedQty, current := { scan.current with entryTrades := [leg] } }
  else if 0 < scan.qty ↔ leg.side = .buy then
    { scan with
      qty, current := { scan.current with entryTrades := scan.current.entryTrades ++ [leg] } }
  else if qty = 0 then
    { closed := scan.closed ++ [⟨scan.current.entryTrades, exitTrades⟩], qty, current := {} }
  else { scan with qty, current := { scan.current with exitTrades } }

/-- The legs that the loop has taken. -/
def EpisodeScan.legs (scan : EpisodeScan) : List TradeLeg :=
  scan.closed.flatMap Episode.legs ++ scan.current.legs

/-- The legs in the order of their execution; the sort is stable. -/
def orderedLegs (legs : List TradeLeg) : List TradeLeg :=
  legs.mergeSort fun first second => decide (first.trade.executedAt ≤ second.trade.executedAt)

/-- The whole loop. -/
def scanEpisodes (legs : List TradeLeg) : EpisodeScan :=
  runSteps EpisodeScan.step {} (orderedLegs legs)

/-- `_episodes_for_instrument`. -/
def episodesForInstrument (instrument : Instrument) (signalContext : Trade → SignalContext)
    (legs : List TradeLeg) : Option (List JournalEntry) :=
  (scanEpisodes legs).closed.mapM (buildEntry instrument signalContext)

namespace DB

variable (db : DB)

/-- `TradeRepository.list_for_mode`; equal times stand in the order of insertion. -/
def listForMode (mode : Mode) : List Trade :=
  (db.tradesWhere fun order => order.mode = mode).mergeSort
    fun first second => decide (first.executedAt ≤ second.executedAt)

/-- `_signal_context`, given the contexts of the stored signals. -/
def signalContext (contexts : ℕ → SignalContext) (trade : Trade) : SignalContext :=
  match (db.orders.get? trade.orderId).bind Order.signalId with
  | some signalId => contexts signalId
  | none => []

/-- The legs of an instrument among the trades of a mode, as `build_journal` groups them. -/
def legsByInstrument (mode : Mode) (instrumentId : ℕ) : List TradeLeg :=
  ((db.listForMode mode).filter fun trade => (db.orders.get? trade.orderId).any
    fun order => order.instrumentId = instrumentId).map db.legOf

/-- One instrument of `build_journal`. -/
def instrumentEntries (contexts : ℕ → SignalContext) (mode : Mode) (instrumentId : ℕ) :
    Option (List JournalEntry) :=
  match db.instrument instrumentId with
  | none => some []
  | some instrument => episodesForInstrument instrument (db.signalContext contexts)
      (db.legsByInstrument mode instrumentId)

/-- `build_journal`. -/
def buildJournal (contexts : ℕ → SignalContext) (mode : Mode) (since : Option ℤ) :
    Option (List JournalEntry) := do
  let instrumentIds := ((db.listForMode mode).filterMap fun trade =>
    (db.orders.get? trade.orderId).map Order.instrumentId).eraseDups
  let entries ← instrumentIds.mapM (db.instrumentEntries contexts mode)
  let shown := match since with
    | none => entries.flatten
    | some since => entries.flatten.filter fun entry => since ≤ entry.exitAt
  some (shown.mergeSort fun first second => decide (first.exitAt ≤ second.exitAt))

end DB

/-- The loop loses no leg and takes none twice. -/
theorem EpisodeScan.legs_step (scan : EpisodeScan) (leg : TradeLeg) :
    (scan.step leg).legs.Perm (scan.legs ++ [leg]) := by
  rcases scan with ⟨closed, qty, ⟨entryTrades, exitTrades⟩⟩
  have late : (exitTrades ++ [leg]).Perm (leg :: exitTrades) := List.perm_append_singleton ..
  simp only [EpisodeScan.step, EpisodeScan.legs]
  split_ifs with first same flat
  · subst first
    simpa [Episode.legs] using (late.symm.append_left _)
  · simpa [Episode.legs] using ((late.symm.append_left entryTrades).append_left _)
  · simp [Episode.legs]
  · simp [Episode.legs]

theorem EpisodeScan.legs_runSteps (legs : List TradeLeg) :
    (runSteps EpisodeScan.step {} legs).legs.Perm legs := by
  induction legs using List.reverseRecOn with
  | nil => exact .nil
  | append_singleton legs leg ih =>
      rw [runSteps_concat]
      exact (EpisodeScan.legs_step _ leg).trans (ih.append_right [leg])

/-- A round trip is closed by an exit leg, after an entry leg. -/
theorem EpisodeScan.closed_runSteps (legs : List TradeLeg) :
    ∀ episode ∈ (runSteps EpisodeScan.step {} legs).closed,
      episode.entryTrades ≠ [] ∧ episode.exitTrades ≠ [] := by
  induction legs using List.reverseRecOn with
  | nil => simp [runSteps]
  | append_singleton legs leg ih =>
      intro episode mem
      rw [runSteps_concat, EpisodeScan.step] at mem
      split_ifs at mem with first same flat
      · exact ih episode mem
      · exact ih episode mem
      · rcases List.mem_append.mp mem with old | new
        · exact ih episode old
        · rw [List.mem_singleton.mp new]
          exact ⟨first, by simp⟩
      · exact ih episode mem

theorem legsQty_ne_zero {legs : List TradeLeg} (nonempty : legs ≠ [])
    (positive : ∀ leg ∈ legs, 0 < leg.trade.qty) : legsQty legs ≠ 0 := by
  rcases List.exists_mem_of_ne_nil _ nonempty with ⟨leg, mem⟩
  have counted : leg.trade.qty ≤ legsQty legs :=
    List.single_le_sum (by simp) _ (List.mem_map.mpr ⟨leg, mem, rfl⟩)
  exact (Nat.lt_of_lt_of_le (positive leg mem) counted).ne'

/-- The journal of legs that trade something never raises. -/
theorem exists_episodesForInstrument (instrument : Instrument)
    (signalContext : Trade → SignalContext) {legs : List TradeLeg}
    (positive : ∀ leg ∈ legs, 0 < leg.trade.qty) :
    ∃ entries, episodesForInstrument instrument signalContext legs = some entries := by
  have kept := (EpisodeScan.legs_runSteps (orderedLegs legs)).trans (List.mergeSort_perm legs _)
  have builds : ∀ episode ∈ (scanEpisodes legs).closed,
      ∃ entry, buildEntry instrument signalContext episode = some entry ∧ True := by
    intro episode mem
    have within : ∀ leg ∈ episode.legs, 0 < leg.trade.qty := fun leg legMem =>
      positive leg (kept.mem_iff.mp (List.mem_append_left _ (List.mem_flatMap.mpr
        ⟨episode, mem, legMem⟩)))
    rcases EpisodeScan.closed_runSteps _ episode mem with ⟨entered, exited⟩
    have counted : ¬(legsQty episode.entryTrades = 0 ∨ legsQty episode.exitTrades = 0) :=
      not_or.mpr ⟨legsQty_ne_zero entered fun leg legMem => within leg (List.mem_append_left _ legMem),
        legsQty_ne_zero exited fun leg legMem => within leg (List.mem_append_right _ legMem)⟩
    simp only [buildEntry, List.head?_eq_some_head entered, List.getLast?_eq_some_getLast exited,
      if_neg counted, Option.some.injEq, and_true, exists_eq']
  exact (exists_mapM_some builds).imp fun _ built => built.1

/-! ## The scan follows the position -/

theorem Side.eq_of_buy_iff {side other : Side} (same : side = .buy ↔ other = .buy) :
    other = side := by
  cases side <;> cases other <;> simp at same ⊢

theorem Side.sign_of_not_buy_iff {side other : Side} (different : ¬(side = .buy ↔ other = .buy)) :
    other.sign = -side.sign := by
  cases side <;> cases other <;> simp at different ⊢

/-- The open round trip of a position: what its legs moved is what the position holds, at its
cost and up to the profit realized so far. -/
structure Episode.Holds (episode : Episode) (side : Side) (position : Position) : Prop where
  entered : episode.entryTrades.head?.map TradeLeg.side = some side
  reduced : legsQty episode.exitTrades < legsQty episode.entryTrades
  qty : position.qty = side.sign * (legsQty episode.entryTrades - legsQty episode.exitTrades)
  value : position.avgPrice * position.qty =
    side.sign * (legsValue episode.entryTrades - legsValue episode.exitTrades) +
      legsCosts (episode.entryTrades ++ episode.exitTrades) + legsRealized episode.exitTrades

/-- A closed round trip: what was entered was left again, and the profit is what the legs made
after their costs. -/
structure Episode.Balanced (episode : Episode) (side : Side) : Prop where
  entered : episode.entryTrades.head?.map TradeLeg.side = some side
  left : episode.exitTrades ≠ []
  traded : 0 < legsQty episode.entryTrades
  qty : legsQty episode.exitTrades = legsQty episode.entryTrades
  realized : legsRealized episode.exitTrades =
    side.sign * (legsValue episode.exitTrades - legsValue episode.entryTrades) -
      legsCosts (episode.entryTrades ++ episode.exitTrades)

/-- A scan of the legs of a position. -/
structure Follows (scan : EpisodeScan) (position : Position) : Prop where
  qty : scan.qty = position.qty
  closed : ∀ episode ∈ scan.closed, ∃ side, episode.Balanced side
  current : (scan.current = {} ∧ position.qty = 0) ∨ ∃ side, scan.current.Holds side position
  realized : position.realizedPnl =
    (scan.closed.map fun episode => legsRealized episode.exitTrades).sum +
      legsRealized scan.current.exitTrades

namespace Episode.Holds

variable {episode : Episode} {side : Side} {position : Position}

theorem ne_nil (holds : episode.Holds side position) : episode.entryTrades ≠ [] := by
  intro empty
  have entered := holds.entered
  simp [empty] at entered

/-- The position is on the side of the round trip. -/
theorem pos_iff (holds : episode.Holds side position) : 0 < position.qty ↔ side = .buy := by
  have reduced := holds.reduced
  rw [holds.qty]
  cases side with
  | buy => simpa using reduced
  | sell => simpa using reduced.le

theorem qty_ne_zero (holds : episode.Holds side position) : position.qty ≠ 0 := by
  have reduced := holds.reduced
  rw [holds.qty]
  cases side with
  | buy => simp; omega
  | sell => simp; omega

end Episode.Holds

/-- What a fill adds to the value of a position, in the terms of its leg. -/
theorem Position.applyFill_leg (position : Position) (leg : TradeLeg) (positive : 0 < leg.trade.qty)
    (net : leg.trade.netAmount = leg.trade.value + leg.side.sign * tradeCosts leg.trade)
    (realized : leg.trade.realizedPnl =
      (position.applyFill leg.side leg.trade.qty leg.trade.netAmount).2) :
    (position.applyFill leg.side leg.trade.qty leg.trade.netAmount).1.avgPrice *
        (position.applyFill leg.side leg.trade.qty leg.trade.netAmount).1.qty =
      position.avgPrice * position.qty + (leg.side.sign * leg.trade.value + tradeCosts leg.trade) +
        leg.trade.realizedPnl.getD 0 := by
  rw [position.applyFill_value leg.side positive, ← realized, net]
  cases leg.side with
  | buy =>
      simp only [Side.sign_buy, reduceCtorEq, if_false]
      push_cast
      ring
  | sell =>
      simp only [Side.sign_sell, if_true]
      push_cast
      ring

section Fill

variable {scan : EpisodeScan} {position : Position} {leg : TradeLeg} {side : Side}

/-- A leg of a fill on a position. -/
structure TradeLeg.Fills (leg : TradeLeg) (position : Position) : Prop where
  positive : 0 < leg.trade.qty
  net : leg.trade.netAmount = leg.trade.value + leg.side.sign * tradeCosts leg.trade
  realized : leg.trade.realizedPnl =
    (position.applyFill leg.side leg.trade.qty leg.trade.netAmount).2

/-- The position after a leg. -/
def TradeLeg.after (leg : TradeLeg) (position : Position) : Position :=
  (position.applyFill leg.side leg.trade.qty leg.trade.netAmount).1

/-- A flat position starts a round trip. -/
theorem TradeLeg.Fills.opens (fills : leg.Fills position) (flat : position.qty = 0) :
    leg.trade.realizedPnl = none ∧ Episode.Holds ⟨[leg], []⟩ leg.side (leg.after position) := by
  have unrealized : leg.trade.realizedPnl = none := by
    rw [fills.realized, Position.applyFill, if_pos (.inl flat)]
  have value := position.applyFill_leg leg fills.positive fills.net fills.realized
  refine ⟨unrealized, rfl, ?_, ?_, ?_⟩
  · simpa [legsQty] using fills.positive
  · simp [TradeLeg.after, flat, legsQty]
  · rw [TradeLeg.after, value]
    simp [flat, unrealized, legsValue, legsCosts, legsRealized]

/-- A leg on the side of the position scales in. -/
theorem Episode.Holds.scaleIn {episode : Episode} (holds : episode.Holds side position)
    (fills : leg.Fills position) (same : 0 < position.qty ↔ leg.side = .buy) :
    leg.trade.realizedPnl = none ∧
      Episode.Holds ⟨episode.entryTrades ++ [leg], episode.exitTrades⟩ side (leg.after position) := by
  have unrealized : leg.trade.realizedPnl = none := by
    rw [fills.realized, Position.applyFill, if_pos (.inr same)]
  have value := position.applyFill_leg leg fills.positive fills.net fills.realized
  have sameSide : leg.side = side := Side.eq_of_buy_iff (holds.pos_iff.symm.trans same)
  refine ⟨unrealized, ?_, ?_, ?_, ?_⟩
  · rw [List.head?_append_of_ne_nil _ holds.ne_nil]
    exact holds.entered
  · have reduced := holds.reduced
    simp only [legsQty_concat]
    omega
  · rw [TradeLeg.after, Position.applyFill_qty, holds.qty, sameSide, legsQty_concat]
    push_cast
    ring
  · rw [TradeLeg.after, value, holds.value, sameSide, unrealized]
    simp only [legsValue_concat, legsCosts_append, legsCosts_singleton, Option.getD_none]
    ring

/-- A leg against the position, within its size, scales out or closes the round trip. -/
theorem Episode.Holds.scaleOut {episode : Episode} (holds : episode.Holds side position)
    (fills : leg.Fills position) (against : ¬(0 < position.qty ↔ leg.side = .buy))
    (within : leg.trade.qty ≤ |position.qty|) :
    let reduced : Episode := ⟨episode.entryTrades, episode.exitTrades ++ [leg]⟩
    if (leg.after position).qty = 0 then reduced.Balanced side
    else reduced.Holds side (leg.after position) := by
  intro reduced
  have value := position.applyFill_leg leg fills.positive fills.net fills.realized
  have opposite : leg.side.sign = -side.sign :=
    Side.sign_of_not_buy_iff fun both => against (holds.pos_iff.trans both)
  have positive := fills.positive
  have before := holds.reduced
  have size : |position.qty| = legsQty episode.entryTrades - legsQty episode.exitTrades := by
    rw [holds.qty, abs_mul, abs_of_nonneg (show (0 : ℤ) ≤ legsQty episode.entryTrades -
      legsQty episode.exitTrades by omega)]
    cases side <;> simp
  have qty : (leg.after position).qty = side.sign *
      (legsQty episode.entryTrades - legsQty (episode.exitTrades ++ [leg])) := by
    rw [TradeLeg.after, Position.applyFill_qty, holds.qty, opposite, legsQty_concat]
    push_cast
    ring
  have worth : (leg.after position).avgPrice * (leg.after position).qty =
      side.sign * (legsValue episode.entryTrades - legsValue (episode.exitTrades ++ [leg])) +
        legsCosts (episode.entryTrades ++ (episode.exitTrades ++ [leg])) +
        legsRealized (episode.exitTrades ++ [leg]) := by
    rw [TradeLeg.after, value, holds.value, opposite]
    simp only [legsValue_concat, legsCosts_append, legsCosts_singleton, legsRealized_concat]
    push_cast
    ring
  have signNe : side.sign ≠ 0 := by cases side <;> simp
  split_ifs with flat
  · have total : legsQty (episode.exitTrades ++ [leg]) = legsQty episode.entryTrades := by
      rw [qty, mul_eq_zero, or_iff_right signNe, sub_eq_zero] at flat
      exact_mod_cast flat.symm
    refine ⟨holds.entered, by simp [reduced], Nat.zero_lt_of_lt before, total, ?_⟩
    rw [flat] at worth
    simp only [Int.cast_zero, mul_zero] at worth
    simp only [reduced]
    linarith
  · refine ⟨holds.entered, ?_, qty, worth⟩
    have partly : legsQty (episode.exitTrades ++ [leg]) ≠ legsQty episode.entryTrades := by
      intro total
      rw [qty, total] at flat
      simp at flat
    simp only [reduced, legsQty_concat] at partly ⊢
    omega

/-- The scan takes a leg as the position took its fill. -/
theorem Follows.step (follows : Follows scan position) (fills : leg.Fills position)
    (within : position.qty ≠ 0 → ¬(0 < position.qty ↔ leg.side = .buy) →
      leg.trade.qty ≤ |position.qty|) : Follows (scan.step leg) (leg.after position) := by
  rcases follows with ⟨qty, closed, current, realized⟩
  have moved : (leg.after position).qty = position.qty + leg.signedQty :=
    position.applyFill_qty leg.side leg.trade.qty leg.trade.netAmount
  have gained : (leg.after position).realizedPnl =
      position.realizedPnl + leg.trade.realizedPnl.getD 0 := by
    rw [fills.realized]
    exact position.applyFill_realizedPnl leg.side leg.trade.qty leg.trade.netAmount
  rcases current with ⟨blank, flat⟩ | ⟨side, holds⟩
  · rcases fills.opens flat with ⟨unrealized, opened⟩
    have stepped : scan.step leg = ⟨scan.closed, leg.signedQty, ⟨[leg], []⟩⟩ := by
      simp [EpisodeScan.step, blank]
    rw [stepped]
    refine ⟨by rw [moved, flat, zero_add], closed, .inr ⟨_, opened⟩, ?_⟩
    rw [gained, realized, unrealized, blank]
    simp [legsRealized]
  · have entered := holds.ne_nil
    by_cases same : 0 < position.qty ↔ leg.side = .buy
    · rcases holds.scaleIn fills same with ⟨unrealized, scaled⟩
      have stepped : scan.step leg = ⟨scan.closed, scan.qty + leg.signedQty,
          ⟨scan.current.entryTrades ++ [leg], scan.current.exitTrades⟩⟩ := by
        rw [EpisodeScan.step, if_neg entered, if_pos (qty ▸ same)]
      rw [stepped]
      refine ⟨by rw [moved, qty], closed, .inr ⟨_, scaled⟩, ?_⟩
      rw [gained, realized, unrealized, Option.getD_none, add_zero]
    · have out := holds.scaleOut fills same (within holds.qty_ne_zero same)
      by_cases flat : (leg.after position).qty = 0
      · rw [if_pos flat] at out
        have stepped : scan.step leg = ⟨scan.closed ++
            [⟨scan.current.entryTrades, scan.current.exitTrades ++ [leg]⟩], 0, {}⟩ := by
          have zero : scan.qty + leg.signedQty = 0 := by rw [qty, ← moved, flat]
          rw [EpisodeScan.step, if_neg entered, if_neg (qty ▸ same), if_pos zero, zero]
        rw [stepped]
        refine ⟨flat.symm, ?_, .inl ⟨rfl, flat⟩, ?_⟩
        · intro episode mem
          rcases List.mem_append.mp mem with old | new
          · exact closed episode old
          · exact ⟨side, List.mem_singleton.mp new ▸ out⟩
        · rw [gained, realized]
          simp [add_assoc]
      · rw [if_neg flat] at out
        have stepped : scan.step leg = ⟨scan.closed, scan.qty + leg.signedQty,
            ⟨scan.current.entryTrades, scan.current.exitTrades ++ [leg]⟩⟩ := by
          have nonzero : scan.qty + leg.signedQty ≠ 0 := by rwa [qty, ← moved]
          rw [EpisodeScan.step, if_neg entered, if_neg (qty ▸ same), if_neg nonzero]
        rw [stepped]
        refine ⟨by rw [moved, qty], closed, .inr ⟨side, out⟩, ?_⟩
        rw [gained, realized, legsRealized_concat, add_assoc]

end Fill

/-- Each closing leg is at most the quantity that it reduces; `held` is the quantity before. -/
def ClosesWithin : ℤ → List TradeLeg → Prop
  | _, [] => True
  | held, leg :: legs =>
      (held ≠ 0 → ¬(0 < held ↔ leg.side = .buy) → leg.trade.qty ≤ |held|) ∧
        ClosesWithin (held + leg.signedQty) legs

instance decidableClosesWithin : (held : ℤ) → (legs : List TradeLeg) →
    Decidable (ClosesWithin held legs)
  | _, [] => inferInstanceAs (Decidable True)
  | held, leg :: legs =>
      have := decidableClosesWithin (held + leg.signedQty) legs
      inferInstanceAs (Decidable (_ ∧ _))

theorem closesWithin_concat {held : ℤ} {legs : List TradeLeg} {leg : TradeLeg}
    (within : ClosesWithin held (legs ++ [leg])) :
    ClosesWithin held legs ∧ ClosesWithin (held + (legs.map TradeLeg.signedQty).sum) [leg] := by
  induction legs generalizing held with
  | nil => exact ⟨trivial, by simpa using within⟩
  | cons first legs ih =>
      rcases within with ⟨fits, rest⟩
      rcases ih rest with ⟨earlier, last⟩
      refine ⟨⟨fits, earlier⟩, ?_⟩
      rwa [List.map_cons, List.sum_cons, ← add_assoc]

/-- The scan follows the position through all its legs. -/
theorem Booked.follows {legs : List TradeLeg} {position : Position} (booked : Booked legs position)
    (within : ClosesWithin 0 legs) : Follows (runSteps EpisodeScan.step {} legs) position := by
  induction booked with
  | nil => exact ⟨rfl, by simp [runSteps], .inl ⟨rfl, rfl⟩, by simp [runSteps]⟩
  | fill earlier leg positive net realized ih =>
      rcases closesWithin_concat within with ⟨before, last, _⟩
      rw [zero_add, ← earlier.qty] at last
      rw [runSteps_concat]
      exact (ih before).step ⟨positive, net, realized⟩ last

/-- A journal entry agrees with the legs that it was built from. -/
structure Reconciled (episode : Episode) (entry : JournalEntry) : Prop where
  entryQty : legsQty episode.entryTrades = entry.qty
  exitQty : legsQty episode.exitTrades = entry.qty
  entryValue : legsValue episode.entryTrades = entry.entryPrice * entry.qty
  exitValue : legsValue episode.exitTrades = entry.exitPrice * entry.qty
  costs : legsCosts (episode.entryTrades ++ episode.exitTrades) = entry.totalCosts
  realized : legsRealized episode.exitTrades = entry.realizedPnl
  profit : entry.realizedPnl =
    entry.side.sign * (legsValue episode.exitTrades - legsValue episode.entryTrades) -
      entry.totalCosts

/-- A closed round trip becomes an entry. -/
theorem Episode.Balanced.entry {episode : Episode} {side : Side} (balanced : episode.Balanced side)
    (instrument : Instrument) (signalContext : Trade → SignalContext) :
    ∃ entry, buildEntry instrument signalContext episode = some entry ∧ Reconciled episode entry := by
  rcases Option.map_eq_some_iff.mp balanced.entered with ⟨first, entered, sameSide⟩
  have exited : episode.exitTrades.getLast? = some (episode.exitTrades.getLast balanced.left) :=
    List.getLast?_eq_some_getLast balanced.left
  have traded : (legsQty episode.entryTrades : ℚ) ≠ 0 := by exact_mod_cast balanced.traded.ne'
  have counted : ¬(legsQty episode.entryTrades = 0 ∨ legsQty episode.exitTrades = 0) := by
    have positive := balanced.traded
    rw [balanced.qty]
    omega
  have builds : ∃ entry, buildEntry instrument signalContext episode = some entry := by
    simp only [buildEntry, entered, exited, if_neg counted, Option.some.injEq, exists_eq']
  rcases builds with ⟨entry, built⟩
  refine ⟨entry, built, ?_⟩
  simp only [buildEntry, entered, exited, if_neg counted, Option.some.injEq] at built
  subst entry
  refine ⟨rfl, balanced.qty, (div_mul_cancel₀ _ traded).symm, ?_, rfl, rfl, ?_⟩
  · rw [balanced.qty]
    exact (div_mul_cancel₀ _ traded).symm
  · rw [sameSide]
    exact balanced.realized

namespace DB

variable {db : DB} {instrumentId : ℕ}

/-- The trades of an instrument and a mode, before they are sorted. -/
theorem filter_tradesWhere (mode : Mode) (instrumentId : ℕ) :
    ((db.tradesWhere fun order => order.mode = mode).filter fun trade =>
      (db.orders.get? trade.orderId).any fun order => order.instrumentId = instrumentId) =
        db.tradesWhere (isOn mode instrumentId) := by
  rw [tradesWhere, List.filter_filter, tradesWhere]
  congr 1
  funext trade
  cases db.orders.get? trade.orderId <;> simp [isOn, Bool.and_comm]

theorem mem_legsByInstrument {mode : Mode} {leg : TradeLeg} :
    leg ∈ db.legsByInstrument mode instrumentId ↔ leg ∈ db.legsOn mode instrumentId := by
  have sorted : (db.listForMode mode).Perm (db.tradesWhere fun order => order.mode = mode) :=
    List.mergeSort_perm _ _
  rw [legsByInstrument, ((sorted.filter _).map _).mem_iff, filter_tradesWhere, legsOn]

/-- The fills of an instrument are read in the order in which they were booked. -/
theorem legsByInstrument_eq (mode : Mode) (ascending : (db.legsOn mode instrumentId).Pairwise
    fun first second => first.trade.executedAt ≤ second.trade.executedAt) :
    orderedLegs (db.legsByInstrument mode instrumentId) = db.legsOn mode instrumentId := by
  have byTime : ((db.tradesWhere fun order => order.mode = mode).filter fun trade =>
      (db.orders.get? trade.orderId).any fun order => order.instrumentId = instrumentId).Pairwise
        fun first second => first.executedAt ≤ second.executedAt := by
    rw [legsOn, List.pairwise_map] at ascending
    rw [filter_tradesWhere]
    exact ascending
  rw [legsByInstrument, listForMode, filter_mergeSort_of_pairwise byTime, filter_tradesWhere]
  exact List.mergeSort_of_pairwise (ascending.imp fun le => decide_eq_true le)

end DB

/-- In every state that calls of the paper broker reach from a just opened account, for every
instrument whose closing fills are within its position and executed in the order of booking: the
journal has an entry for each closed round trip, with as much left as entered and the profit of
its values after its costs, every fill is in one round trip, and the profits of the entries and of
the exit legs of the open round trip are the realized profit of the position. -/
theorem journal_reconciles {initialCash : ℚ} {start : DB}
    (opened : PaperBroker.AccountOpened initialCash start)
    (calls : List (PaperBroker × PaperCall)) (instrumentId : ℕ)
    (within : ClosesWithin 0 ((runSteps PaperBroker.step start calls).legsOn .paper instrumentId))
    (ascending : ((runSteps PaperBroker.step start calls).legsOn .paper instrumentId).Pairwise
      fun first second => first.trade.executedAt ≤ second.trade.executedAt)
    (instrument : Instrument) (signalContext : Trade → SignalContext) :
    let db := runSteps PaperBroker.step start calls
    let legs := db.legsByInstrument .paper instrumentId
    ∃ entries, episodesForInstrument instrument signalContext legs = some entries ∧
      List.Forall₂ Reconciled (scanEpisodes legs).closed entries ∧
      (scanEpisodes legs).legs.Perm (db.legsOn .paper instrumentId) ∧
      (entries.map JournalEntry.realizedPnl).sum +
          legsRealized (scanEpisodes legs).current.exitTrades =
        (db.getOrCreatePosition instrumentId .paper).realizedPnl := by
  intro db legs
  have booked := (PaperBroker.books_runSteps opened calls).booked instrumentId
  have scanned : scanEpisodes legs =
      runSteps EpisodeScan.step {} (db.legsOn .paper instrumentId) := by
    rw [scanEpisodes, DB.legsByInstrument_eq .paper ascending]
  have follows := booked.follows within
  rw [← scanned] at follows
  rcases exists_mapM_some fun episode mem => (follows.closed episode mem).elim
    fun _ balanced => balanced.entry instrument signalContext with ⟨entries, built, agree⟩
  have complete : (scanEpisodes legs).legs.Perm (db.legsOn .paper instrumentId) :=
    scanned ▸ EpisodeScan.legs_runSteps _
  refine ⟨entries, built, agree, complete, ?_⟩
  have profits : (scanEpisodes legs).closed.map (fun episode => legsRealized episode.exitTrades) =
      entries.map JournalEntry.realizedPnl := by
    clear built scanned complete
    generalize (scanEpisodes legs).closed = episodes at agree
    induction agree with
    | nil => rfl
    | cons reconciled _ ih => simp [reconciled.realized, ih]
  rw [follows.realized, profits]

/-- A market order for the sample instrument, filled at once. -/
def sampleOrder (clientOrderId : String) (placedAt : ℤ) (side : Side) (qty : ℕ) :
    PaperBroker × PaperCall :=
  (PaperBroker.sampleBroker,
    .placeOrder clientOrderId placedAt ⟨clientOrderId, 1, side, .market, qty, none⟩)

/-- A long round trip with a scale-in and a partial exit, then a short one that is left half. -/
def sampleTrips : List (PaperBroker × PaperCall) :=
  [sampleOrder "a" 0 .buy 2, sampleOrder "b" 1000 .buy 1, sampleOrder "c" 2000 .sell 1,
    sampleOrder "d" 3000 .sell 2, sampleOrder "e" 4000 .sell 2, sampleOrder "f" 5000 .buy 1]

theorem journal_reconciles_sample :
    let db := runSteps PaperBroker.step PaperBroker.sampleAccount sampleTrips
    let legs := db.legsByInstrument .paper 1
    ∃ entries, episodesForInstrument ⟨1, "INFY", "NSE_EQ|INFY", 1 / 20⟩ (fun _ => []) legs =
        some entries ∧
      List.Forall₂ Reconciled (scanEpisodes legs).closed entries ∧
      (scanEpisodes legs).legs.Perm (db.legsOn .paper 1) ∧
      (entries.map JournalEntry.realizedPnl).sum +
          legsRealized (scanEpisodes legs).current.exitTrades =
        (db.getOrCreatePosition 1 .paper).realizedPnl := by
  have within : ClosesWithin 0 ((runSteps PaperBroker.step PaperBroker.sampleAccount
      sampleTrips).legsOn .paper 1) := by decide +kernel
  have ascending : ((runSteps PaperBroker.step PaperBroker.sampleAccount sampleTrips).legsOn
      .paper 1).Pairwise fun first second => first.trade.executedAt ≤ second.trade.executedAt := by
    decide +kernel
  exact journal_reconciles PaperBroker.sampleAccount_opened sampleTrips 1 within ascending _ _

end PersonalTrade
