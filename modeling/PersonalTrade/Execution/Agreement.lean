import PersonalTrade.Backtest.Conservation
import PersonalTrade.Execution.PaperLedger

/-!
# The ledgers of the backtest and the paper broker

The same orders, filled by the backtest and by a paper broker with the same costs,
segment and slippage. Both decide on the same leg (`marketLeg`) and book it with the
same arithmetic, except for a cover that trades less than the short: the paper broker
keeps the rest of the short, the backtest drops it.
-/

namespace PersonalTrade

open Transaction

/-- A market order at a reference price. -/
structure LedgerOrder where
  side : Side
  qty : ℕ
  price : ℚ
  clientOrderId : String
  uuid : String
  placedAt : ℤ

/-- The request of the order. -/
def LedgerOrder.request (instrument : Instrument) (order : LedgerOrder) : OrderRequest :=
  ⟨order.clientOrderId, instrument.id, order.side, .market, order.qty, none⟩

/-- The placement of the order. -/
def LedgerOrder.placement (instrument : Instrument) (order : LedgerOrder) : PaperCall :=
  .placeOrder order.uuid order.placedAt (order.request instrument)

/-- The placement of the order with a paper broker that last saw its reference price. -/
def LedgerOrder.call (broker : PaperBroker) (instrument : Instrument) (order : LedgerOrder) :
    PaperBroker × PaperCall :=
  ({ broker with quotes := broker.quotes.update instrument.instrumentKey order.price },
    order.placement instrument)

/-- A paper broker with the costs, the segment and the slippage of a backtest. -/
def BacktestParams.paperBroker (params : BacktestParams) (quotes : LiveQuoteSource)
    (latencyMs : ℕ) : PaperBroker :=
  ⟨quotes, params.costRates, params.segment, params.slippageBps, latencyMs⟩

/-- The portfolio of a backtest, and what its closing legs realized. -/
structure BacktestLedger where
  portfolio : Portfolio
  realized : List ℚ := []

/-- The fill steps of the backtest on an order: it opens a flat portfolio and closes any
other. What raises, raises before the portfolio is touched. -/
def BacktestLedger.step (params : BacktestParams) (ledger : BacktestLedger) (order : LedgerOrder) :
    BacktestLedger :=
  match ledger.portfolio.fill params order.side (decide (ledger.portfolio.qty ≠ 0)) order.qty
    order.price with
  | .error _ => ledger
  | .ok (portfolio, leg) => ⟨portfolio, ledger.realized ++ (leg.bind Leg.realizedPnl).toList⟩

/-- Entries are requested when the ledger is flat, exits ask for the whole position on the
other side. -/
def LedgerOrder.Admissible (ledger : BacktestLedger) (order : LedgerOrder) : Prop :=
  0 < order.price ∧ (ledger.portfolio.qty ≠ 0 →
    order.qty = ledger.portfolio.qty.natAbs ∧ (order.side = .buy ↔ ledger.portfolio.qty < 0))

/-- The order covers a short partly. -/
def LedgerOrder.CoversPartly (params : BacktestParams) (ledger : BacktestLedger)
    (order : LedgerOrder) : Prop :=
  0 < applySlippage order.price .buy params.slippageBps ∧
    ledger.portfolio.CoversPartly params order.price

/-- The ledger of the backtest and the paper books of an instrument agree; `earlier` lists
the profits that the books had realized before. -/
structure LedgersAgree (instrument : Instrument) (earlier : List ℚ) (ledger : BacktestLedger)
    (db : DB) : Prop where
  cash : ledger.portfolio.cash = db.cash
  qty : ledger.portfolio.qty = (db.getOrCreatePosition instrument.id .paper).qty
  avgPrice : ledger.portfolio.avgPrice = (db.getOrCreatePosition instrument.id .paper).avgPrice
  realized : db.trades.filterMap Trade.realizedPnl = earlier ++ ledger.realized

/-! ## The decided leg -/

/-- The quantity and the costs of the leg that an order leads to, if any. -/
def marketLeg (params : BacktestParams) (side : Side) (rawPrice cash : ℚ) (requested : ℕ) :
    Option (ℕ × TradeCosts) :=
  let price := applySlippage rawPrice side params.slippageBps
  match fillableQty params side price cash requested with
  | .error _ => none
  | .ok qty =>
      match calculateCosts side price qty params.segment params.costRates with
      | .error _ => none
      | .ok costs => some (qty, costs)

section Leg

variable {params : BacktestParams} {side : Side} {rawPrice cash : ℚ} {requested qty : ℕ}
  {costs : TradeCosts}

theorem marketLeg_eq_some : marketLeg params side rawPrice cash requested = some (qty, costs) ↔
    fillableQty params side (applySlippage rawPrice side params.slippageBps) cash requested =
      .ok qty ∧
    calculateCosts side (applySlippage rawPrice side params.slippageBps) qty params.segment
      params.costRates = .ok costs := by
  rw [marketLeg]
  cases fillableQty params side (applySlippage rawPrice side params.slippageBps) cash requested with
  | error raised => simp
  | ok fillable =>
      simp only [Except.ok.injEq]
      cases costed : calculateCosts side (applySlippage rawPrice side params.slippageBps) fillable
          params.segment params.costRates with
      | error raised =>
          simp only [reduceCtorEq, false_iff, not_and]
          rintro rfl
          simp [costed]
      | ok result =>
          simp only [Option.some.injEq, Prod.mk.injEq]
          constructor
          · rintro ⟨rfl, rfl⟩
            exact ⟨rfl, costed⟩
          · rintro ⟨rfl, costed'⟩
            rw [costed, Except.ok.injEq] at costed'
            exact ⟨rfl, costed'⟩

theorem pos_of_marketLeg (leg : marketLeg params side rawPrice cash requested = some (qty, costs)) :
    0 < qty := (calculateCosts_eq_ok.mp (marketLeg_eq_some.mp leg).2).2.1

theorem fillableQty_zero (params : BacktestParams) (side : Side) (price cash : ℚ) :
    fillableQty params side price cash 0 = .ok 0 := by
  cases side <;> rfl

theorem Portfolio.fill_of_marketLeg {portfolio : Portfolio} (closing : Bool)
    (leg : marketLeg params side rawPrice portfolio.cash requested = some (qty, costs)) :
    portfolio.fill params side closing requested rawPrice = .ok
      (if closing then
        (portfolio.close side costs.netAmount, some ⟨side, qty,
          applySlippage rawPrice side params.slippageBps, costs,
          some (portfolio.realized side qty costs.netAmount)⟩)
      else
        (portfolio.openOrAdd side qty costs.netAmount,
          some ⟨side, qty, applySlippage rawPrice side params.slippageBps, costs, none⟩)) := by
  rcases marketLeg_eq_some.mp leg with ⟨fillable, costed⟩
  have positive := pos_of_marketLeg leg
  have within := fillableQty_le fillable
  rw [fill, if_neg (by omega)]
  simp only [fillable, bind, Except.bind]
  rw [if_neg positive.ne']
  simp only [costed]
  cases closing <;> rfl

theorem BacktestLedger.step_eq (params : BacktestParams) (ledger : BacktestLedger)
    (order : LedgerOrder) :
    ledger.step params order =
      match marketLeg params order.side order.price ledger.portfolio.cash order.qty with
      | none => ledger
      | some (qty, costs) =>
          if ledger.portfolio.qty ≠ 0 then
            ⟨ledger.portfolio.close order.side costs.netAmount,
              ledger.realized ++ [ledger.portfolio.realized order.side qty costs.netAmount]⟩
          else ⟨ledger.portfolio.openOrAdd order.side qty costs.netAmount, ledger.realized⟩ := by
  cases leg : marketLeg params order.side order.price ledger.portfolio.cash order.qty with
  | some decided =>
      rcases decided with ⟨qty, costs⟩
      rw [step, Portfolio.fill_of_marketLeg _ leg]
      by_cases flat : ledger.portfolio.qty = 0
      · simp [flat]
      · simp [flat]
  | none =>
      rw [step]
      cases filled : ledger.portfolio.fill params order.side (decide (ledger.portfolio.qty ≠ 0))
          order.qty order.price with
      | error raised => rfl
      | ok result =>
          rcases result with ⟨portfolio, filledLeg⟩
          rcases Portfolio.fill_cases filled with ⟨rfl, rfl, _⟩ |
            ⟨qty, positive, _, fillable, priced, _⟩
          · simp
          · have decided := marketLeg_eq_some.mpr ⟨fillable,
              calculateCosts_eq_ok.mpr ⟨priced, positive, rfl⟩⟩
            rw [leg] at decided
            cases decided

end Leg

/-! ## The paper broker -/

/-- The books that a fill writes are the same. -/
structure SameBooks (db db' : DB) : Prop where
  cash : db'.cash = db.cash
  positions : db'.positions = db.positions
  trades : db'.trades = db.trades

theorem DB.usesClientId_iff {db : DB} {clientOrderId : String} :
    db.usesClientId clientOrderId = true ↔
      ∃ id order, db.orders.get? id = some order ∧ order.clientOrderId = clientOrderId := by
  simp only [usesClientId, List.any_eq_true, decide_eq_true_eq, List.mem_iff_getElem?,
    RowTable.get?]
  constructor
  · rintro ⟨order, ⟨id, found⟩, same⟩
    exact ⟨id, order, found, same⟩
  · rintro ⟨id, order, found, same⟩
    exact ⟨order, ⟨id, found⟩, same⟩

namespace PaperBroker

section Decision

variable {params : BacktestParams} {quotes : LiveQuoteSource} {latencyMs : ℕ} {cash : ℚ}

/-- Both clamps are the same loop. -/
theorem clampToCash_eq (broker : PaperBroker) (cash fillPrice : ℚ) (qty : ℕ) :
    broker.clampToCash cash fillPrice qty =
      PersonalTrade.clampToCash fillPrice broker.segment broker.costRates cash qty := by
  induction qty with
  | zero => rfl
  | succ qty ih =>
      rw [clampToCash, PersonalTrade.clampToCash]
      cases calculateCosts .buy fillPrice (qty + 1) broker.segment broker.costRates with
      | error raised => rfl
      | ok costs => exact if_congr Iff.rfl rfl ih

theorem affordable_eq (params : BacktestParams) (quotes : LiveQuoteSource) (latencyMs : ℕ)
    (order : Order) (cash fillPrice : ℚ) :
    (params.paperBroker quotes latencyMs).affordable order cash fillPrice =
      fillableQty params order.side fillPrice cash order.remaining := by
  cases side : order.side with
  | buy =>
      rw [affordable, side]
      exact clampToCash_eq ..
  | sell =>
      rw [affordable, side]
      rfl

theorem decideFill_market {order : Order} {instrument : Instrument} {rawPrice : ℚ}
    (market : order.orderType = .market)
    (quoted : quotes.getLtp instrument = some rawPrice) :
    (params.paperBroker quotes latencyMs).decideFill order instrument cash =
      if order.remaining = 0 then .ok .rest
      else
        match fillableQty params order.side (applySlippage rawPrice order.side params.slippageBps)
          cash order.remaining with
        | .error raised => .error raised
        | .ok 0 => .ok .cancel
        | .ok qty => .ok (.fill qty (applySlippage rawPrice order.side params.slippageBps)) := by
  have quote : (params.paperBroker quotes latencyMs).quotes.getLtp instrument = some rawPrice :=
    quoted
  have reference : referencePrice order rawPrice = .ok (some rawPrice) := by
    rw [referencePrice, market]
  rw [decideFill, quote]
  simp only [reference]
  rw [affordable_eq]
  rfl

/-- The paper broker decides on the leg of the backtest. -/
theorem decideFill_eq_fill {order : Order} {instrument : Instrument} {rawPrice price : ℚ} {qty : ℕ}
    (market : order.orderType = .market) (quoted : quotes.getLtp instrument = some rawPrice) :
    (params.paperBroker quotes latencyMs).decideFill order instrument cash =
        .ok (.fill qty price) ↔
      0 < qty ∧ price = applySlippage rawPrice order.side params.slippageBps ∧
        fillableQty params order.side price cash order.remaining = .ok qty := by
  rw [decideFill_market market quoted]
  by_cases full : order.remaining = 0
  · rw [if_pos full, full, fillableQty_zero]
    simp only [Except.ok.injEq, reduceCtorEq, false_iff, not_and]
    rintro positive _ rfl
    exact absurd positive (lt_irrefl 0)
  rw [if_neg full]
  cases fillable : fillableQty params order.side
      (applySlippage rawPrice order.side params.slippageBps) cash order.remaining with
  | error raised =>
      simp only [reduceCtorEq, false_iff, not_and]
      rintro _ rfl
      simp [fillable]
  | ok affordable =>
      cases affordable with
      | zero =>
          simp only [Except.ok.injEq, reduceCtorEq, false_iff, not_and]
          rintro positive rfl
          rw [fillable, Except.ok.injEq]
          exact positive.ne
      | succ affordable =>
          simp only [Except.ok.injEq, FillDecision.fill.injEq]
          constructor
          · rintro ⟨rfl, rfl⟩
            exact ⟨Nat.succ_pos _, rfl, fillable⟩
          · rintro ⟨_, rfl, same⟩
            rw [fillable, Except.ok.injEq] at same
            exact ⟨same, rfl⟩

end Decision

section Step

variable {params : BacktestParams} {quotes : LiveQuoteSource} {latencyMs : ℕ}
  {instrument : Instrument} {db db' : DB} {id : ℕ} {uuid : String} {request : OrderRequest}
  {world world' : Unit} {order : LedgerOrder}

theorem sameBooks_openOrder (yields : (openOrder uuid request).Yields db world id db' world') :
    SameBooks db db' := by
  simp only [openOrder, yields_bind, yields_recordCreated, yields_transition, yields_pure] at yields
  rcases yields with ⟨_, _, _, ⟨_, _, rfl, rfl⟩, _, _, _, ⟨_, _, _, rfl⟩, _, _, _,
    ⟨_, _, _, rfl⟩, _, _, _, ⟨_, _, _, rfl⟩, _, rfl, _⟩
  exact ⟨rfl, rfl, rfl⟩

theorem instruments_step (db : DB) (made : PaperBroker × PaperCall) :
    (step db made).instruments = db.instruments := by
  refine (moves_step db made).invariant (motive := fun later => later.instruments = db.instruments)
    (fun before after same move => ?_) rfl
  cases move with
  | create => exact same
  | move => exact same
  | fill => exact same

/-- What a market order does when its call returns: the birth of its row leaves the books alone,
then comes one attempt to fill it. -/
theorem yields_market (known : db.instrument instrument.id = some instrument)
    (yields : ((params.paperBroker quotes latencyMs).call (order.placement instrument)).Yields db
      world () db' world') :
    ∃ middle update, SameBooks db middle ∧
      Opening db middle (openedRow order.uuid (order.request instrument)) ∧
      ((params.paperBroker quotes latencyMs).tryFill db.orders.nextId instrument
        order.placedAt).Yields middle () update db' () := by
  simp only [LedgerOrder.placement, call, yields_bind, yields_pure] at yields
  rcases yields with ⟨ack, _, _, placed, _, rfl, _⟩
  rcases yields_placeOrder_parts placed with ⟨found, update, middle, foundKnown, _, opened, tried⟩
  have same : found = instrument := by
    rw [LedgerOrder.request, known, Option.some.injEq] at foundKnown
    exact foundKnown.symm
  subst found
  exact ⟨middle, update, sameBooks_openOrder opened, (yields_openOrder opened).2.2.2, tried⟩

theorem step_of_yields {broker : PaperBroker} {made : PaperCall}
    (yields : (broker.call made).Yields db () () db' world') : step db (broker, made) = db' := by
  rw [step, serve, commit_of_yields yields]

theorem step_of_raises {broker : PaperBroker} {made : PaperCall} {exception : PyError}
    (raises : (broker.call made).Raises db () exception world') : step db (broker, made) = db := by
  rw [step, serve, commit_of_raises raises]

/-- The decision on the row that a market order opens, before any other fill. -/
theorem decideFill_opened_eq_fill {cash price : ℚ} {qty : ℕ}
    (quoted : quotes.getLtp instrument = some order.price) :
    (params.paperBroker quotes latencyMs).decideFill
        (openedRow order.uuid (order.request instrument)) instrument cash =
          .ok (.fill qty price) ↔
      0 < qty ∧ price = applySlippage order.price order.side params.slippageBps ∧
        fillableQty params order.side price cash order.qty = .ok qty :=
  decideFill_eq_fill rfl quoted

/-- A market order without a leg leaves the books alone. -/
theorem sameBooks_of_noLeg (known : db.instrument instrument.id = some instrument)
    (quoted : quotes.getLtp instrument = some order.price)
    (noLeg : marketLeg params order.side order.price db.cash order.qty = none) :
    SameBooks db (step db (params.paperBroker quotes latencyMs, order.placement instrument)) := by
  rcases yields_or_raises ((params.paperBroker quotes latencyMs).call (order.placement instrument))
    db () with ⟨_, db', _, yields⟩ | ⟨exception, _, raises⟩
  · rw [step_of_yields yields]
    rcases yields_market known yields with ⟨middle, update, same, opening, tried⟩
    rcases yields_tryFill tried with ⟨row, found, ⟨_, rfl⟩ | ⟨_, _, rfl⟩ |
      ⟨qty, price, result, decided, executed⟩⟩
    · exact same
    · exact ⟨same.cash, same.positions, same.trades⟩
    · rw [opening.get?_new, Option.some.injEq] at found
      subst row
      rcases (decideFill_opened_eq_fill quoted).mp decided with ⟨_, rfl, fillable⟩
      rcases yields_executeFill opening.get?_new executed with ⟨costs, _, _, costed, _, _⟩
      rw [same.cash] at fillable
      have leg := marketLeg_eq_some.mpr ⟨fillable, costed⟩
      rw [noLeg] at leg
      cases leg
  · rw [step_of_raises raises]
    exact ⟨rfl, rfl, rfl⟩

/-- A market order with a leg executes it on the row that it opens. -/
theorem execute_of_leg {qty : ℕ} {costs : TradeCosts}
    (known : db.instrument instrument.id = some instrument)
    (unused : db.usesClientId order.clientOrderId = false)
    (quoted : quotes.getLtp instrument = some order.price)
    (leg : marketLeg params order.side order.price db.cash order.qty = some (qty, costs)) :
    ∃ middle id row price time, ∃ within : row.filledQty + qty ≤ row.qty,
      SameBooks db middle ∧ row.side = order.side ∧ row.instrumentId = instrument.id ∧
      step db (params.paperBroker quotes latencyMs, order.placement instrument) =
        middle.execute id row qty price costs time within := by
  rcases marketLeg_eq_some.mp leg with ⟨fillable, costed⟩
  have decides : (params.paperBroker quotes latencyMs).decideFill
      (openedRow order.uuid (order.request instrument)) instrument db.cash =
        .ok (.fill qty (applySlippage order.price order.side params.slippageBps)) :=
    (decideFill_opened_eq_fill quoted).mpr ⟨pos_of_marketLeg leg, rfl, fillable⟩
  rcases yields_or_raises ((params.paperBroker quotes latencyMs).call (order.placement instrument))
    db () with ⟨_, db', _, yields⟩ | ⟨exception, _, raises⟩
  · rw [step_of_yields yields]
    rcases yields_market known yields with ⟨middle, update, same, opening, tried⟩
    rw [← same.cash] at decides
    rcases yields_tryFill tried with ⟨row, found, decision⟩
    rw [opening.get?_new, Option.some.injEq] at found
    subst row
    simp only [decides, Except.ok.injEq, FillDecision.fill.injEq, reduceCtorEq, false_and,
      false_or] at decision
    rcases decision with ⟨_, _, result, ⟨rfl, rfl⟩, executed⟩
    rcases yields_executeFill opening.get?_new executed with ⟨stack, within, _, stacked, _, rfl⟩
    have sameCosts : stack = costs := by
      have both : Except.ok stack = Except.ok costs := stacked.symm.trans costed
      simpa using both
    subst stack
    exact ⟨middle, _, _, _, _, within, same, rfl, rfl, rfl⟩
  · -- nothing on the way to the fill raises
    exfalso
    simp only [LedgerOrder.placement, call, raises_bind, raises_pure, and_false, exists_false,
      or_false] at raises
    rcases raises_placeOrder raises with ⟨unknown, _⟩ |
      ⟨found, foundKnown, raised | ⟨middle, opened, raised⟩⟩
    · rw [LedgerOrder.request, known] at unknown
      cases unknown
    · rcases (raises_openOrder raised).1 with zero | used
      · have within := fillableQty_le fillable
        have positive := pos_of_marketLeg leg
        have nothing : order.qty = 0 := zero
        omega
      · have fresh : db.usesClientId order.clientOrderId = true := used
        rw [unused] at fresh
        cases fresh
    · rw [LedgerOrder.request, known, Option.some.injEq] at foundKnown
      subst found
      rcases yields_openOrder opened with ⟨_, _, _, opening⟩
      rw [← (sameBooks_openOrder opened).cash] at decides
      rcases raises_tryFill opening.get?_new (.inl rfl) raised with undecided |
        ⟨_, _, decided, uncosted⟩
      · rw [decides] at undecided
        cases undecided
      · rw [decides] at decided
        cases decided
        have both : Except.ok costs = Except.error exception := costed.symm.trans uncosted
        cases both

theorem unused_step {clientOrderId : String} (known : db.instrument instrument.id = some instrument)
    (unused : db.usesClientId clientOrderId = false) (other : clientOrderId ≠ order.clientOrderId) :
    (step db (params.paperBroker quotes latencyMs, order.placement instrument)).usesClientId
      clientOrderId = false := by
  rcases yields_or_raises ((params.paperBroker quotes latencyMs).call (order.placement instrument))
    db () with ⟨_, db', _, yields⟩ | ⟨exception, _, raises⟩
  · rw [step_of_yields yields]
    rcases yields_market known yields with ⟨middle, update, _, opening, tried⟩
    rw [Bool.eq_false_iff, ne_eq, DB.usesClientId_iff] at unused ⊢
    rintro ⟨id, row, found, sameId⟩
    apply unused
    rcases (trading_placeOrder opening tried).exists_before found with ⟨before, foundBefore, terms⟩
    have sameClient : row.clientOrderId = before.clientOrderId :=
      congrArg OrderTerms.clientOrderId terms
    rw [opening.orders] at foundBefore
    split_ifs at foundBefore with new
    · rw [Option.some.injEq] at foundBefore
      subst before
      exact absurd (sameId.symm.trans sameClient) other
    · exact ⟨id, before, foundBefore, sameClient.symm.trans sameId⟩
  · rw [step_of_raises raises]
    exact unused

end Step

end PaperBroker

/-! ## One order -/

section Order

variable {params : BacktestParams} {instrument : Instrument} {earlier : List ℚ}
  {ledger : BacktestLedger} {db db' : DB} {order : LedgerOrder}

/-- At a positive price a purchase is clamped, never refused. -/
theorem exists_clampToCash {price : ℚ} (priced : 0 < price) (segment : Segment) (rates : CostConfig)
    (cash : ℚ) (requested : ℕ) :
    ∃ qty, clampToCash price segment rates cash requested = .ok qty := by
  induction requested with
  | zero => exact ⟨0, rfl⟩
  | succ requested ih =>
      rw [clampToCash, calculateCosts_eq_ok.mpr ⟨priced, Nat.succ_pos requested, rfl⟩]
      simp only
      split_ifs with fits
      · exact ⟨_, rfl⟩
      · exact ih

/-- An order covers a short partly when the decided leg trades less than the position. -/
theorem LedgerOrder.coversPartly_iff (admissible : order.Admissible ledger) :
    order.CoversPartly params ledger ↔ ledger.portfolio.qty ≠ 0 ∧ ∃ qty costs,
      marketLeg params order.side order.price ledger.portfolio.cash order.qty = some (qty, costs) ∧
        qty < ledger.portfolio.qty.natAbs := by
  constructor
  · rintro ⟨priced, short, unaffordable, part, positive, within, paid⟩
    rcases admissible.2 short.ne with ⟨whole, buys⟩
    have side : order.side = .buy := buys.mpr short
    rcases exists_clampToCash priced params.segment params.costRates ledger.portfolio.cash
      order.qty with ⟨qty, clamped⟩
    rcases clampToCash_eq_ok clamped with ⟨below, affordable, tooMany⟩
    have partBelow : part ≤ order.qty := by omega
    have atLeast : part ≤ qty := by
      by_contra less
      exact absurd paid (not_le.mpr (tooMany part (not_le.mp less) partBelow))
    have qtyPos : 0 < qty := by omega
    have less : qty ≠ ledger.portfolio.qty.natAbs := by
      rintro rfl
      exact absurd (affordable qtyPos) (not_le.mpr unaffordable)
    rw [side]
    exact ⟨short.ne, qty, _, marketLeg_eq_some.mpr ⟨clamped,
      calculateCosts_eq_ok.mpr ⟨priced, qtyPos, rfl⟩⟩, by omega⟩
  · rintro ⟨nonflat, qty, costs, leg, less⟩
    rcases admissible.2 nonflat with ⟨whole, buys⟩
    rcases marketLeg_eq_some.mp leg with ⟨fillable, costed⟩
    rcases calculateCosts_eq_ok.mp costed with ⟨priced, positive, _⟩
    cases side : order.side with
    | sell =>
        rw [side] at fillable
        cases fillable
        omega
    | buy =>
        rw [side] at fillable priced
        rcases clampToCash_eq_ok fillable with ⟨_, affordable, tooMany⟩
        exact ⟨priced, buys.mp side, tooMany _ less whole.ge, qty, positive, less,
          affordable positive⟩

/-- What a fill does to the books of its instrument. -/
theorem reads_execute (db : DB) (id : ℕ) {row : Order} {qty : ℕ} (price : ℚ) (costs : TradeCosts)
    (time : ℤ) (within : row.filledQty + qty ≤ row.qty)
    (onInstrument : row.instrumentId = instrument.id) :
    let booked := (db.getOrCreatePosition instrument.id .paper).applyFill row.side qty
      costs.netAmount
    (db.execute id row qty price costs time within).getOrCreatePosition instrument.id .paper =
        booked.1 ∧
      (db.execute id row qty price costs time within).trades.filterMap Trade.realizedPnl =
        db.trades.filterMap Trade.realizedPnl ++ booked.2.toList := by
  have position : db.positionOf row = db.getOrCreatePosition instrument.id .paper := by
    rw [DB.positionOf, onInstrument]
  constructor
  · rw [DB.getOrCreatePosition, DB.positionFor_execute, if_pos onInstrument.symm, position,
      Option.getD_some]
  · rw [DB.trades_execute, List.filterMap_append, DB.filledTrade, position]
    rfl

theorem signedQty_eq (side : Side) (qty : ℕ) : signedQty side qty = side.sign * qty := by
  cases side <;> simp [signedQty]

theorem cash_close (portfolio : Portfolio) (side : Side) (netAmount : ℚ) :
    (portfolio.close side netAmount).cash =
      portfolio.cash + if side = .sell then netAmount else -netAmount := by
  cases side <;> simp [Portfolio.close, sub_eq_add_neg]

theorem openOrAdd_flat {portfolio : Portfolio} (flat : portfolio.qty = 0) (side : Side) (qty : ℕ)
    (netAmount : ℚ) : portfolio.openOrAdd side qty netAmount =
      { cash := portfolio.cash + if side = .sell then netAmount else -netAmount
        qty := signedQty side qty, avgPrice := netAmount / qty } := by
  rw [Portfolio.openOrAdd, if_pos flat]
  cases side <;> simp [sub_eq_add_neg]

namespace Position

theorem applyFill_flat {position : Position} (flat : position.qty = 0) (side : Side) (qty : ℕ)
    (netAmount : ℚ) : position.applyFill side qty netAmount =
      ({ position with qty := signedQty side qty, avgPrice := netAmount / qty }, none) := by
  rw [applyFill, if_pos (.inl flat)]
  simp [flat, signedQty_eq]

theorem applyFill_closing {position : Position} (nonflat : position.qty ≠ 0) {side : Side}
    (closes : side = .buy ↔ position.qty < 0) (qty : ℕ) (netAmount : ℚ) :
    let realized := if side = .sell then netAmount - position.avgPrice * qty
      else position.avgPrice * qty - netAmount
    position.applyFill side qty netAmount =
      ({ qty := position.qty + signedQty side qty
         avgPrice := if position.qty + signedQty side qty = 0 then 0 else position.avgPrice
         realizedPnl := position.realizedPnl + realized }, some realized) := by
  have opposite : ¬ (position.qty = 0 ∨ (0 < position.qty ↔ side = .buy)) := by
    rintro (flat | same)
    · exact nonflat flat
    · rw [closes] at same
      omega
  rw [applyFill, if_neg opposite, signedQty_eq]

end Position

theorem LedgersAgree.of_same (agree : LedgersAgree instrument earlier ledger db)
    (same : SameBooks db db') : LedgersAgree instrument earlier ledger db' := by
  have position : db'.getOrCreatePosition instrument.id .paper =
      db.getOrCreatePosition instrument.id .paper := by
    rw [DB.getOrCreatePosition, DB.positionFor, same.positions]
    rfl
  exact ⟨agree.cash.trans same.cash.symm, by rw [position]; exact agree.qty,
    by rw [position]; exact agree.avgPrice, by rw [same.trades]; exact agree.realized⟩

/-- A leg on the other side of a position closes it when it has its size. -/
theorem add_signedQty_eq_zero_iff {held : ℤ} {side : Side} (qty : ℕ)
    (closes : side = .buy ↔ held < 0) : held + signedQty side qty = 0 ↔ qty = held.natAbs := by
  cases side with
  | buy =>
      have short := closes.mp rfl
      simp only [signedQty, if_true]
      omega
  | sell =>
      have long : ¬ held < 0 := by
        rw [← closes]
        decide
      simp only [signedQty, reduceCtorEq, if_false]
      omega

section Booking

variable {middle : DB} {row : Order}

/-- A leg from flat books is booked alike. -/
theorem LedgersAgree.execute_flat (agree : LedgersAgree instrument earlier ledger middle)
    (flat : ledger.portfolio.qty = 0) (onInstrument : row.instrumentId = instrument.id) (id : ℕ)
    {qty : ℕ} (price : ℚ) (costs : TradeCosts) (time : ℤ)
    (within : row.filledQty + qty ≤ row.qty) :
    LedgersAgree instrument earlier
      ⟨ledger.portfolio.openOrAdd row.side qty costs.netAmount, ledger.realized⟩
      (middle.execute id row qty price costs time within) := by
  have paperFlat : (middle.getOrCreatePosition instrument.id .paper).qty = 0 := by
    rw [← agree.qty, flat]
  rcases reads_execute middle id price costs time within onInstrument with ⟨position, realized⟩
  rw [Position.applyFill_flat paperFlat] at position realized
  rw [openOrAdd_flat flat]
  refine ⟨?_, ?_, ?_, ?_⟩
  · rw [DB.cash_execute, ← agree.cash]
  · rw [position]
  · rw [position]
  · rw [realized, agree.realized]
    simp

/-- A leg that closes is booked alike exactly when it closes the whole position. -/
theorem LedgersAgree.execute_closing_iff (agree : LedgersAgree instrument earlier ledger middle)
    (nonflat : ledger.portfolio.qty ≠ 0) (closes : row.side = .buy ↔ ledger.portfolio.qty < 0)
    (onInstrument : row.instrumentId = instrument.id) (id : ℕ) {qty : ℕ} (price : ℚ)
    (costs : TradeCosts) (time : ℤ) (within : row.filledQty + qty ≤ row.qty) :
    LedgersAgree instrument earlier
        ⟨ledger.portfolio.close row.side costs.netAmount,
          ledger.realized ++ [ledger.portfolio.realized row.side qty costs.netAmount]⟩
        (middle.execute id row qty price costs time within) ↔
      qty = ledger.portfolio.qty.natAbs := by
  have closed := add_signedQty_eq_zero_iff qty closes
  have paperNonflat : (middle.getOrCreatePosition instrument.id .paper).qty ≠ 0 := by
    rw [← agree.qty]
    exact nonflat
  have paperCloses : row.side = .buy ↔
      (middle.getOrCreatePosition instrument.id .paper).qty < 0 := by
    rw [← agree.qty]
    exact closes
  rcases reads_execute middle id price costs time within onInstrument with ⟨position, realized⟩
  rw [Position.applyFill_closing paperNonflat paperCloses, ← agree.qty, ← agree.avgPrice]
    at position realized
  constructor
  · intro after
    have kept := after.qty
    rw [position] at kept
    exact closed.mp kept.symm
  · intro whole
    refine ⟨?_, ?_, ?_, ?_⟩
    · rw [cash_close, DB.cash_execute, agree.cash]
    · rw [position]
      exact (closed.mpr whole).symm
    · rw [position, if_pos (closed.mpr whole)]
      rfl
    · rw [realized, agree.realized, Option.toList_some, List.append_assoc]
      rfl

end Booking

/-- An order keeps the ledgers in agreement unless it covers a short partly. -/
theorem LedgersAgree.step_iff {quotes : LiveQuoteSource} {latencyMs : ℕ}
    (agree : LedgersAgree instrument earlier ledger db) (admissible : order.Admissible ledger)
    (known : db.instrument instrument.id = some instrument)
    (unused : db.usesClientId order.clientOrderId = false)
    (quoted : quotes.getLtp instrument = some order.price) :
    LedgersAgree instrument earlier (ledger.step params order) (PaperBroker.step db
        (params.paperBroker quotes latencyMs, order.placement instrument)) ↔
      ¬ order.CoversPartly params ledger := by
  have paperLeg : marketLeg params order.side order.price db.cash order.qty =
      marketLeg params order.side order.price ledger.portfolio.cash order.qty := by
    rw [agree.cash]
  rw [LedgerOrder.coversPartly_iff admissible, BacktestLedger.step_eq]
  cases leg : marketLeg params order.side order.price ledger.portfolio.cash order.qty with
  | none =>
      refine iff_of_true (agree.of_same
        (PaperBroker.sameBooks_of_noLeg known quoted (paperLeg.trans leg))) ?_
      rintro ⟨_, _, _, traded, _⟩
      cases traded
  | some decided =>
      rcases decided with ⟨qty, costs⟩
      rcases PaperBroker.execute_of_leg known unused quoted (paperLeg.trans leg) with
        ⟨middle, id, row, price, time, within, same, sameSide, onInstrument, executed⟩
      have before := agree.of_same same
      rw [executed, ← sameSide]
      by_cases flat : ledger.portfolio.qty = 0
      · simp only [flat, ne_eq, not_true_eq_false, if_false, false_and, not_false_eq_true, iff_true]
        exact before.execute_flat flat onInstrument id price costs time within
      · rcases admissible.2 flat with ⟨request, closes⟩
        rw [← sameSide] at closes
        have below : qty ≤ ledger.portfolio.qty.natAbs := by
          rw [← request]
          exact fillableQty_le (marketLeg_eq_some.mp leg).1
        simp only [flat, ne_eq, not_false_eq_true, if_true, true_and]
        rw [before.execute_closing_iff flat closes onInstrument id price costs time within]
        constructor
        · rintro whole ⟨_, _, sameLeg, less⟩
          cases sameLeg
          exact absurd whole less.ne
        · intro complete
          by_contra partly
          exact complete ⟨qty, costs, rfl, lt_of_le_of_ne below partly⟩

end Order

/-! ## Sequences of orders -/

/-- For every sequence of orders that opens flat ledgers and closes whole positions: after every
step the backtest and the paper broker have the same cash, quantity, average price and realized
profits, exactly when no order covers a short partly. -/
theorem ledgersAgree_iff (params : BacktestParams) (quotes : LiveQuoteSource) (latencyMs : ℕ)
    {instrument : Instrument} {earlier : List ℚ} {ledger : BacktestLedger} {db : DB}
    (agree : LedgersAgree instrument earlier ledger db)
    (known : db.instrument instrument.id = some instrument) {orders : List LedgerOrder}
    (unused : ∀ order ∈ orders, db.usesClientId order.clientOrderId = false)
    (distinct : (orders.map LedgerOrder.clientOrderId).Nodup)
    (admissible : Meets (BacktestLedger.step params)
      (fun ledger order => order.Admissible ledger) ledger orders) :
    (∀ count, LedgersAgree instrument earlier
        (runSteps (BacktestLedger.step params) ledger (orders.take count))
        (runSteps PaperBroker.step db ((orders.take count).map
          (LedgerOrder.call (params.paperBroker quotes latencyMs) instrument)))) ↔
      Meets (BacktestLedger.step params) (fun ledger order => ¬ order.CoversPartly params ledger)
        ledger orders := by
  induction orders generalizing ledger db with
  | nil => exact iff_of_true (fun count => by simpa [runSteps] using agree) trivial
  | cons order orders ih =>
      rw [List.map_cons, List.nodup_cons] at distinct
      rcases admissible with ⟨first, rest⟩
      let call := order.call (params.paperBroker quotes latencyMs) instrument
      have quoted : (quotes.update instrument.instrumentKey order.price).getLtp instrument =
          some order.price := by
        simp [LiveQuoteSource.update, LiveQuoteSource.getLtp]
      have one : LedgersAgree instrument earlier (ledger.step params order)
          (PaperBroker.step db call) ↔ ¬ order.CoversPartly params ledger :=
        agree.step_iff first known (unused order List.mem_cons_self) quoted
      have stillKnown : (PaperBroker.step db call).instrument instrument.id = some instrument := by
        rw [DB.instrument, PaperBroker.instruments_step]
        exact known
      have stillUnused : ∀ later ∈ orders,
          (PaperBroker.step db call).usesClientId later.clientOrderId = false := by
        intro later mem
        refine PaperBroker.unused_step known (unused later (List.mem_cons_of_mem _ mem)) ?_
        intro same
        exact distinct.1 (same ▸ List.mem_map_of_mem mem)
      constructor
      · intro agrees
        have after := agrees 1
        have next := one.mp after
        refine ⟨next, (ih after stillKnown stillUnused distinct.2 rest).mp fun count => ?_⟩
        exact agrees (count + 1)
      · rintro ⟨whole, onwards⟩ count
        have after := one.mpr whole
        cases count with
        | zero => exact agree
        | succ count => exact (ih after stillKnown stillUnused distinct.2 rest).mpr onwards count

/-- The instrument of the samples. -/
def infy : Instrument := ⟨1, "INFY", "NSE_EQ|INFY", 1 / 20⟩

/-- A paper account over it. -/
def accountOf (cash : ℚ) : DB where
  instruments := [infy]
  paperAccount := some ⟨cash⟩

/-- A flat ledger. -/
def flatLedger (cash : ℚ) : BacktestLedger := ⟨{ cash }, []⟩

theorem ledgersAgree_flat (cash : ℚ) :
    LedgersAgree infy [] (flatLedger cash) (accountOf cash) := ⟨rfl, rfl, rfl, rfl⟩

/-- Ten shares bought and sold at a profit. -/
def longTrip : List LedgerOrder := [⟨.buy, 10, 5, "a", "u", 0⟩, ⟨.sell, 10, 6, "b", "v", 1⟩]

theorem ledgersAgree_iff_sample :
    LedgersAgree infy [] (runSteps (BacktestLedger.step tenShares) (flatLedger 100) longTrip)
      (runSteps PaperBroker.step (accountOf 100)
        (longTrip.map (LedgerOrder.call (tenShares.paperBroker (fun _ => none) 250) infy))) := by
  have unused : ∀ order ∈ longTrip, (accountOf 100).usesClientId order.clientOrderId = false :=
    fun _ _ => rfl
  have distinct : (longTrip.map LedgerOrder.clientOrderId).Nodup := by decide
  have admissible : Meets (BacktestLedger.step tenShares)
      (fun ledger order => order.Admissible ledger) (flatLedger 100) longTrip :=
    ⟨⟨by decide, fun nonflat => absurd rfl nonflat⟩, ⟨by decide, fun _ => by decide +kernel⟩,
      trivial⟩
  have whole : Meets (BacktestLedger.step tenShares)
      (fun ledger order => ¬ order.CoversPartly tenShares ledger) (flatLedger 100) longTrip :=
    ⟨fun partly => absurd partly.2.1 (by decide +kernel),
      fun partly => absurd partly.2.1 (by decide +kernel), trivial⟩
  exact (ledgersAgree_iff tenShares (fun _ => none) 250 (ledgersAgree_flat 100) rfl unused distinct
    admissible).mpr whole 2

/-- Ten shares sold short and covered at five times the price. -/
def losingTrip : List LedgerOrder := [⟨.sell, 10, 10, "a", "u", 0⟩, ⟨.buy, 10, 50, "b", "v", 1⟩]

/-- After the cover the backtest is flat, while the paper broker is still short of seven. -/
theorem losingTrip_disagrees :
    Meets (BacktestLedger.step tenShares) (fun ledger order => order.Admissible ledger)
        (flatLedger 100) losingTrip ∧
      (runSteps (BacktestLedger.step tenShares) (flatLedger 100) losingTrip).portfolio.qty = 0 ∧
      (runSteps PaperBroker.step (accountOf 100) (losingTrip.map (LedgerOrder.call
        (tenShares.paperBroker (fun _ => none) 250) infy))).positionQty 1 .paper = -7 ∧
      ¬ LedgersAgree infy [] (runSteps (BacktestLedger.step tenShares) (flatLedger 100) losingTrip)
        (runSteps PaperBroker.step (accountOf 100) (losingTrip.map
          (LedgerOrder.call (tenShares.paperBroker (fun _ => none) 250) infy))) := by
  have backtest : (runSteps (BacktestLedger.step tenShares) (flatLedger 100)
      losingTrip).portfolio.qty = 0 := by decide +kernel
  have paper : (runSteps PaperBroker.step (accountOf 100) (losingTrip.map (LedgerOrder.call
      (tenShares.paperBroker (fun _ => none) 250) infy))).positionQty 1 .paper = -7 := by
    decide +kernel
  refine ⟨⟨⟨by decide, fun nonflat => absurd rfl nonflat⟩, ⟨by decide, fun _ => by decide +kernel⟩,
    trivial⟩, backtest, paper, fun agree => ?_⟩
  have same := agree.qty
  rw [backtest, DB.getOrCreatePosition_qty] at same
  rw [show infy.id = 1 from rfl, paper] at same
  cases same

end PersonalTrade
