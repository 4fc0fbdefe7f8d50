import PersonalTrade.Execution.Agreement

/-!
# The value of a paper account

The moves of the paper broker with the terms that they were decided on: what a fill
costs is what the cost stack says of the decided quantity and price. From these terms,
cash never goes below zero (`cash_nonneg`), and no fill is better than trading at the
quote (`equity_le`), so that trading at unchanging quotes never makes money.
-/

namespace PersonalTrade

open Transaction Relation

/-- The price is no worse than the limit of a LIMIT order. -/
def Order.WithinLimit (order : Order) (price : ℚ) : Prop :=
  order.orderType = .limit → ∃ limitPrice, order.limitPrice = some limitPrice ∧
    match order.side with
    | .buy => price ≤ limitPrice
    | .sell => limitPrice ≤ price

/-- What one operation of a paper broker does to the books: nothing, or a decided fill. -/
inductive DecidedMove (broker : PaperBroker) : DB → DB → Prop where
  | quiet {db db' : DB} (cash : db'.cash = db.cash) (positions : db'.positions = db.positions)
      (instruments : db'.instruments = db.instruments) : DecidedMove broker db db'
  | fill {db : DB} {id : ℕ} {order : Order} {instrument : Instrument}
      (known : db.instrument order.instrumentId = some instrument) {qty : ℕ} {price : ℚ}
      (decided : broker.decideFill order instrument db.cash = .ok (.fill qty price))
      {costs : TradeCosts} (charged : calculateCosts order.side price qty broker.segment
        broker.costRates = .ok costs) (time : ℤ) (within : order.filledQty + qty ≤ order.qty) :
      DecidedMove broker db (db.execute id order qty price costs time within)

/-- Operations in sequence. -/
abbrev DecidedMoves (broker : PaperBroker) : DB → DB → Prop := ReflTransGen (DecidedMove broker)

namespace PaperBroker

variable {broker : PaperBroker} {db db' : DB} {id : ℕ} {order : Order} {instrument : Instrument}
  {world world' : Unit}

theorem decidedMove_openOrder {uuid : String} {request : OrderRequest}
    (yields : (openOrder uuid request).Yields db world id db' world') :
    DecidedMove broker db db' := by
  simp only [openOrder, yields_bind, yields_recordCreated, yields_transition, yields_pure] at yields
  rcases yields with ⟨_, _, _, ⟨_, _, rfl, rfl⟩, _, _, _, ⟨_, _, _, rfl⟩, _, _, _,
    ⟨_, _, _, rfl⟩, _, _, _, ⟨_, _, _, rfl⟩, rfl, rfl, _⟩
  exact .quiet rfl rfl rfl

/-- All that a call does is a sequence of operations. -/
theorem decidedMoves_call {made : PaperCall}
    (yields : (broker.call made).Yields db world () db' world') : DecidedMoves broker db db' := by
  refine call_invariant (motive := DecidedMoves broker db) (fun _ _ _ _ _ _ _ opened =>
    .single (decidedMove_openOrder opened)) (fun _ _ _ _ soFar _ _ => soFar.tail (.quiet rfl rfl rfl))
    (fun _ _ _ _ _ _ _ time soFar _ fills => ?_) .refl yields
  exact soFar.tail (.fill fills.known fills.decided fills.charged time fills.within)

theorem decidedMoves_step (db : DB) (made : PaperBroker × PaperCall) :
    DecidedMoves made.1 db (step db made) := by
  rcases commit_store (made.1.call made.2) db () with same | ⟨_, _, yields⟩
  · have rolledBack : step db made = db := same
    rw [rolledBack]
  · exact decidedMoves_call yields

/-- What every operation of the brokers of a run preserves, the run preserves. -/
theorem invariant_runSteps {motive : DB → Prop} {calls : List (PaperBroker × PaperCall)}
    (preserved : ∀ made ∈ calls, ∀ before after, motive before →
      DecidedMove made.1 before after → motive after) (initial : motive db) :
    motive (runSteps step db calls) := by
  induction calls generalizing db with
  | nil => exact initial
  | cons made calls ih =>
      have first : motive (step db made) := by
        have moves := decidedMoves_step db made
        generalize step db made = after at moves
        induction moves with
        | refl => exact initial
        | tail _ move kept => exact preserved made List.mem_cons_self _ _ kept move
      exact ih (fun other mem => preserved other (List.mem_cons_of_mem _ mem)) first

/-- An order that trades at a quote trades at no other price: a limit order only trades when
the quote is at least as good as the limit. -/
theorem referencePrice_eq_some {ltp reference : ℚ}
    (referenced : referencePrice order ltp = .ok (some reference)) :
    reference = ltp ∧ order.WithinLimit ltp := by
  rw [referencePrice] at referenced
  split at referenced
  · split at referenced
    · cases referenced
    · rename_i limitPrice limited
      split at referenced
      · rename_i buys
        split_ifs at referenced with marketable
        · cases referenced
          exact ⟨min_eq_left marketable, fun _ =>
            ⟨limitPrice, limited, by simpa only [buys] using marketable⟩⟩
        · cases referenced
      · rename_i sells
        split_ifs at referenced with marketable
        · cases referenced
          exact ⟨max_eq_left marketable, fun _ =>
            ⟨limitPrice, limited, by simpa only [sells] using marketable⟩⟩
        · cases referenced
  · rename_i notLimit
    cases referenced
    exact ⟨rfl, fun isLimit => absurd isLimit notLimit⟩

/-- The terms of a decided fill: a quote with slippage, for an affordable quantity. -/
theorem decideFill_terms {cash : ℚ} {qty : ℕ} {price : ℚ}
    (decided : broker.decideFill order instrument cash = .ok (.fill qty price)) :
    ∃ ltp, broker.quotes.getLtp instrument = some ltp ∧ order.WithinLimit ltp ∧
      price = applySlippage ltp order.side broker.slippageBps ∧
      broker.affordable order cash price = .ok qty := by
  rw [decideFill] at decided
  split_ifs at decided with full
  · cases decided
  split at decided
  · cases decided
  rename_i ltp quoted
  refine ⟨ltp, quoted, ?_⟩
  split at decided
  · cases decided
  · cases decided
  rename_i reference referenced
  rcases referencePrice_eq_some referenced with ⟨rfl, marketable⟩
  simp only at decided
  split at decided
  · cases decided
  · cases decided
  · rename_i affordable
    cases decided
    exact ⟨marketable, rfl, affordable⟩

end PaperBroker

/-! ## Cash -/

/-- What a leg leaves of the cash: purchases are clamped to it, sales bring something in. -/
theorem cashAfter_nonneg {side : Side} {price cash : ℚ} {qty requested : ℕ} {segment : Segment}
    {rates : CostConfig} {costs : TradeCosts} (funded : 0 ≤ cash)
    (within : sellRate segment rates ≤ 1)
    (charged : calculateCosts side price qty segment rates = .ok costs)
    (clamped : side = .buy → clampToCash price segment rates cash requested = .ok qty) :
    0 ≤ cash + if side = .sell then costs.netAmount else -costs.netAmount := by
  rcases calculateCosts_eq_ok.mp charged with ⟨priced, positive, rfl⟩
  cases side with
  | buy =>
      have paid := (clampToCash_eq_ok (clamped rfl)).2.1 positive
      simp only [reduceCtorEq, if_false]
      linarith
  | sell =>
      have received : 0 ≤ (costStack .sell price qty segment rates).netAmount :=
        netAmount_nonneg priced.le within
      simp only [if_true]
      linarith

theorem PaperBroker.cash_nonneg_move {broker : PaperBroker} {db db' : DB}
    (within : sellRate broker.segment broker.costRates ≤ 1) (funded : 0 ≤ db.cash)
    (move : DecidedMove broker db db') : 0 ≤ db'.cash := by
  cases move with
  | quiet cash _ _ => rwa [cash]
  | fill known decided charged time below =>
      rcases decideFill_terms decided with ⟨ltp, _, _, _, affordable⟩
      rw [DB.cash_execute]
      apply cashAfter_nonneg funded within charged
      intro buys
      rw [PaperBroker.affordable, buys, clampToCash_eq] at affordable
      exact affordable

theorem Portfolio.cash_nonneg_fill {params : BacktestParams} {side : Side} {closing : Bool}
    {requested : ℕ} {rawPrice : ℚ} {portfolio : Portfolio} {filled : Portfolio × Option Leg}
    (within : sellRate params.segment params.costRates ≤ 1) (funded : 0 ≤ portfolio.cash)
    (ok : portfolio.fill params side closing requested rawPrice = .ok filled) :
    0 ≤ filled.1.cash := by
  rw [Portfolio.fill] at ok
  by_cases nothing : requested = 0
  · rw [if_pos nothing] at ok
    cases ok
    exact funded
  rw [if_neg nothing] at ok
  rcases except_bind_eq_ok.mp ok with ⟨qty, fillable, ok⟩
  by_cases none : qty = 0
  · rw [if_pos none] at ok
    cases ok
    exact funded
  rw [if_neg none] at ok
  rcases except_bind_eq_ok.mp ok with ⟨costs, charged, ok⟩
  have left : 0 ≤ portfolio.cash + if side = .sell then costs.netAmount else -costs.netAmount := by
    apply cashAfter_nonneg funded within charged
    rintro rfl
    exact fillable
  have closed : (portfolio.close side costs.netAmount).cash =
      portfolio.cash + if side = .sell then costs.netAmount else -costs.netAmount := by
    cases side <;> simp [Portfolio.close, sub_eq_add_neg]
  have opened : (portfolio.openOrAdd side qty costs.netAmount).cash =
      portfolio.cash + if side = .sell then costs.netAmount else -costs.netAmount := by
    rw [Portfolio.openOrAdd]
    by_cases flat : portfolio.qty = 0 <;> cases side <;> simp [flat, sub_eq_add_neg]
  by_cases closes : closing = true
  · rw [if_pos closes] at ok
    cases ok
    rwa [closed]
  · rw [if_neg closes] at ok
    cases ok
    rwa [opened]

theorem Replay.cash_nonneg_executePending {σ : Type} {params : BacktestParams}
    {bar : CandleRow × ℕ} {state state' : Replay σ}
    (within : sellRate params.segment params.costRates ≤ 1) (funded : 0 ≤ state.portfolio.cash)
    (ok : state.executePending params bar = .ok state') : 0 ≤ state'.portfolio.cash := by
  rw [executePending] at ok
  cases pending : state.pending with
  | none =>
      rw [pending] at ok
      cases ok
      exact funded
  | some entry =>
      rw [pending] at ok
      rcases except_bind_eq_ok.mp ok with ⟨executed, executedOk, ok⟩
      cases ok
      rw [executeSignal] at executedOk
      cases resolved : resolveAction state.portfolio.qty entry.1.direction with
      | none =>
          rw [resolved] at executedOk
          cases executedOk
          exact funded
      | some action =>
          rw [resolved] at executedOk
          rcases except_bind_eq_ok.mp executedOk with ⟨filled, filledOk, executedOk⟩
          cases executedOk
          exact Portfolio.cash_nonneg_fill within funded filledOk

theorem BacktestRun.cash_nonneg_replay {σ : Type} {run : BacktestRun σ} {state state' : Replay σ}
    {bars : List (CandleRow × ℕ)}
    (within : sellRate run.params.segment run.params.costRates ≤ 1)
    (funded : 0 ≤ state.portfolio.cash) (ok : run.replay state bars = .ok state') :
    0 ≤ state'.portfolio.cash := by
  induction bars generalizing state with
  | nil =>
      cases ok
      exact funded
  | cons bar bars ih =>
      rw [replay, List.foldlM_cons] at ok
      rcases except_bind_eq_ok.mp ok with ⟨next, turned, later⟩
      rcases bar_ledger turned with ⟨executed, executedOk, portfolio, _⟩
      apply ih _ later
      rw [portfolio]
      exact Replay.cash_nonneg_executePending within funded executedOk

theorem PaperBroker.cash_nonneg_runSteps {start : DB} {calls : List (PaperBroker × PaperCall)}
    (funded : 0 ≤ start.cash)
    (within : ∀ made ∈ calls, sellRate made.1.segment made.1.costRates ≤ 1) :
    0 ≤ (runSteps step start calls).cash := by
  refine invariant_runSteps (motive := fun db => 0 ≤ db.cash) ?_ funded
  intro made mem before after kept move
  exact cash_nonneg_move (within made mem) kept move

theorem Reached.cash_nonneg {σ : Type} {sqrt : ℚ → ℚ} {strategy : Strategy σ} {memory : σ}
    {candles : List CandleRow} {params : BacktestParams} {count : ℕ} {state : Replay σ}
    (within : sellRate params.segment params.costRates ≤ 1)
    (reached : Reached sqrt strategy memory candles params count state) :
    0 ≤ state.portfolio.cash := by
  rcases reached with ⟨run, started, replayed⟩
  rcases BacktestRun.start_eq_ok started with ⟨_, capital, series, _, runEq⟩
  have own : run.params = params := by rw [runEq]
  have funded : 0 ≤ (run.initial memory).portfolio.cash := by
    change 0 ≤ run.params.initialCapital
    rw [own]
    exact capital.le
  rw [← own] at within
  exact BacktestRun.cash_nonneg_replay within funded replayed

/-- Cash never goes below zero: in every state that calls of paper brokers reach, and after
every bar of a backtest, as long as no sale is charged more than its turnover. -/
theorem cash_never_negative {σ : Type} :
    (∀ (start : DB) (calls : List (PaperBroker × PaperCall)), 0 ≤ start.cash →
      (∀ made ∈ calls, sellRate made.1.segment made.1.costRates ≤ 1) →
      0 ≤ (runSteps PaperBroker.step start calls).cash) ∧
    ∀ (sqrt : ℚ → ℚ) (strategy : Strategy σ) (memory : σ) (candles : List CandleRow)
      (params : BacktestParams) (count : ℕ) (state : Replay σ),
      sellRate params.segment params.costRates ≤ 1 →
      Reached sqrt strategy memory candles params count state → 0 ≤ state.portfolio.cash :=
  ⟨fun _ _ funded within => PaperBroker.cash_nonneg_runSteps funded within,
    fun _ _ _ _ _ _ _ within reached => reached.cash_nonneg within⟩

/-- The default rates, on a paper account and on a backtest after its two trades. -/
theorem cash_never_negative_sample :
    0 ≤ (runSteps PaperBroker.step PaperBroker.sampleAccount PaperBroker.sampleCalls).cash ∧
      ∃ state, Reached id shortSeller () risingBars tenShares 3 state ∧
        state.trades.length = 2 ∧ 0 ≤ state.portfolio.cash := by
  have rates : sellRate .delivery {} ≤ 1 := by decide +kernel
  constructor
  · apply (@cash_never_negative Unit).1 _ _ (by decide +kernel)
    intro made mem
    simp only [PaperBroker.sampleCalls, List.mem_cons, List.not_mem_nil, or_false] at mem
    rcases mem with rfl | rfl | rfl <;> exact rates
  · let run : BacktestRun Unit := ⟨shortSeller, tenShares, risingBars, ∅, 0⟩
    have started : BacktestRun.start id shortSeller risingBars tenShares = .ok run := rfl
    have traded : (run.replay (run.initial ()) (risingBars.zipIdx.take 3)).toOption.map
        (fun state => state.trades.length) = some 2 := by decide +kernel
    rcases exists_of_toOption _ traded with ⟨state, replayed, count⟩
    have reached : Reached id shortSeller () risingBars tenShares 3 state :=
      ⟨run, started, replayed⟩
    refine ⟨state, reached, count, ?_⟩
    exact cash_never_negative.2 id shortSeller () risingBars tenShares 3 state rates reached

/-! ## Equity at the quote -/

/-- Cash and the position of an instrument at a price. -/
def DB.equityAt (db : DB) (instrumentId : ℕ) (price : ℚ) : ℚ :=
  db.cash + db.positionQty instrumentId .paper * price

theorem DB.positionQty_execute {db : DB} {id : ℕ} {order : Order} {qty : ℕ} {price : ℚ}
    {costs : TradeCosts} {time : ℤ} {within : order.filledQty + qty ≤ order.qty}
    (instrumentId : ℕ) :
    (db.execute id order qty price costs time within).positionQty instrumentId .paper =
      db.positionQty instrumentId .paper +
        if instrumentId = order.instrumentId then order.side.sign * qty else 0 := by
  have booked := positionQty_bookFill db .paper .paper id instrumentId order qty price costs time
  simp only [and_true] at booked
  exact booked

/-- A leg at the quote with slippage and charges is no better than one at the quote. -/
theorem cashFlow_le {side : Side} {ltp price slippageBps : ℚ} {qty : ℕ} {segment : Segment}
    {rates : CostConfig} {costs : TradeCosts} (slips : 0 ≤ slippageBps) (whole : slippageBps < 10000)
    (slipped : price = applySlippage ltp side slippageBps)
    (charged : calculateCosts side price qty segment rates = .ok costs) :
    (if side = .sell then costs.netAmount else -costs.netAmount) + (side.sign * qty : ℤ) * ltp ≤
      0 := by
  rcases calculateCosts_eq_ok.mp charged with ⟨priced, _, rfl⟩
  have shares : (0 : ℚ) ≤ qty := Nat.cast_nonneg qty
  cases side with
  | buy =>
      have paid : price * qty ≤ (costStack .buy price qty segment rates).netAmount :=
        turnover_le_netAmount priced.le
      have dearer : ltp ≤ price := by
        simp only [applySlippage, if_true] at slipped
        have factor : 0 < 1 + slippageBps / 10000 := by positivity
        have quoted : 0 < ltp := by
          rw [slipped] at priced
          exact pos_of_mul_pos_left priced factor.le
        rw [slipped]
        have slip : 0 ≤ slippageBps / 10000 := by positivity
        nlinarith
      have spent : ltp * qty ≤ price * qty := mul_le_mul_of_nonneg_right dearer shares
      simp only [reduceCtorEq, if_false, Side.sign_buy, one_mul, Int.cast_natCast]
      linarith
  | sell =>
      have received : (costStack .sell price qty segment rates).netAmount ≤ price * qty :=
        netAmount_le_turnover priced.le
      have cheaper : price ≤ ltp := by
        simp only [applySlippage, reduceCtorEq, if_false] at slipped
        have factor : 0 < 1 - slippageBps / 10000 := by linarith
        have quoted : 0 < ltp := by
          rw [slipped] at priced
          exact pos_of_mul_pos_left priced factor.le
        rw [slipped]
        have slip : 0 ≤ slippageBps / 10000 := by positivity
        nlinarith
      have sold : price * qty ≤ ltp * qty := mul_le_mul_of_nonneg_right cheaper shares
      simp only [if_true, Side.sign_sell]
      push_cast
      linarith

/-- Slippage makes a price worse, and not worse than nothing. -/
def PaperBroker.Slips (broker : PaperBroker) : Prop :=
  0 ≤ broker.slippageBps ∧ broker.slippageBps < 10000

/-- No fill is better than trading at the quote. -/
theorem equityAt_le_of_tryFill {broker : PaperBroker} {db db' : DB} {id : ℕ} {order : Order}
    {instrument : Instrument} {time : ℤ} {update : Option OrderUpdate} {world world' : Unit}
    {ltp : ℚ} (slips : broker.Slips) (quoted : broker.quotes.getLtp instrument = some ltp)
    (found : db.orders.get? id = some order)
    (yields : (broker.tryFill id instrument time).Yields db world update db' world') :
    db'.equityAt order.instrumentId ltp ≤ db.equityAt order.instrumentId ltp := by
  rcases PaperBroker.yields_tryFill yields with ⟨row, rowFound, ⟨_, rfl⟩ | ⟨_, _, rfl⟩ |
    ⟨qty, price, _, decided, executed⟩⟩
  · exact le_rfl
  · exact le_rfl
  · rw [found, Option.some.injEq] at rowFound
    subst row
    rcases PaperBroker.yields_executeFill found executed with ⟨costs, within, _, charged, _, rfl⟩
    rcases PaperBroker.decideFill_terms decided with ⟨quote, quoteFound, _, slipped, _⟩
    rw [quoted, Option.some.injEq] at quoteFound
    subst quote
    have leg := cashFlow_le slips.1 slips.2 slipped charged
    have filled : (db.execute id order qty price costs (time + broker.latencyMs) within).equityAt
        order.instrumentId ltp ≤ db.equityAt order.instrumentId ltp := by
      rw [DB.equityAt, DB.equityAt, DB.cash_execute, DB.positionQty_execute, if_pos rfl]
      push_cast at leg ⊢
      linarith
    exact filled

/-- The mark of an instrument, zero without a quote. -/
def DB.mark (db : DB) (quotes : LiveQuoteSource) (instrumentId : ℕ) : ℚ :=
  ((db.instrument instrumentId).bind quotes.getLtp).getD 0

/-- Cash and all paper positions at their marks. -/
def DB.equity (db : DB) (quotes : LiveQuoteSource) : ℚ :=
  db.cash + ∑ instrumentId ∈ (db.instruments.map Instrument.id).toFinset,
    db.positionQty instrumentId .paper * db.mark quotes instrumentId

theorem equity_le_of_move {broker : PaperBroker} {db db' : DB} (slips : broker.Slips)
    (move : DecidedMove broker db db') :
    db'.equity broker.quotes ≤ db.equity broker.quotes := by
  cases move with
  | quiet cash positions instruments =>
      have same : ∀ instrumentId,
          db'.positionQty instrumentId .paper = db.positionQty instrumentId .paper := by
        intro instrumentId
        rw [DB.positionQty, DB.positionFor, positions]
        rfl
      simp only [DB.equity, DB.mark, DB.instrument, cash, instruments, same]
      exact le_rfl
  | @fill id order instrument known qty price decided costs charged time below =>
      rcases PaperBroker.decideFill_terms decided with ⟨ltp, quoted, _, slipped, _⟩
      have leg := cashFlow_le slips.1 slips.2 slipped charged
      have mem : order.instrumentId ∈ (db.instruments.map Instrument.id).toFinset := by
        rw [List.mem_toFinset]
        have sameId : instrument.id = order.instrumentId := by
          simpa using List.find?_some known
        rw [← sameId]
        exact List.mem_map_of_mem (List.mem_of_find?_eq_some known)
      have marked : db.mark broker.quotes order.instrumentId = ltp := by
        rw [DB.mark, known, Option.bind_some, quoted, Option.getD_some]
      have filled : (db.execute id order qty price costs time below).equity broker.quotes =
          db.equity broker.quotes +
            ((if order.side = .sell then costs.netAmount else -costs.netAmount) +
              (order.side.sign * qty : ℤ) * ltp) := by
        have marks : ∀ instrumentId, (db.execute id order qty price costs time below).mark
            broker.quotes instrumentId = db.mark broker.quotes instrumentId := fun _ => rfl
        have instruments : (db.execute id order qty price costs time below).instruments =
            db.instruments := rfl
        simp only [DB.equity, instruments, marks, DB.cash_execute, DB.positionQty_execute,
          Int.cast_add, Int.cast_ite, Int.cast_zero, add_mul, ite_mul, zero_mul,
          Finset.sum_add_distrib, Finset.sum_ite_eq', if_pos mem, marked]
        ring
      rw [filled]
      linarith

/-- A run at unchanging quotes does not raise the equity. -/
theorem equity_le_of_runSteps {quotes : LiveQuoteSource} {start : DB}
    {calls : List (PaperBroker × PaperCall)}
    (fixed : ∀ made ∈ calls, made.1.quotes = quotes ∧ made.1.Slips) :
    (runSteps PaperBroker.step start calls).equity quotes ≤ start.equity quotes := by
  refine PaperBroker.invariant_runSteps
    (motive := fun db => db.equity quotes ≤ start.equity quotes) ?_ le_rfl
  intro made mem before after soFar move
  rcases fixed made mem with ⟨same, slips⟩
  have moved := equity_le_of_move slips move
  rw [same] at moved
  exact moved.trans soFar

theorem DB.equity_of_flat {db : DB} (flat : ∀ instrumentId, db.positionQty instrumentId .paper = 0)
    (quotes : LiveQuoteSource) : db.equity quotes = db.cash := by
  simp only [equity, flat, Int.cast_zero, zero_mul, Finset.sum_const_zero, add_zero]

/-- Paper trading is never optimistic: a fill at a quote leaves at most the equity marked at
that quote, and a run at unchanging quotes that starts and ends flat makes no money. -/
theorem paper_never_optimistic :
    (∀ (broker : PaperBroker) (db db' : DB) (id : ℕ) (order : Order) (instrument : Instrument)
      (time : ℤ) (update : Option OrderUpdate) (ltp : ℚ), broker.Slips →
      broker.quotes.getLtp instrument = some ltp → db.orders.get? id = some order →
      (broker.tryFill id instrument time).Yields db () update db' () →
      db'.equityAt order.instrumentId ltp ≤ db.equityAt order.instrumentId ltp) ∧
    ∀ (quotes : LiveQuoteSource) (start : DB) (calls : List (PaperBroker × PaperCall)),
      (∀ made ∈ calls, made.1.quotes = quotes ∧ made.1.Slips) →
      (∀ instrumentId, start.positionQty instrumentId .paper = 0) →
      (∀ instrumentId,
        (runSteps PaperBroker.step start calls).positionQty instrumentId .paper = 0) →
      (runSteps PaperBroker.step start calls).cash ≤ start.cash := by
  constructor
  · intro broker db db' id order instrument time update ltp slips quoted found yields
    exact equityAt_le_of_tryFill slips quoted found yields
  · intro quotes start calls fixed flatStart flatEnd
    have equity : (runSteps PaperBroker.step start calls).equity quotes ≤ start.equity quotes :=
      equity_le_of_runSteps fixed
    rw [DB.equity_of_flat flatStart, DB.equity_of_flat flatEnd] at equity
    exact equity

theorem DB.flat_of_entries {db : DB} (flat : ∀ entry ∈ db.positions.entries, entry.2.qty = 0)
    (instrumentId : ℕ) : db.positionQty instrumentId .paper = 0 := by
  rw [positionQty, positionFor]
  cases found : db.positions.lookup ⟨instrumentId, .paper⟩ with
  | none => rfl
  | some position => exact flat _ (AList.mem_lookup_iff.mp found)

/-- A purchase and a sale of five shares. -/
def roundTrip : List (PaperBroker × PaperCall) :=
  [(PaperBroker.sampleBroker, .placeOrder "u" 0 ⟨"a", 1, .buy, .market, 5, none⟩),
    (PaperBroker.sampleBroker, .placeOrder "v" 1000 ⟨"b", 1, .sell, .market, 5, none⟩)]

/-- The instrument of the sample account. -/
def sampleInstrument : Instrument := ⟨1, "INFY", "NSE_EQ|INFY", 1 / 20⟩

/-- The purchase, accepted and not yet filled. -/
def restingOrder : Order := PaperBroker.openedRow "u" ⟨"a", 1, .buy, .market, 5, none⟩

/-- The account after the purchase has been accepted. -/
def restingAccount : DB := PaperBroker.sampleAccount.createOrder restingOrder

theorem paper_never_optimistic_sample :
    (∃ update db', (PaperBroker.sampleBroker.tryFill 0 sampleInstrument 0).Yields
        restingAccount () update db' () ∧
      db'.equityAt 1 100 ≤ restingAccount.equityAt 1 100) ∧
    (runSteps PaperBroker.step PaperBroker.sampleAccount roundTrip).cash ≤ 550 := by
  have slips : PaperBroker.sampleBroker.Slips := ⟨le_rfl, by decide +kernel⟩
  constructor
  · rcases exists_yields (PaperBroker.sampleBroker.tryFill 0 sampleInstrument 0)
      restingAccount (by decide +kernel) with ⟨update, db', tried⟩
    exact ⟨update, db', tried, paper_never_optimistic.1 PaperBroker.sampleBroker restingAccount db'
      0 restingOrder sampleInstrument 0 update 100 slips rfl rfl tried⟩
  · apply paper_never_optimistic.2 (fun _ => some 100) PaperBroker.sampleAccount roundTrip
    · intro made mem
      simp only [roundTrip, List.mem_cons, List.not_mem_nil, or_false] at mem
      rcases mem with rfl | rfl <;> exact ⟨rfl, slips⟩
    · intro instrumentId
      rfl
    · apply DB.flat_of_entries
      decide +kernel

end PersonalTrade
