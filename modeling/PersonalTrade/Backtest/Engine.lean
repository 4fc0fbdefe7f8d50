import PersonalTrade.Backtest.Costs
import PersonalTrade.Backtest.IndicatorBridge
import PersonalTrade.Risk.Limits

/-!
# Backtest engine

`backtest/engine.py` over exact rationals: a signal of bar `i` fills at the open of
bar `i + 1`. What `run_backtest` computes before its loop is a `BacktestRun`; the
loop carries a `Replay`, whose last field is the memory of the strategy.
-/

namespace PersonalTrade

structure ExecutedTrade where
  index : ℕ
  ts : ℤ
  side : Side
  qty : ℕ
  price : ℚ
  costs : TradeCosts
  signalIndex : ℕ
  realizedPnl : Option ℚ
deriving DecidableEq, Repr

structure EquityPoint where
  index : ℕ
  ts : ℤ
  cash : ℚ
  positionQty : ℤ
  positionValue : ℚ
  equity : ℚ
deriving DecidableEq, Repr

structure UnfilledSignal where
  index : ℕ
  ts : ℤ
  direction : SignalDirection
deriving DecidableEq, Repr

structure BacktestResult where
  trades : List ExecutedTrade
  equityCurve : List EquityPoint
  unfilledSignals : List UnfilledSignal
  finalPosition : PositionView
deriving DecidableEq, Repr

/-- The keyword arguments of `run_backtest`. -/
structure BacktestParams where
  initialCapital : ℚ
  sizer : PositionSizer
  costRates : CostConfig
  segment : Segment := .delivery
  slippageBps : ℚ := 5

/-- `_Portfolio`. -/
structure Portfolio where
  cash : ℚ
  qty : ℤ := 0
  avgPrice : ℚ := 0
deriving DecidableEq, Repr

def Portfolio.equity (portfolio : Portfolio) (markPrice : ℚ) : ℚ :=
  portfolio.cash + portfolio.qty * markPrice

/-- `_Portfolio.as_view`. -/
def Portfolio.asView (portfolio : Portfolio) : PositionView :=
  if portfolio.qty = 0 then flatPosition else ⟨portfolio.qty, portfolio.avgPrice⟩

/-- `_resolve_action`: the side, and whether it closes. -/
def resolveAction (currentQty : ℤ) : SignalDirection → Option (Side × Bool)
  | .long => if currentQty = 0 then some (.buy, false) else none
  | .short => if currentQty = 0 then some (.sell, false) else none
  | .exit =>
      if 0 < currentQty then some (.sell, true)
      else if currentQty < 0 then some (.buy, true)
      else none

/-- `_clamp_to_cash`. -/
def clampToCash (fillPrice : ℚ) (segment : Segment) (rates : CostConfig) (cash : ℚ) :
    ℕ → Except PyError ℕ
  | 0 => .ok 0
  | qty + 1 =>
      match calculateCosts .buy fillPrice (qty + 1) segment rates with
      | .error raised => .error raised
      | .ok costs =>
          if costs.netAmount ≤ cash then .ok (qty + 1)
          else clampToCash fillPrice segment rates cash qty

/-- The quantity that a side moves a position by. -/
def signedQty (side : Side) (qty : ℕ) : ℤ := if side = .buy then qty else -qty

/-- `_open_or_add`. -/
def Portfolio.openOrAdd (portfolio : Portfolio) (side : Side) (qty : ℕ) (netAmount : ℚ) :
    Portfolio :=
  let costBasisPerShare := netAmount / qty
  let cash := if side = .sell then portfolio.cash + netAmount else portfolio.cash - netAmount
  if portfolio.qty = 0 then
    { cash, qty := signedQty side qty, avgPrice := costBasisPerShare }
  else
    let totalCost := portfolio.avgPrice * |portfolio.qty| + costBasisPerShare * qty
    let newQty := portfolio.qty + signedQty side qty
    { cash, qty := newQty, avgPrice := totalCost / |newQty| }

/-- The P&L that `_close` realizes. -/
def Portfolio.realized (portfolio : Portfolio) (side : Side) (qty : ℕ) (netAmount : ℚ) : ℚ :=
  if side = .sell then netAmount - portfolio.avgPrice * qty
  else portfolio.avgPrice * qty - netAmount

/-- `_close`: the position is emptied whatever the quantity of the leg. -/
def Portfolio.close (portfolio : Portfolio) (side : Side) (netAmount : ℚ) : Portfolio where
  cash := if side = .sell then portfolio.cash + netAmount else portfolio.cash - netAmount

/-- One executed leg. -/
structure Leg where
  side : Side
  qty : ℕ
  price : ℚ
  costs : TradeCosts
  realizedPnl : Option ℚ
deriving DecidableEq, Repr

/-- The quantity that a leg trades: only purchases are clamped. -/
def fillableQty (params : BacktestParams) (side : Side) (fillPrice cash : ℚ) (requested : ℕ) :
    Except PyError ℕ :=
  match side with
  | .buy => clampToCash fillPrice params.segment params.costRates cash requested
  | .sell => .ok requested

/-- The part of `_execute_signal` after the choice of the side and the quantity. -/
def Portfolio.fill (params : BacktestParams) (side : Side) (closing : Bool) (requested : ℕ)
    (rawPrice : ℚ) (portfolio : Portfolio) : Except PyError (Portfolio × Option Leg) :=
  if requested = 0 then pure (portfolio, none)
  else do
    let fillPrice := applySlippage rawPrice side params.slippageBps
    let qty ← fillableQty params side fillPrice portfolio.cash requested
    if qty = 0 then pure (portfolio, none)
    else do
      let costs ← calculateCosts side fillPrice qty params.segment params.costRates
      if closing then
        pure (portfolio.close side costs.netAmount,
          some ⟨side, qty, fillPrice, costs, some (portfolio.realized side qty costs.netAmount)⟩)
      else
        pure (portfolio.openOrAdd side qty costs.netAmount,
          some ⟨side, qty, fillPrice, costs, none⟩)

/-- The quantity that `_execute_signal` asks for. -/
def requestedQty (params : BacktestParams) (closing : Bool) (rawPrice : ℚ)
    (portfolio : Portfolio) : ℤ :=
  if closing then |portfolio.qty| else params.sizer (portfolio.equity rawPrice) rawPrice

/-- `_execute_signal`. -/
def executeSignal (params : BacktestParams) (signal : Signal) (signalIndex fillIndex : ℕ)
    (fillTs : ℤ) (rawOpenPrice : ℚ) (portfolio : Portfolio) :
    Except PyError (Portfolio × Option ExecutedTrade) :=
  match resolveAction portfolio.qty signal.direction with
  | none => pure (portfolio, none)
  | some (side, closing) => do
      let requested := requestedQty params closing rawOpenPrice portfolio
      let filled ← portfolio.fill params side closing requested.toNat rawOpenPrice
      pure (filled.1, filled.2.map fun leg =>
        { leg with index := fillIndex, ts := fillTs, signalIndex })

/-- The variables of the loop of `run_backtest`, and the memory of the strategy. -/
structure Replay (σ : Type) where
  portfolio : Portfolio
  trades : List ExecutedTrade := []
  equityCurve : List EquityPoint := []
  unfilled : List UnfilledSignal := []
  pending : Option (Signal × ℕ) := none
  memory : σ

/-- What the loop of `run_backtest` reads. -/
structure BacktestRun (σ : Type) where
  strategy : Strategy σ
  params : BacktestParams
  candles : List CandleRow
  series : SeriesByName
  effectiveStart : ℤ

variable {σ : Type}

/-- The fill of the pending signal at the open of a bar. -/
def Replay.executePending (params : BacktestParams) (bar : CandleRow × ℕ) (state : Replay σ) :
    Except PyError (Replay σ) :=
  match state.pending with
  | none => pure state
  | some (signal, signalIndex) => do
      let executed ← executeSignal params signal signalIndex bar.2 bar.1.ts bar.1.openPrice
        state.portfolio
      pure { state with
        portfolio := executed.1, trades := state.trades ++ executed.2.toList, pending := none }

/-- The equity point of a bar. -/
def Replay.mark (bar : CandleRow × ℕ) (state : Replay σ) : Replay σ :=
  { state with
    equityCurve := state.equityCurve ++ [
      { index := bar.2, ts := bar.1.ts, cash := state.portfolio.cash
        positionQty := state.portfolio.qty
        positionValue := state.portfolio.qty * bar.1.close
        equity := state.portfolio.equity bar.1.close }] }

namespace BacktestRun

/-- The context of a bar. -/
def context (run : BacktestRun σ) (bar : CandleRow × ℕ) (portfolio : Portfolio) :
    StrategyContext where
  index := bar.2
  ts := bar.1.ts
  candles := run.candles.take (bar.2 + 1)
  indicators := batchIndicatorView run.series bar.2
  position := portfolio.asView

/-- The call of the strategy at the close of a bar. -/
def consult (run : BacktestRun σ) (bar : CandleRow × ℕ) (state : Replay σ) :
    Except PyError (Replay σ) :=
  if (bar.2 : ℤ) < run.effectiveStart then pure state
  else do
    let decision ← run.strategy.onCandle (run.context bar state.portfolio) state.memory
    match decision.1 with
    | none => pure { state with memory := decision.2 }
    | some signal =>
        if bar.2 + 1 = run.candles.length then
          pure { state with
            memory := decision.2
            unfilled := state.unfilled ++ [⟨bar.2, bar.1.ts, signal.direction⟩] }
        else pure { state with memory := decision.2, pending := some (signal, bar.2) }

/-- One turn of the loop. -/
def bar (run : BacktestRun σ) (state : Replay σ) (bar : CandleRow × ℕ) :
    Except PyError (Replay σ) := do
  let executed ← state.executePending run.params bar
  run.consult bar (executed.mark bar)

/-- The loop over some bars. -/
def replay (run : BacktestRun σ) (state : Replay σ) (bars : List (CandleRow × ℕ)) :
    Except PyError (Replay σ) :=
  bars.foldlM run.bar state

/-- The variables before the first bar. -/
def initial (run : BacktestRun σ) (memory : σ) : Replay σ where
  portfolio := { cash := run.params.initialCapital }
  memory := memory

/-- What `run_backtest` does before its loop. -/
def start (sqrt : ℚ → ℚ) (strategy : Strategy σ) (candles : List CandleRow)
    (params : BacktestParams) : Except PyError (BacktestRun σ) :=
  if candles = [] then .error (.backtestError "cannot backtest an empty candle series")
  else if params.initialCapital ≤ 0 then
    .error (.backtestError "initial_capital must be > 0")
  else do
    let series ← computeIndicatorSet sqrt candles strategy.requiredIndicators ∅
    pure ⟨strategy, params, candles, series,
      max strategy.warmupBars (firstAllValidIndex series)⟩

end BacktestRun

/-- `run_backtest`, with the memory that the strategy ends with. -/
def runBacktest (sqrt : ℚ → ℚ) (strategy : Strategy σ) (memory : σ) (candles : List CandleRow)
    (params : BacktestParams) : Except PyError (BacktestResult × σ) := do
  let run ← BacktestRun.start sqrt strategy candles params
  let final ← run.replay (run.initial memory) candles.zipIdx
  pure (⟨final.trades, final.equityCurve, final.unfilled, final.portfolio.asView⟩, final.memory)

end PersonalTrade
