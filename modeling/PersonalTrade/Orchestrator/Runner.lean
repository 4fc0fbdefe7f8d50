import PersonalTrade.Data.CandleFrame
import PersonalTrade.Data.Feed
import PersonalTrade.Orchestrator.IndicatorBridge

/-!
# Live runner

`orchestrator/runner.py` and `orchestrator/candle_buffer.py`: one strategy is driven by
the candles of one subscription.
-/

namespace PersonalTrade

/-- The row that `LiveCandleBuffer.append` makes of a candle. -/
def CandleReceived.row (candle : CandleReceived) : CandleRow where
  ts := candle.ts
  openPrice := candle.openPrice
  high := candle.high
  low := candle.low
  close := candle.close
  volume := candle.volume
  oi := 0

/-- `LiveCandleBuffer`, the rows in the order of their arrival. -/
abbrev LiveCandleBuffer := List CandleRow

def LiveCandleBuffer.frame (rows : LiveCandleBuffer) : List CandleRow :=
  if rows = [] then [] else normalizeCandleFrame rows

/-- `LiveStrategyRunner`, with the memory of its strategy. -/
structure LiveStrategyRunner (σ : Type) where
  strategy : Strategy σ
  buffer : LiveCandleBuffer := []
  indicators : LiveIndicatorView
  barCount : ℕ := 0
  memory : σ

namespace LiveStrategyRunner

variable {σ : Type}

/-- `__init__`. -/
def new (strategy : Strategy σ) (memory : σ) : Except PyError (LiveStrategyRunner σ) := do
  let indicators ← LiveIndicatorView.new strategy.requiredIndicators
  pure { strategy, indicators, memory }

/-- What `on_candle` does before the gates of the warm-up. -/
def receive (sqrt : ℚ → ℚ) (runner : LiveStrategyRunner σ) (candle : CandleReceived) :
    LiveStrategyRunner σ :=
  { runner with
    buffer := runner.buffer ++ [candle.row]
    indicators := runner.indicators.update sqrt candle.row
    barCount := runner.barCount + 1 }

/-- The context after a candle. -/
def context (runner : LiveStrategyRunner σ) (candle : CandleReceived) (position : PositionView) :
    StrategyContext where
  index := runner.barCount - 1
  ts := candle.ts
  candles := runner.buffer.frame
  indicators := runner.indicators.indicatorView
  position := position

/-- `on_candle`. -/
def onCandle (sqrt : ℚ → ℚ) (runner : LiveStrategyRunner σ) (candle : CandleReceived)
    (position : PositionView) : Except PyError (Option Signal × LiveStrategyRunner σ) :=
  let received := runner.receive sqrt candle
  if (received.barCount : ℤ) < received.strategy.warmupBars then pure (none, received)
  else if received.indicators.allWarm = false then pure (none, received)
  else do
    let decision ← received.strategy.onCandle (received.context candle position) received.memory
    pure (decision.1, { received with memory := decision.2 })

/-- Candles fed one by one, each with the position that the caller has fetched for it. -/
def feed (sqrt : ℚ → ℚ) (runner : LiveStrategyRunner σ)
    (candles : List (CandleReceived × PositionView)) : Except PyError (LiveStrategyRunner σ) :=
  candles.foldlM (fun runner candle => do
    let decision ← runner.onCandle sqrt candle.1 candle.2
    pure decision.2) runner

/-- A new runner fed some candles. -/
def run (sqrt : ℚ → ℚ) (strategy : Strategy σ) (memory : σ)
    (candles : List (CandleReceived × PositionView)) : Except PyError (LiveStrategyRunner σ) := do
  let runner ← new strategy memory
  runner.feed sqrt candles

end LiveStrategyRunner

end PersonalTrade
