import PersonalTrade.Backtest.IndicatorBridge
import PersonalTrade.Strategy.Base

/-!
# Screener

`intelligence/recommendation/screener.py`: a strategy is called on the last candle of
a frame only.
-/

namespace PersonalTrade

variable {σ : Type}

/-- The context of the last candle of a frame, none during the warm-up. -/
def latestContext (sqrt : ℚ → ℚ) (strategy : Strategy σ) (candles : List CandleRow)
    (position : PositionView) : Except PyError (Option StrategyContext) :=
  match candles.getLast? with
  | none => pure none
  | some last => do
      let index := candles.length - 1
      let series ← computeIndicatorSet sqrt candles strategy.requiredIndicators ∅
      if (index : ℤ) < max strategy.warmupBars (firstAllValidIndex series) then pure none
      else
        pure (some
          { index
            ts := last.ts
            candles := candles.take (index + 1)
            indicators := batchIndicatorView series index
            position })

/-- `latest_signal`, with the memory that the strategy is left with. -/
def latestSignal (sqrt : ℚ → ℚ) (strategy : Strategy σ) (candles : List CandleRow)
    (position : PositionView) (memory : σ) : Except PyError (Option Signal × σ) := do
  let context ← latestContext sqrt strategy candles position
  match context with
  | none => pure (none, memory)
  | some context => strategy.onCandle context memory

end PersonalTrade
