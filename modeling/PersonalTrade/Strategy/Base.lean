import PersonalTrade.Indicators.Batch

/-!
# Strategy contract

`strategy/base.py`. A strategy is deterministic: its decision is a function of the
context of a bar and of what it remembers, and it can raise. The dictionary of
declared indicators is the list of its items.
-/

namespace PersonalTrade

/-- A value in the context of a signal. -/
inductive ContextValue where
  | number (value : ℚ)
  | text (value : String)
deriving DecidableEq, Repr

/-- `Signal`, what a strategy decides at one bar. -/
structure Signal where
  direction : SignalDirection
  refPrice : ℚ
  context : List (String × ContextValue) := []
deriving DecidableEq, Repr

/-- `IndicatorSpec`: a kind of the dispatch table with its parameters, or another one. -/
inductive IndicatorSpec where
  | sma (period : ℤ)
  | ema (period : ℤ)
  | rsi (period : ℤ := 14)
  | atr (period : ℤ := 14)
  | macd (fast : ℤ := 12) (slow : ℤ := 26) (signal : ℤ := 9)
  | bollinger (period : ℤ := 20) (numStd : ℚ := 2)
  | vwap
  | obv
  | supertrend (period : ℤ := 10) (multiplier : ℚ := 3)
  | trueRange
  | other (kind : String)
deriving DecidableEq, Repr

/-- `IndicatorView`: the indicators as of one bar. -/
structure IndicatorView where
  value : String → Except PyError (Option ℚ)
  window : String → ℤ → Except PyError (List ℚ)

structure PositionView where
  qty : ℤ
  avgPrice : ℚ
deriving DecidableEq, Repr

/-- `FLAT_POSITION`. -/
def flatPosition : PositionView := ⟨0, 0⟩

structure StrategyContext where
  index : ℕ
  ts : ℤ
  candles : List CandleRow
  indicators : IndicatorView
  position : PositionView

/-- `Strategy`, with its memory of type `σ`. -/
structure Strategy (σ : Type) where
  warmupBars : ℤ
  requiredIndicators : List (String × IndicatorSpec)
  distinct : (requiredIndicators.map Prod.fst).Nodup
  onCandle : StrategyContext → σ → Except PyError (Option Signal × σ)

/-- A strategy with the memory of a fresh clone. -/
structure FreshStrategy (σ : Type) where
  strategy : Strategy σ
  fresh : σ

end PersonalTrade
