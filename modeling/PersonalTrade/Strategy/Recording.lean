import PersonalTrade.Strategy.Base

/-!
# The calls of a strategy

A strategy that also remembers how it was called decides the same; its memory then
tells what a driver presented to it.
-/

namespace PersonalTrade

/-- A call of `on_candle`: the context, the memory before it, and what it returned. -/
structure Call (σ : Type) where
  context : StrategyContext
  before : σ
  signal : Option Signal

variable {σ : Type}

/-- The strategy with a record of its calls. -/
def Strategy.recording (strategy : Strategy σ) : Strategy (σ × List (Call σ)) where
  warmupBars := strategy.warmupBars
  requiredIndicators := strategy.requiredIndicators
  distinct := strategy.distinct
  onCandle context memory := do
    let decision ← strategy.onCandle context memory.1
    pure (decision.1, decision.2, memory.2 ++ [⟨context, memory.1, decision.1⟩])

/-- The signal that the strategy returned at a bar, none when it was not called. -/
def signalAt (calls : List (Call σ)) (index : ℕ) : Option Signal :=
  (calls.find? fun call => call.context.index = index).bind Call.signal

end PersonalTrade
