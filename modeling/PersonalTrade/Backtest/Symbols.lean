import PersonalTrade.Backtest.Engine
import PersonalTrade.Data.CandleStore
import PersonalTrade.Store.Repos

/-!
# Backtests of several symbols

`backtest/run.py`: the candles of each symbol are read from the store between two
dates and replayed on their own, with an equal share of the capital and a fresh clone
of the strategy. The metrics and the rows of the run are not modelled.
-/

namespace PersonalTrade

/-- The constructor of `FixedFractionalSizer`. -/
def FixedFractionalSizer.create (riskPerTradePct : ℚ) : Except PyError FixedFractionalSizer :=
  if valid : 0 < riskPerTradePct ∧ riskPerTradePct ≤ 100 then
    .ok ⟨riskPerTradePct, valid.1, valid.2⟩
  else .error (.valueError "risk_per_trade_pct must be in (0, 100]" riskPerTradePct)

/-- The arguments of `run_backtest_for_symbols`, without the strategy and the dates. -/
structure BacktestSetup where
  instruments : List ListedInstrument
  candleStore : CandleStore
  symbols : List String
  interval : Interval
  initialCapital : ℚ
  riskPerTradePct : ℚ
  costRates : CostConfig
  backtestCfg : BacktestConfig
  exchange : String := "NSE"

/-- `SymbolResult`, with the entry of `symbol_frames` in place of the metrics. -/
structure SymbolResult where
  symbol : String
  instrumentId : ℕ
  candles : List CandleRow
  result : BacktestResult

variable {σ : Type}

namespace BacktestSetup

/-- What is stored for a symbol. -/
def dataset (setup : BacktestSetup) (symbol : String) : Dataset :=
  setup.candleStore ⟨symbol, setup.exchange, setup.interval⟩

/-- The candles read for a symbol, from `range_start` to `range_end`. -/
def rangeCandles (setup : BacktestSetup) (fromDate toDate : ℤ) (symbol : String) :
    List CandleRow :=
  (setup.dataset symbol).read (some (dayStart fromDate)) (some (dayEnd toDate))

/-- The keyword arguments of `run_backtest` for one symbol. -/
def params (setup : BacktestSetup) (sizer : FixedFractionalSizer) : BacktestParams where
  initialCapital := setup.initialCapital / setup.symbols.length
  sizer := sizer.size
  costRates := setup.costRates
  segment := setup.backtestCfg.defaultSegment
  slippageBps := setup.backtestCfg.slippageBps

/-- One turn of the loop over the symbols. -/
def runSymbol (sqrt : ℚ → ℚ) (setup : BacktestSetup) (strategy : FreshStrategy σ)
    (sizer : FixedFractionalSizer) (fromDate toDate : ℤ) (symbol : String) :
    Except PyError SymbolResult :=
  match getBySymbol setup.instruments symbol setup.exchange with
  | none => .error (.noDataForSymbol (.notListed symbol setup.exchange))
  | some instrument =>
      let candles := setup.rangeCandles fromDate toDate symbol
      if candles = [] then
        .error (.noDataForSymbol (.noCandles setup.interval symbol fromDate toDate))
      else do
        let ran ← runBacktest sqrt strategy.strategy strategy.fresh candles (setup.params sizer)
        pure ⟨symbol, instrument.id, candles, ran.1⟩

end BacktestSetup

/-- `run_backtest_for_symbols`. -/
def runBacktestForSymbols (sqrt : ℚ → ℚ) (setup : BacktestSetup) (strategy : FreshStrategy σ)
    (fromDate toDate : ℤ) : Except PyError (List SymbolResult) :=
  if setup.symbols = [] then .error (.noDataForSymbol .noSymbols)
  else do
    let sizer ← FixedFractionalSizer.create setup.riskPerTradePct
    setup.symbols.mapM (setup.runSymbol sqrt strategy sizer fromDate toDate)

namespace BacktestSetup

variable {setup : BacktestSetup} {fromDate toDate : ℤ} {symbol : String}

theorem mem_rangeCandles {row : CandleRow} : row ∈ setup.rangeCandles fromDate toDate symbol ↔
    row ∈ (setup.dataset symbol).rows ∧
      fromDate ≤ utcDate row.ts ∧ utcDate row.ts ≤ toDate := by
  simp [rangeCandles, Dataset.read_eq, mem_sortByTs, dayStart_le_iff, le_dayEnd_iff]

/-- What a turn of the loop replays. -/
structure Replays (sqrt : ℚ → ℚ) (setup : BacktestSetup) (strategy : FreshStrategy σ)
    (fromDate toDate : ℤ) (symbol : String) (result : SymbolResult) : Prop where
  own : result.symbol = symbol
  candles : result.candles = setup.rangeCandles fromDate toDate symbol
  replayed : ∃ params memory, runBacktest sqrt strategy.strategy strategy.fresh result.candles
    params = .ok (result.result, memory)

theorem replays_of_runSymbol {sqrt : ℚ → ℚ} {strategy : FreshStrategy σ}
    {sizer : FixedFractionalSizer} {result : SymbolResult}
    (ran : setup.runSymbol sqrt strategy sizer fromDate toDate symbol = .ok result) :
    setup.Replays sqrt strategy fromDate toDate symbol result := by
  rw [runSymbol] at ran
  split at ran
  · cases ran
  · by_cases empty : setup.rangeCandles fromDate toDate symbol = []
    · rw [if_pos empty] at ran
      cases ran
    · rw [if_neg empty] at ran
      rcases except_bind_eq_ok.mp ran with ⟨⟨backtest, memory⟩, replayed, made⟩
      cases made
      exact ⟨rfl, rfl, _, memory, replayed⟩

theorem replays_of_ran {sqrt : ℚ → ℚ} {strategy : FreshStrategy σ} {results : List SymbolResult}
    (ran : runBacktestForSymbols sqrt setup strategy fromDate toDate = .ok results) :
    List.Forall₂ (setup.Replays sqrt strategy fromDate toDate) setup.symbols results := by
  rw [runBacktestForSymbols] at ran
  by_cases empty : setup.symbols = []
  · rw [if_pos empty] at ran
    cases ran
  · rw [if_neg empty] at ran
    rcases except_bind_eq_ok.mp ran with ⟨sizer, _, mapped⟩
    exact (forall₂_of_mapM mapped).imp fun _ _ => replays_of_runSymbol

end BacktestSetup

end PersonalTrade
