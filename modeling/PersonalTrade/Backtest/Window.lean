import PersonalTrade.Backtest.Conservation
import PersonalTrade.Backtest.Symbols

/-!
# The window of a backtest

The dates of a backtest are read as UTC days, and the candles belong to trading days
of IST. The two windows are the same but for the evenings before their first and on
their last day.
-/

namespace PersonalTrade

/-- The candle is stamped in the evening before the first or on the last UTC day: the
window of UTC days leaves it out although it is of the first trading day, or takes it although
it is of the trading day after the last. -/
def CandleRow.Misplaced (fromDate toDate : ℤ) (row : CandleRow) : Prop :=
  rolloverMs ≤ row.ts % dayMs ∧ (utcDate row.ts = fromDate - 1 ∨ utcDate row.ts = toDate)

instance (fromDate toDate : ℤ) (row : CandleRow) : Decidable (row.Misplaced fromDate toDate) :=
  inferInstanceAs (Decidable (_ ∧ _))

/-- The two windows part exactly on the misplaced candles. -/
theorem CandleRow.misplaced_iff {fromDate toDate : ℤ} (ordered : fromDate ≤ toDate)
    (row : CandleRow) : row.Misplaced fromDate toDate ↔
      ¬ ((fromDate ≤ utcDate row.ts ∧ utcDate row.ts ≤ toDate) ↔
        (fromDate ≤ istTradingDate row.ts ∧ istTradingDate row.ts ≤ toDate)) := by
  rw [Misplaced, istTradingDate_eq]
  split_ifs <;> omega

namespace BacktestSetup

variable {setup : BacktestSetup} {fromDate toDate : ℤ} {symbol : String}

/-- The stored candles of a symbol whose trading date is in the requested range. -/
def tradingCandles (setup : BacktestSetup) (fromDate toDate : ℤ) (symbol : String) :
    List CandleRow :=
  sortByTs ((setup.dataset symbol).rows.filter fun row =>
    fromDate ≤ istTradingDate row.ts ∧ istTradingDate row.ts ≤ toDate)

theorem mem_tradingCandles {row : CandleRow} :
    row ∈ setup.tradingCandles fromDate toDate symbol ↔ row ∈ (setup.dataset symbol).rows ∧
      fromDate ≤ istTradingDate row.ts ∧ istTradingDate row.ts ≤ toDate := by
  simp [tradingCandles, mem_sortByTs]

/-- The candles that are read are those of the requested trading dates unless one of the stored
ones is misplaced. -/
theorem rangeCandles_eq_iff (ordered : fromDate ≤ toDate) :
    setup.rangeCandles fromDate toDate symbol = setup.tradingCandles fromDate toDate symbol ↔
      ∀ row ∈ (setup.dataset symbol).rows, ¬ row.Misplaced fromDate toDate := by
  constructor
  · intro same row stored misplaced
    apply (row.misplaced_iff ordered).mp misplaced
    have members : row ∈ setup.rangeCandles fromDate toDate symbol ↔ _ := mem_rangeCandles
    rw [same, mem_tradingCandles] at members
    simp only [stored, true_and] at members
    exact members.symm
  · intro placed
    rw [rangeCandles, Dataset.read_eq, tradingCandles]
    congr 1
    apply List.filter_congr
    intro row stored
    have agree := not_not.mp (mt (row.misplaced_iff ordered).mpr (placed row stored))
    rw [Bool.eq_iff_iff]
    simpa [dayStart_le_iff, le_dayEnd_iff] using agree

end BacktestSetup

/-- A backtest replays exactly the stored candles of the requested trading dates if and only if
no stored candle is misplaced. -/
theorem runBacktestForSymbols_window_iff {σ : Type} (sqrt : ℚ → ℚ) (setup : BacktestSetup)
    (strategy : FreshStrategy σ) {fromDate toDate : ℤ} (ordered : fromDate ≤ toDate) :
    (∀ symbol, setup.rangeCandles fromDate toDate symbol =
        setup.tradingCandles fromDate toDate symbol ↔
      ∀ row ∈ (setup.dataset symbol).rows, ¬ row.Misplaced fromDate toDate) ∧
    ∀ results, runBacktestForSymbols sqrt setup strategy fromDate toDate = .ok results →
      List.Forall₂ (setup.Replays sqrt strategy fromDate toDate) setup.symbols results ∧
      ((∀ result ∈ results,
          result.candles = setup.tradingCandles fromDate toDate result.symbol) ↔
        ∀ symbol ∈ setup.symbols, ∀ row ∈ (setup.dataset symbol).rows,
          ¬ row.Misplaced fromDate toDate) := by
  refine ⟨fun symbol => BacktestSetup.rangeCandles_eq_iff ordered, fun results ran => ?_⟩
  have replays := BacktestSetup.replays_of_ran ran
  refine ⟨replays, ?_, ?_⟩
  · intro requested symbol mem
    rcases (exists_of_forall₂ replays).1 symbol mem with ⟨result, resultMem, replay⟩
    apply (BacktestSetup.rangeCandles_eq_iff ordered).mp
    rw [← replay.candles, requested result resultMem, replay.own]
  · intro placed result resultMem
    rcases (exists_of_forall₂ replays).2 result resultMem with ⟨symbol, mem, replay⟩
    rw [replay.candles, replay.own]
    exact (BacktestSetup.rangeCandles_eq_iff ordered).mpr (placed symbol mem)

/-- The daily candle of a trading date, stamped at midnight in IST. -/
def dailyBar (date : ℤ) (price : ℚ) : CandleRow := flatBar (dayStart date - istOffsetMs) price

/-- A strategy that never trades. -/
def idleStrategy : FreshStrategy Unit where
  strategy :=
    { warmupBars := 0
      requiredIndicators := []
      distinct := List.nodup_nil
      onCandle _ memory := pure (none, memory) }
  fresh := ()

/-- Three daily candles of one symbol, of the trading dates 11, 12 and 13. -/
def dailySetup : BacktestSetup where
  instruments := [⟨⟨1, "ACME", "K", 1⟩, "NSE"⟩]
  candleStore _ := Dataset.missing.write [dailyBar 11 100, dailyBar 12 101, dailyBar 13 102]
  symbols := ["ACME"]
  interval := .d1
  initialCapital := 1000
  riskPerTradePct := 10
  costRates := default
  backtestCfg := default

/-- The candles that the symbols of a run replayed. -/
def replayedCandles (run : Except PyError (List SymbolResult)) : Option (List (List CandleRow)) :=
  run.toOption.map (·.map SymbolResult.candles)

theorem ran_of_replayedCandles {run : Except PyError (List SymbolResult)}
    {candles : List (List CandleRow)} (replayed : replayedCandles run = some candles) :
    ∃ results, run = .ok results ∧ results.map SymbolResult.candles = candles :=
  exists_of_toOption _ replayed

theorem runBacktestForSymbols_window_iff_sample :
    ∃ results, runBacktestForSymbols id dailySetup idleStrategy 5 20 = .ok results ∧
      ∀ result ∈ results, result.candles = dailySetup.tradingCandles 5 20 result.symbol := by
  have replayed : replayedCandles (runBacktestForSymbols id dailySetup idleStrategy 5 20) =
      some [[dailyBar 11 100, dailyBar 12 101, dailyBar 13 102]] := by decide +kernel
  rcases ran_of_replayedCandles replayed with ⟨results, ran, _⟩
  have window := runBacktestForSymbols_window_iff id dailySetup idleStrategy
    (show (5 : ℤ) ≤ 20 by decide)
  refine ⟨results, ran, (window.2 results ran).2.mpr ?_⟩
  intro symbol _
  change ∀ row ∈ (Dataset.missing.write _).rows, _
  decide +kernel

/-- A backtest of one trading date replays the candle of the next one. -/
theorem dailyCandles_shift :
    ∃ results, runBacktestForSymbols id dailySetup idleStrategy 12 12 = .ok results ∧
      results.map SymbolResult.candles = [[dailyBar 13 102]] ∧
      dailySetup.tradingCandles 12 12 "ACME" = [dailyBar 12 101] := by
  have replayed : replayedCandles (runBacktestForSymbols id dailySetup idleStrategy 12 12) =
      some [[dailyBar 13 102]] := by decide +kernel
  rcases ran_of_replayedCandles replayed with ⟨results, ran, candles⟩
  exact ⟨results, ran, candles, by decide +kernel⟩

end PersonalTrade
