import PersonalTrade.Indicators.Causality
import PersonalTrade.Library.WarmUp
import PersonalTrade.Strategy.Base

/-!
# Warm-up of the indicators

How many bars an indicator with a streaming state waits for its first value. None of
its columns waits longer, and one of them waits as long.
-/

namespace PersonalTrade

/-- The bars before every column of an indicator is available. -/
def IndicatorSpec.lag : IndicatorSpec → ℕ
  | .sma period | .ema period | .atr period | .bollinger period _ => (period - 1).toNat
  | .rsi period => period.toNat
  | .macd _ slow signal => (slow + signal - 2).toNat
  | .vwap | .obv | .supertrend _ _ | .trueRange | .other _ => 0

theorem warmsUp_rsiSeries {period : ℕ} (positive : 0 < period) (close : List ℚ) :
    WarmsUp period (rsiSeries period close) := by
  have averages := (WarmsUp.seeded positive rsiSeed (rsiStep period) (gainsLosses close)).map
    fun averages => rsiValue averages.1 averages.2
  -- the first close has no change before it
  have later := (WarmsUp.cons_succ.mpr ⟨rfl, averages⟩).take close.length
  rwa [Nat.sub_add_cancel positive] at later

theorem warmsUp_columnwise {lag lag' : ℕ} {left right : Series} (op : ℚ → ℚ → ℚ)
    (warmsLeft : WarmsUp lag left) (warmsRight : WarmsUp lag' right) :
    WarmsUp (max lag lag') (columnwise op left right) := warmsLeft.zipWith warmsRight op

/-- The columns of a MACD wait for the slow line, and two of them also for the signal line. -/
theorem warmsUp_macdColumns {fast slow signal : ℕ} (fastPos : 0 < fast) (order : fast < slow)
    (signalPos : 0 < signal) (close : List ℚ) :
    WarmsUp (slow - 1) (macdColumns fast slow signal close).macd ∧
      WarmsUp (slow + signal - 2) (macdColumns fast slow signal close).signal ∧
      WarmsUp (slow + signal - 2) (macdColumns fast slow signal close).hist := by
  have line := warmsUp_columnwise (· - ·) (WarmsUp.seeded fastPos mean (emaStep fast) close)
    (WarmsUp.seeded (show 0 < slow by omega) mean (emaStep slow) close)
  rw [show max (fast - 1) (slow - 1) = slow - 1 by omega] at line
  have smoothed := WarmsUp.seeded signalPos mean (emaStep signal)
    (columnwise (· - ·) (emaSeries fast close) (emaSeries slow close)).reduceOption
  have signalLine := line.onAvailable smoothed (length_seeded signalPos _)
  rw [show slow - 1 + (signal - 1) = slow + signal - 2 by omega] at signalLine
  have hist := warmsUp_columnwise (· - ·) line signalLine
  rw [show max (slow - 1) (slow + signal - 2) = slow + signal - 2 by omega] at hist
  exact ⟨line, signalLine, hist⟩

theorem warmsUp_bollingerColumns (sqrt : ℚ → ℚ) {period : ℕ} (positive : 0 < period) (numStd : ℚ)
    {column : BollingerFrame → Series} (mem : column ∈ bollingerFields.map Prod.snd)
    (close : List ℚ) :
    WarmsUp (period - 1) (column (bollingerColumns sqrt period numStd close)) := by
  have middle := WarmsUp.rolling positive mean close
  have band := (WarmsUp.rolling positive (fun window => sqrt (variance window)) close).map
    (numStd * ·)
  simp only [bollingerFields, List.map_cons, List.map_nil, List.mem_cons, List.not_mem_nil,
    or_false] at mem
  rcases mem with rfl | rfl | rfl
  · exact middle
  · have upper := warmsUp_columnwise (· + ·) middle band
    rwa [max_self] at upper
  · have lower := warmsUp_columnwise (· - ·) middle band
    rwa [max_self] at lower

end PersonalTrade
