import PersonalTrade.Core.Enums
import PersonalTrade.Library.Scan

/-!
# Batch indicators

`indicators/batch.py` over exact rationals. A candle frame is the list of its rows,
a series the list of its values, and `none` is NaN. The functions of several columns
take the frame that the columns belong to. The square root of the Bollinger bands
is a parameter.
-/

namespace PersonalTrade

/-- One row of a candle frame; `ts` counts milliseconds in UTC. -/
structure CandleRow where
  ts : ℤ
  openPrice : ℚ
  high : ℚ
  low : ℚ
  close : ℚ
  volume : ℤ
  oi : ℤ
deriving DecidableEq, Repr

/-- A float column in which `none` is NaN. -/
abbrev Series := List (Option ℚ)

/-- `_require_period`. -/
def requirePeriod (period : ℤ) (minimum : ℤ := 1) : Except PyError Unit :=
  if period < minimum then
    .error (.valueError ("period must be >= " ++ toString minimum) period)
  else .ok ()

/-- The arithmetic mean. -/
def mean (values : List ℚ) : ℚ := values.sum / values.length

/-- The population variance. -/
def variance (values : List ℚ) : ℚ :=
  mean (values.map fun value => (value - mean values) ^ 2)

/-- `Series.shift(1)`. -/
def shift (values : List ℚ) : Series := (none :: values.map some).take values.length

/-- `Series.cumsum()`. -/
def cumsum (values : List ℚ) : List ℚ := perPrefix List.sum values

/-- A binary operation on columns in which NaN is contagious. -/
def columnwise (op : ℚ → ℚ → ℚ) (left right : Series) : Series :=
  List.zipWith (Option.map₂ op) left right

def sma (close : List ℚ) (period : ℤ) : Except PyError Series := do
  requirePeriod period
  pure (rolling period.toNat mean close)

/-- The smoothing factor of an EMA. -/
def emaAlpha (period : ℕ) : ℚ := 2 / (period + 1)

/-- One step of an EMA. -/
def emaStep (period : ℕ) (before value : ℚ) : ℚ :=
  emaAlpha period * value + (1 - emaAlpha period) * before

/-- The loop of `ema` for a valid period. -/
def emaSeries (period : ℕ) (values : List ℚ) : Series :=
  seeded period mean (emaStep period) values

def ema (close : List ℚ) (period : ℤ) : Except PyError Series := do
  requirePeriod period
  pure (emaSeries period.toNat close)

/-- One step of Wilder's smoothing. -/
def wilder (period : ℕ) (before value : ℚ) : ℚ := (before * (period - 1) + value) / period

/-- `_rsi_value`. -/
def rsiValue (avgGain avgLoss : ℚ) : ℚ :=
  if avgLoss = 0 then if 0 < avgGain then 100 else 50
  else 100 - 100 / (1 + avgGain / avgLoss)

/-- The gain and the loss of one change of price. -/
def gainLoss (delta : ℚ) : ℚ × ℚ := (max delta 0, max (-delta) 0)

/-- `np.diff`, split into gains and losses. -/
def gainsLosses (values : List ℚ) : List (ℚ × ℚ) :=
  List.zipWith (fun before value => gainLoss (value - before)) values values.tail

/-- The two seeds of an RSI. -/
def rsiSeed (changes : List (ℚ × ℚ)) : ℚ × ℚ :=
  (mean (changes.map Prod.fst), mean (changes.map Prod.snd))

/-- One step of the two averages of an RSI. -/
def rsiStep (period : ℕ) (averages change : ℚ × ℚ) : ℚ × ℚ :=
  (wilder period averages.1 change.1, wilder period averages.2 change.2)

/-- The loop of `rsi` for a valid period; the first close has no change. -/
def rsiSeries (period : ℕ) (values : List ℚ) : Series :=
  (none :: (seeded period rsiSeed (rsiStep period) (gainsLosses values)).map
    (Option.map fun averages => rsiValue averages.1 averages.2)).take values.length

def rsi (close : List ℚ) (period : ℤ := 14) : Except PyError Series := do
  requirePeriod period
  pure (rsiSeries period.toNat close)

/-- The columns of `macd`. -/
structure MACDFrame where
  macd : Series
  signal : Series
  hist : Series

/-- The error of a MACD whose fast line is not the faster one. -/
def macdOrderError (fast slow : ℤ) : PyError :=
  .valueError ("fast (" ++ toString fast ++ ") must be < slow (" ++ toString slow ++ ")") fast

/-- `macd`; a segment without valid values leaves the signal line unavailable. -/
def macd (close : List ℚ) (fast : ℤ := 12) (slow : ℤ := 26) (signal : ℤ := 9) :
    Except PyError MACDFrame :=
  if fast < slow then do
    requirePeriod signal
    let fastLine ← ema close fast
    let slowLine ← ema close slow
    let macdLine := columnwise (· - ·) fastLine slowLine
    let smoothed ← ema macdLine.reduceOption signal
    let signalLine := onAvailable macdLine smoothed
    pure ⟨macdLine, signalLine, columnwise (· - ·) macdLine signalLine⟩
  else .error (macdOrderError fast slow)

/-- The columns of `bollinger`. -/
structure BollingerFrame where
  middle : Series
  upper : Series
  lower : Series

def bollinger (sqrt : ℚ → ℚ) (close : List ℚ) (period : ℤ := 20) (numStd : ℚ := 2) :
    Except PyError BollingerFrame := do
  requirePeriod period 2
  let middle := rolling period.toNat mean close
  let std := rolling period.toNat (fun window => sqrt (variance window)) close
  let band := std.map (Option.map (numStd * ·))
  pure ⟨middle, columnwise (· + ·) middle band, columnwise (· - ·) middle band⟩

/-- The true range of a candle, given the close before it. -/
def trueRangeOf (prevClose : Option ℚ) (high low : ℚ) : ℚ :=
  match prevClose with
  | none => high - low
  | some prevClose => max (max (high - low) |high - prevClose|) |low - prevClose|

/-- `true_range`. -/
def trueRange (frame : List CandleRow) : List ℚ :=
  List.zipWith (fun prevClose candle => trueRangeOf prevClose candle.high candle.low)
    (shift (frame.map CandleRow.close)) frame

/-- The loop of `atr` for a valid period. -/
def atrSeries (period : ℕ) (frame : List CandleRow) : Series :=
  seeded period mean (wilder period) (trueRange frame)

def atr (frame : List CandleRow) (period : ℤ := 14) : Except PyError Series := do
  requirePeriod period
  pure (atrSeries period.toNat frame)

/-- The IST calendar date of an instant, counted in days. -/
def session (ts : ℤ) : ℤ := (ts + 19800000) / 86400000

/-- `groupby(session).cumsum()` of a column. -/
def sessionCumsum (column : CandleRow → ℚ) (frame : List CandleRow) : List ℚ :=
  perPrefix (fun seen => ((seen.filter fun candle =>
    (seen.getLast?.map fun last => session last.ts) = some (session candle.ts)).map column).sum)
    frame

/-- The typical price of a candle. -/
def typical (candle : CandleRow) : ℚ := (candle.high + candle.low + candle.close) / 3

/-- `vwap`; a session without volume has none. -/
def vwap (frame : List CandleRow) : Series :=
  List.zipWith (fun pv cumVol => if cumVol = 0 then none else some (pv / cumVol))
    (sessionCumsum (fun candle => typical candle * candle.volume) frame)
    (sessionCumsum (fun candle => candle.volume) frame)

def obv (frame : List CandleRow) : List ℚ :=
  cumsum (List.zipWith (fun prevClose candle =>
    (SignType.sign ((prevClose.map (candle.close - ·)).getD 0) : ℚ) * candle.volume)
    (shift (frame.map CandleRow.close)) frame)

/-- What the loop of `supertrend` carries to the next candle. -/
structure SupertrendBands where
  finalUpper : ℚ
  finalLower : ℚ
  direction : ℤ

/-- The value of the band on the side of the trend. -/
def SupertrendBands.value (bands : SupertrendBands) : ℚ :=
  if bands.direction = 1 then bands.finalLower else bands.finalUpper

/-- The middle of a candle. -/
def midPrice (candle : CandleRow) : ℚ := (candle.high + candle.low) / 2

/-- The first candle with an ATR. -/
def supertrendStart (multiplier : ℚ) (candle : CandleRow) (atrValue : ℚ) : SupertrendBands where
  finalUpper := midPrice candle + multiplier * atrValue
  finalLower := midPrice candle - multiplier * atrValue
  direction := if midPrice candle < candle.close then 1 else -1

/-- A later candle. -/
def supertrendStep (multiplier : ℚ) (bands : SupertrendBands) (prevClose : ℚ)
    (candle : CandleRow) (atrValue : ℚ) : SupertrendBands :=
  let upperBasic := midPrice candle + multiplier * atrValue
  let lowerBasic := midPrice candle - multiplier * atrValue
  let finalUpper :=
    if prevClose ≤ bands.finalUpper then min upperBasic bands.finalUpper else upperBasic
  let finalLower :=
    if bands.finalLower ≤ prevClose then max lowerBasic bands.finalLower else lowerBasic
  let direction :=
    if bands.direction = -1 then if finalUpper < candle.close then 1 else -1
    else if candle.close < finalLower then -1 else 1
  ⟨finalUpper, finalLower, direction⟩

/-- One turn of the loop of `supertrend`: nothing before the ATR is available. -/
def supertrendTurn (multiplier : ℚ) (state : Option SupertrendBands × ℚ)
    (row : CandleRow × Option ℚ) :
    (Option SupertrendBands × ℚ) × Option SupertrendBands :=
  let bands := match state.1, row.2 with
    | _, none => none
    | none, some atrValue => some (supertrendStart multiplier row.1 atrValue)
    | some bands, some atrValue => some (supertrendStep multiplier bands state.2 row.1 atrValue)
  ((bands, row.1.close), bands)

/-- The columns of `supertrend`; the direction is 0 during the ATR's warm-up. -/
structure SupertrendFrame where
  supertrend : Series
  direction : List ℤ

/-- The direction as a column of floats. -/
def SupertrendFrame.directionSeries (frame : SupertrendFrame) : Series :=
  frame.direction.map fun direction : ℤ => some (direction : ℚ)

def supertrend (frame : List CandleRow) (period : ℤ := 10) (multiplier : ℚ := 3) :
    Except PyError SupertrendFrame := do
  requirePeriod period
  let atrValues ← atr frame period
  let bands := outputs (supertrendTurn multiplier) (none, 0) (frame.zip atrValues)
  pure ⟨bands.map (Option.map SupertrendBands.value),
    bands.map fun bands => (bands.map SupertrendBands.direction).getD 0⟩

end PersonalTrade
