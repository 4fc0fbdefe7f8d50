import Mathlib.Data.List.AList
import PersonalTrade.Indicators.Streaming
import PersonalTrade.Strategy.Base

/-!
# Live indicators

`orchestrator/indicator_bridge.py`: the declared indicators as streaming states, which
a candle updates once, and a view of what they have returned so far.
-/

namespace PersonalTrade

/-- An instance of one of the `_STATE_CLASSES`. -/
inductive IndicatorState where
  | sma (state : SMAState)
  | ema (state : EMAState)
  | rsi (state : RSIState)
  | atr (state : ATRState)
  | macd (state : MACDState)
  | bollinger (state : BollingerState)

/-- What the `update` of a state returns. -/
inductive StreamingResult where
  | single (value : Option ℚ)
  | macd (value : Option MACDValue)
  | bollinger (value : Option (ℚ × ℚ × ℚ))

/-- `_expand_names`. -/
def expandNames (name : String) : IndicatorSpec → List String
  | .macd _ _ _ => [name ++ ".macd", name ++ ".signal", name ++ ".hist"]
  | .bollinger _ _ => [name ++ ".middle", name ++ ".upper", name ++ ".lower"]
  | _ => [name]

/-- `_new_state`. -/
def newState (name : String) : IndicatorSpec → Except PyError IndicatorState
  | .sma period => do
      let state ← SMAState.new period
      pure (.sma state)
  | .ema period => do
      let state ← EMAState.new period
      pure (.ema state)
  | .rsi period => do
      let state ← RSIState.new period
      pure (.rsi state)
  | .atr period => do
      let state ← ATRState.new period
      pure (.atr state)
  | .macd fast slow signal => do
      let state ← MACDState.new fast slow signal
      pure (.macd state)
  | .bollinger period numStd => do
      let state ← BollingerState.new period numStd
      pure (.bollinger state)
  | .vwap => .error (.noStreamingImplementation "vwap" name)
  | .obv => .error (.noStreamingImplementation "obv" name)
  | .supertrend _ _ => .error (.noStreamingImplementation "supertrend" name)
  | .trueRange => .error (.noStreamingImplementation "true_range" name)
  | .other kind => .error (.noStreamingImplementation kind name)

/-- `update` of a state with the high, the low and the close of a candle. -/
def IndicatorState.update (sqrt : ℚ → ℚ) :
    IndicatorState → CandleRow → IndicatorState × StreamingResult
  | .sma state, candle =>
      let updated := state.update candle.close
      (.sma updated.1, .single updated.2)
  | .ema state, candle =>
      let updated := state.update candle.close
      (.ema updated.1, .single updated.2)
  | .rsi state, candle =>
      let updated := state.update candle.close
      (.rsi updated.1, .single updated.2)
  | .atr state, candle =>
      let updated := state.update candle
      (.atr updated.1, .single updated.2)
  | .macd state, candle =>
      let updated := state.update candle.close
      (.macd updated.1, .macd updated.2)
  | .bollinger state, candle =>
      let updated := state.update sqrt candle.close
      (.bollinger updated.1, .bollinger updated.2)

/-- `_record`: what it stores, and under which keys. -/
def StreamingResult.record (name : String) : StreamingResult → List (String × Option ℚ)
  | .single value => [(name, value)]
  | .macd value =>
      [(name ++ ".macd", value.map MACDValue.macd), (name ++ ".signal", value.bind MACDValue.signal),
        (name ++ ".hist", value.bind MACDValue.hist)]
  | .bollinger value =>
      [(name ++ ".middle", value.map fun bands => bands.1),
        (name ++ ".upper", value.map fun bands => bands.2.1),
        (name ++ ".lower", value.map fun bands => bands.2.2)]

/-- `_WINDOW_MAXLEN`. -/
def windowMaxlen : ℕ := 500

/-- `LiveIndicatorView`: the states by name, and the values by key. -/
structure LiveIndicatorView where
  states : List (String × IndicatorState)
  latest : AList fun _ : String => Option ℚ
  history : AList fun _ : String => List ℚ

/-- `values[start:]`. -/
def sliceFrom (values : List ℚ) (start : ℤ) : List ℚ :=
  values.drop (if start < 0 then (values.length + start).toNat else start.toNat)

namespace LiveIndicatorView

/-- `__init__`. -/
def new (specs : List (String × IndicatorSpec)) : Except PyError LiveIndicatorView := do
  let states ← specs.mapM fun item => do
    let state ← newState item.1 item.2
    pure (item.1, state)
  let keys := specs.flatMap fun item => expandNames item.1 item.2
  pure {
    states
    latest := keys.foldl (fun latest key => latest.insert key none) ∅
    history := keys.foldl (fun history key => history.insert key []) ∅ }

/-- `_store`. -/
def store (view : LiveIndicatorView) (item : String × Option ℚ) : LiveIndicatorView where
  states := view.states
  latest := view.latest.insert item.1 item.2
  history := match item.2 with
    | none => view.history
    | some value => view.history.insert item.1
        (pushBounded windowMaxlen ((view.history.lookup item.1).getD []) value)

/-- `update`: every state is updated, and what it returns is recorded. -/
def update (sqrt : ℚ → ℚ) (view : LiveIndicatorView) (candle : CandleRow) : LiveIndicatorView :=
  let updated := view.states.map fun item => (item.1, item.2.update sqrt candle)
  (updated.flatMap fun item => item.2.2.record item.1).foldl store
    { view with states := updated.map fun item => (item.1, item.2.1) }

/-- `all_warm`. -/
def allWarm (view : LiveIndicatorView) : Bool :=
  view.latest.entries.all fun entry => entry.2.isSome

/-- `value` and `window`. -/
def indicatorView (view : LiveIndicatorView) : IndicatorView where
  value name :=
    match view.latest.lookup name with
    | none => .error (.keyError name)
    | some value => .ok value
  window name n :=
    match view.history.lookup name with
    | none => .error (.keyError name)
    | some history => .ok (if n < history.length then sliceFrom history (-n) else history)

end LiveIndicatorView

end PersonalTrade
