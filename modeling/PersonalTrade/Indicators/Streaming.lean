import PersonalTrade.Indicators.Batch
import PersonalTrade.Library.Except

/-!
# Streaming indicators

`indicators/streaming.py`: the incremental states for live candles. Each `update`
returns the next state and the value of the indicator, `none` during warm-up.
A state is shown to compute, entry by entry, the series of its batch counterpart.
-/

namespace PersonalTrade

structure SMAState where
  period : ℕ
  buf : List ℚ
  bounded : buf.length ≤ period

/-- `SMAState.__init__`. -/
def SMAState.new (period : ℤ) : Except PyError SMAState := do
  requirePeriod period
  pure ⟨period.toNat, [], Nat.zero_le _⟩

def SMAState.update (state : SMAState) (value : ℚ) : SMAState × Option ℚ :=
  let buf := pushBounded state.period state.buf value
  (⟨state.period, buf, length_pushBounded_le _ _ _⟩,
    if buf.length < state.period then none else some (mean buf))

structure EMAState where
  period : ℕ
  seedBuf : List ℚ
  value : Option ℚ

/-- `EMAState.__init__`. -/
def EMAState.new (period : ℤ) : Except PyError EMAState := do
  requirePeriod period
  pure ⟨period.toNat, [], none⟩

def EMAState.update (state : EMAState) (value : ℚ) : EMAState × Option ℚ :=
  match state.value with
  | none =>
      let seedBuf := state.seedBuf ++ [value]
      if seedBuf.length < state.period then ({ state with seedBuf }, none)
      else ({ state with seedBuf, value := some (mean seedBuf) }, some (mean seedBuf))
  | some before =>
      let next := emaStep state.period before value
      ({ state with value := some next }, some next)

structure RSIState where
  period : ℕ
  prevClose : Option ℚ
  seedGains : List ℚ
  seedLosses : List ℚ
  avgGain : Option ℚ
  avgLoss : Option ℚ

/-- `RSIState.__init__`. -/
def RSIState.new (period : ℤ := 14) : Except PyError RSIState := do
  requirePeriod period
  pure ⟨period.toNat, none, [], [], none, none⟩

def RSIState.update (state : RSIState) (close : ℚ) : RSIState × Option ℚ :=
  match state.prevClose with
  | none => ({ state with prevClose := some close }, none)
  | some prevClose =>
      let change := gainLoss (close - prevClose)
      match state.avgGain, state.avgLoss with
      | some avgGain, some avgLoss =>
          let nextGain := wilder state.period avgGain change.1
          let nextLoss := wilder state.period avgLoss change.2
          ({ state with
              prevClose := some close, avgGain := some nextGain, avgLoss := some nextLoss },
            some (rsiValue nextGain nextLoss))
      | _, _ =>
          let seedGains := state.seedGains ++ [change.1]
          let seedLosses := state.seedLosses ++ [change.2]
          if seedGains.length < state.period then
            ({ state with prevClose := some close, seedGains, seedLosses }, none)
          else
            ({ state with
                prevClose := some close, seedGains, seedLosses,
                avgGain := some (mean seedGains), avgLoss := some (mean seedLosses) },
              some (rsiValue (mean seedGains) (mean seedLosses)))

structure ATRState where
  period : ℕ
  prevClose : Option ℚ
  seedTrs : List ℚ
  value : Option ℚ

/-- `ATRState.__init__`. -/
def ATRState.new (period : ℤ := 14) : Except PyError ATRState := do
  requirePeriod period
  pure ⟨period.toNat, none, [], none⟩

/-- `ATRState.update`, on the high, low and close of a candle. -/
def ATRState.update (state : ATRState) (candle : CandleRow) : ATRState × Option ℚ :=
  let tr := trueRangeOf state.prevClose candle.high candle.low
  match state.value with
  | none =>
      let seedTrs := state.seedTrs ++ [tr]
      if seedTrs.length < state.period then
        ({ state with prevClose := some candle.close, seedTrs }, none)
      else
        ({ state with prevClose := some candle.close, seedTrs, value := some (mean seedTrs) },
          some (mean seedTrs))
  | some before =>
      let next := wilder state.period before tr
      ({ state with prevClose := some candle.close, value := some next }, some next)

structure MACDValue where
  macd : ℚ
  signal : Option ℚ
  hist : Option ℚ
deriving DecidableEq, Repr

structure MACDState where
  fast : EMAState
  slow : EMAState
  signal : EMAState

/-- `MACDState.__init__`. -/
def MACDState.new (fast : ℤ := 12) (slow : ℤ := 26) (signal : ℤ := 9) : Except PyError MACDState :=
  if fast < slow then do
    let fastState ← EMAState.new fast
    let slowState ← EMAState.new slow
    let signalState ← EMAState.new signal
    pure ⟨fastState, slowState, signalState⟩
  else .error (macdOrderError fast slow)

def MACDState.update (state : MACDState) (close : ℚ) : MACDState × Option MACDValue :=
  let fast := state.fast.update close
  let slow := state.slow.update close
  match fast.2, slow.2 with
  | some fastValue, some slowValue =>
      let macdValue := fastValue - slowValue
      let signal := state.signal.update macdValue
      (⟨fast.1, slow.1, signal.1⟩, some ⟨macdValue, signal.2, signal.2.map (macdValue - ·)⟩)
  | _, _ => (⟨fast.1, slow.1, state.signal⟩, none)

structure BollingerState where
  period : ℕ
  numStd : ℚ
  buf : List ℚ
  bounded : buf.length ≤ period

/-- `BollingerState.__init__`. -/
def BollingerState.new (period : ℤ := 20) (numStd : ℚ := 2) : Except PyError BollingerState := do
  requirePeriod period 2
  pure ⟨period.toNat, numStd, [], Nat.zero_le _⟩

/-- The bands around one window of closes. -/
def bollingerBands (sqrt : ℚ → ℚ) (numStd : ℚ) (window : List ℚ) : ℚ × ℚ × ℚ :=
  let band := numStd * sqrt (variance window)
  (mean window, mean window + band, mean window - band)

def BollingerState.update (sqrt : ℚ → ℚ) (state : BollingerState) (close : ℚ) :
    BollingerState × Option (ℚ × ℚ × ℚ) :=
  let buf := pushBounded state.period state.buf close
  (⟨state.period, state.numStd, buf, length_pushBounded_le _ _ _⟩,
    if buf.length < state.period then none else some (bollingerBands sqrt state.numStd buf))

/-! ## Differences and true ranges of a growing series -/

theorem shift_eq_outputs (values : List ℚ) :
    shift values = outputs (fun before value => (some value, before)) none values := by
  suffices general : ∀ before, (before :: values.map some).take values.length =
      outputs (fun before value => (some value, before)) before values from general none
  induction values with
  | nil => exact fun _ => rfl
  | cons value values ih =>
      intro before
      simp only [List.map_cons, List.length_cons, List.take_succ_cons, outputs, ih]

theorem causal_shift : Causal shift := by
  rw [show shift = outputs (fun before value => (some value, before)) none from
    funext shift_eq_outputs]
  exact causal_outputs _ _

theorem shift_concat (values : List ℚ) (value : ℚ) :
    shift (values ++ [value]) = shift values ++ [values.getLast?] := by
  have whole : shift (values ++ [value]) = none :: values.map some := by
    simp [shift]
  rw [whole]
  cases values using List.reverseRecOn with
  | nil => rfl
  | append_singleton values last => simp [shift]

theorem causal_trueRange : Causal trueRange :=
  (causal_shift.comp (.of_map CandleRow.close)).zipWith .id
    fun prevClose candle => trueRangeOf prevClose candle.high candle.low

theorem trueRange_concat (frame : List CandleRow) (candle : CandleRow) :
    trueRange (frame ++ [candle]) = trueRange frame ++
      [trueRangeOf (frame.getLast?.map CandleRow.close) candle.high candle.low] := by
  rw [trueRange, List.map_append, List.map_singleton, shift_concat, List.zipWith_append]
  · simp [trueRange, List.getLast?_map]
  · simp [shift]

theorem gainsLosses_concat {values : List ℚ} {before : ℚ} (last : values.getLast? = some before)
    (value : ℚ) :
    gainsLosses (values ++ [value]) = gainsLosses values ++ [gainLoss (value - before)] := by
  induction values with
  | nil => cases last
  | cons first rest ih =>
      cases rest with
      | nil =>
          simp only [List.getLast?_singleton, Option.some.injEq] at last
          subst before
          rfl
      | cons second rest =>
          have ends : (second :: rest).getLast? = some before := by
            simpa [List.getLast?_cons_cons] using last
          have tail := ih ends
          simp only [gainsLosses, List.cons_append, List.tail_cons, List.zipWith_cons_cons] at tail ⊢
          rw [tail]

theorem gainsLosses_cons (first : ℚ) (rest : List ℚ) :
    gainsLosses (first :: rest) =
      outputs (fun before value => (value, gainLoss (value - before))) first rest := by
  induction rest generalizing first with
  | nil => rfl
  | cons second rest ih =>
      rw [outputs, ← ih second]
      rfl

theorem causal_gainsLosses (first : ℚ) : Causal fun rest => gainsLosses (first :: rest) := by
  simp only [gainsLosses_cons]
  exact causal_outputs _ _

/-! ## States compute the batch series -/

theorem outputs_smaUpdate (period : ℕ) (close : List ℚ) :
    outputs SMAState.update ⟨period, [], Nat.zero_le _⟩ close = rolling period mean close := by
  apply outputs_eq_rolling (fun state => state.period = period) SMAState.buf
  · rfl
  · rfl
  · intro state value same
    exact same
  · intro state value same
    simp only [SMAState.update, same]
  · intro state value same
    simp only [SMAState.update, same]

theorem outputs_bollingerUpdate (sqrt : ℚ → ℚ) (period : ℕ) (numStd : ℚ) (close : List ℚ) :
    outputs (BollingerState.update sqrt) ⟨period, numStd, [], Nat.zero_le _⟩ close =
      rolling period (bollingerBands sqrt numStd) close := by
  apply outputs_eq_rolling (fun state => state.period = period ∧ state.numStd = numStd)
    BollingerState.buf
  · exact ⟨rfl, rfl⟩
  · rfl
  · intro state value same
    exact same
  · intro state value same
    simp only [BollingerState.update, same.1]
  · intro state value same
    simp only [BollingerState.update, same.1, same.2]

theorem outputs_emaUpdate {period : ℕ} (positive : 0 < period) (close : List ℚ) :
    outputs EMAState.update ⟨period, [], none⟩ close = emaSeries period close := by
  rw [emaSeries, seeded_eq_perPrefix positive]
  apply outputs_eq_perPrefix (motive := fun seen state => state.period = period ∧
    state.value = seededValue period mean (emaStep period) seen ∧
    (state.value = none → state.seedBuf = seen))
  · exact ⟨rfl, (seededValue_eq_none.mpr positive).symm, fun _ => rfl⟩
  · rintro seen state value ⟨rfl, summary, seeds⟩
    cases held : state.value with
    | none =>
        rw [held] at summary
        rw [seededValue_concat_of_none summary.symm]
        simp only [EMAState.update, held, seeds held]
        split_ifs with warming
        · exact ⟨⟨rfl, rfl, fun _ => rfl⟩, rfl⟩
        · exact ⟨⟨rfl, rfl, nofun⟩, rfl⟩
    | some before =>
        rw [held] at summary
        rw [seededValue_concat summary.symm]
        simp [EMAState.update, held]

theorem outputs_atrUpdate {period : ℕ} (positive : 0 < period) (frame : List CandleRow) :
    outputs ATRState.update ⟨period, none, [], none⟩ frame = atrSeries period frame := by
  rw [atrSeries, seeded_eq_perPrefix positive, causal_trueRange.perPrefix_comp]
  apply outputs_eq_perPrefix (motive := fun seen state => state.period = period ∧
    state.prevClose = seen.getLast?.map CandleRow.close ∧
    state.value = seededValue period mean (wilder period) (trueRange seen) ∧
    (state.value = none → state.seedTrs = trueRange seen))
  · exact ⟨rfl, rfl, (seededValue_eq_none.mpr positive).symm, fun _ => rfl⟩
  · rintro seen state candle ⟨rfl, last, summary, seeds⟩
    rw [trueRange_concat, ← last]
    have lastNow : some candle.close = (seen ++ [candle]).getLast?.map CandleRow.close := by simp
    cases held : state.value with
    | none =>
        rw [held] at summary
        rw [seededValue_concat_of_none summary.symm]
        simp only [ATRState.update, held, seeds held]
        split_ifs with warming
        · exact ⟨⟨rfl, lastNow, rfl, fun _ => rfl⟩, rfl⟩
        · exact ⟨⟨rfl, lastNow, rfl, nofun⟩, rfl⟩
    | some before =>
        rw [held] at summary
        rw [seededValue_concat summary.symm]
        simp [ATRState.update, held]

/-- The averages of an RSI after a first close and some later ones. -/
def rsiAverages (period : ℕ) (first : ℚ) (seen : List ℚ) : Option (ℚ × ℚ) :=
  seededValue period rsiSeed (rsiStep period) (gainsLosses (first :: seen))

/-- The state of an RSI after a first close and some later ones. -/
structure RSIState.Summarizes (state : RSIState) (period : ℕ) (first : ℚ) (seen : List ℚ) :
    Prop where
  samePeriod : state.period = period
  prevClose : state.prevClose = (first :: seen).getLast?
  avgGain : state.avgGain = (rsiAverages period first seen).map Prod.fst
  avgLoss : state.avgLoss = (rsiAverages period first seen).map Prod.snd
  seeds : rsiAverages period first seen = none →
    state.seedGains = (gainsLosses (first :: seen)).map Prod.fst ∧
      state.seedLosses = (gainsLosses (first :: seen)).map Prod.snd

theorem RSIState.Summarizes.update {state : RSIState} {period : ℕ} {first : ℚ} {seen : List ℚ}
    (summary : state.Summarizes period first seen) (value : ℚ) :
    (state.update value).1.Summarizes period first (seen ++ [value]) ∧
      (state.update value).2 = (rsiAverages period first (seen ++ [value])).map
        fun averages => rsiValue averages.1 averages.2 := by
  rcases summary with ⟨rfl, last, gains, losses, seeds⟩
  rcases Option.isSome_iff_exists.mp (List.getLast?_isSome.mpr (List.cons_ne_nil first seen))
    with ⟨before, ends⟩
  have grown : gainsLosses (first :: (seen ++ [value])) =
      gainsLosses (first :: seen) ++ [gainLoss (value - before)] :=
    gainsLosses_concat ends value
  have lastNow : some value = (first :: (seen ++ [value])).getLast? := by
    rw [← List.cons_append, List.getLast?_concat]
  rw [ends] at last
  simp only [RSIState.update, last]
  cases held : rsiAverages state.period first seen with
  | none =>
      rcases seeds held with ⟨seedGains, seedLosses⟩
      have gainsNow : (gainsLosses (first :: (seen ++ [value]))).map Prod.fst =
          state.seedGains ++ [(gainLoss (value - before)).1] := by
        rw [grown, seedGains, List.map_append, List.map_singleton]
      have lossesNow : (gainsLosses (first :: (seen ++ [value]))).map Prod.snd =
          state.seedLosses ++ [(gainLoss (value - before)).2] := by
        rw [grown, seedLosses, List.map_append, List.map_singleton]
      have next : rsiAverages state.period first (seen ++ [value]) =
          if (state.seedGains ++ [(gainLoss (value - before)).1]).length < state.period then none
          else some (mean (state.seedGains ++ [(gainLoss (value - before)).1]),
            mean (state.seedLosses ++ [(gainLoss (value - before)).2])) := by
        rw [rsiAverages, grown, seededValue_concat_of_none held, ← grown, rsiSeed, gainsNow,
          lossesNow, ← gainsNow, List.length_map]
      rw [held] at gains losses
      simp only [gains, losses, Option.map_none]
      split_ifs at next ⊢ with warming
      · refine ⟨⟨rfl, lastNow, ?_, ?_, fun _ => ⟨gainsNow.symm, lossesNow.symm⟩⟩, ?_⟩
        · rw [next]
          rfl
        · rw [next]
          rfl
        · rw [next]
          rfl
      · refine ⟨⟨rfl, lastNow, ?_, ?_, fun warm => ?_⟩, ?_⟩
        · rw [next]
          rfl
        · rw [next]
          rfl
        · rw [next] at warm
          cases warm
        · rw [next]
          rfl
  | some averages =>
      have next : rsiAverages state.period first (seen ++ [value]) =
          some (rsiStep state.period averages (gainLoss (value - before))) := by
        rw [rsiAverages, grown]
        exact seededValue_concat held _
      rw [held] at gains losses
      simp only [gains, losses, Option.map_some]
      refine ⟨⟨rfl, lastNow, ?_, ?_, fun warm => ?_⟩, ?_⟩
      · rw [next]
        rfl
      · rw [next]
        rfl
      · rw [next] at warm
        cases warm
      · rw [next]
        rfl

theorem outputs_rsiUpdate {period : ℕ} (positive : 0 < period) (close : List ℚ) :
    outputs RSIState.update ⟨period, none, [], [], none, none⟩ close = rsiSeries period close := by
  cases close with
  | nil => rfl
  | cons first rest =>
      have length : ((seeded period rsiSeed (rsiStep period) (gainsLosses (first :: rest))).map
          (Option.map fun averages => rsiValue averages.1 averages.2)).length = rest.length := by
        rw [List.length_map, length_seeded positive, (causal_gainsLosses first).length]
      rw [rsiSeries, List.length_cons, List.take_succ_cons, ← length, List.take_length, outputs,
        seeded_eq_perPrefix positive, (causal_gainsLosses first).perPrefix_comp, map_perPrefix]
      congr 1
      apply outputs_eq_perPrefix
        (motive := fun seen state => RSIState.Summarizes state period first seen)
      · have warming : rsiAverages period first [] = none := seededValue_eq_none.mpr positive
        refine ⟨rfl, rfl, ?_, ?_, fun _ => ⟨rfl, rfl⟩⟩
        · rw [warming]
          rfl
        · rw [warming]
          rfl
      · intro seen state value summary
        exact summary.update value

/-- The signal side of a MACD, on a MACD line that may not be available yet. -/
def macdSignalTurn (signal : EMAState) : Option ℚ → EMAState × Option MACDValue
  | none => (signal, none)
  | some macdValue =>
      ((signal.update macdValue).1, some ⟨macdValue, (signal.update macdValue).2,
        (signal.update macdValue).2.map (macdValue - ·)⟩)

theorem outputs_macdUpdate (state : MACDState) (close : List ℚ) :
    outputs MACDState.update state close = outputs macdSignalTurn state.signal
      (columnwise (· - ·) (outputs EMAState.update state.fast close)
        (outputs EMAState.update state.slow close)) := by
  induction close generalizing state with
  | nil => rfl
  | cons value close ih =>
      simp only [outputs, columnwise, List.zipWith_cons_cons]
      cases fast : (state.fast.update value).2 <;> cases slow : (state.slow.update value).2 <;>
        simp only [MACDState.update, fast, slow, ih, Option.map₂_none_left, Option.map₂_none_right,
          Option.map₂_some_some, macdSignalTurn] <;> rfl

theorem macd_outputs_macdSignalTurn (signal : EMAState) (line : Series) :
    (outputs macdSignalTurn signal line).map (Option.map MACDValue.macd) = line := by
  induction line generalizing signal with
  | nil => rfl
  | cons entry line ih =>
      cases entry <;> simp only [outputs, macdSignalTurn, List.map_cons, ih, Option.map_some,
        Option.map_none]

theorem signal_outputs_macdSignalTurn (signal : EMAState) (line : Series) :
    (outputs macdSignalTurn signal line).map (·.bind MACDValue.signal) =
      outputs (whenAvailable EMAState.update) signal line := by
  induction line generalizing signal with
  | nil => rfl
  | cons entry line ih =>
      cases entry <;> simp only [outputs, macdSignalTurn, whenAvailable, List.map_cons, ih,
        Option.bind_some, Option.bind_none]

theorem hist_outputs_macdSignalTurn (signal : EMAState) (line : Series) :
    (outputs macdSignalTurn signal line).map (·.bind MACDValue.hist) =
      columnwise (· - ·) line (outputs (whenAvailable EMAState.update) signal line) := by
  induction line generalizing signal with
  | nil => rfl
  | cons entry line ih =>
      cases entry with
      | none => simp only [outputs, macdSignalTurn, whenAvailable, List.map_cons, ih,
          Option.bind_none, columnwise, List.zipWith_cons_cons, Option.map₂_none_left]
      | some value =>
          simp only [outputs, macdSignalTurn, whenAvailable, List.map_cons, ih, Option.bind_some,
            columnwise, List.zipWith_cons_cons]
          cases (signal.update value).2 <;> rfl

/-! ## Parameters -/

theorem requirePeriod_eq_ok {period minimum : ℤ} {result : Unit} :
    requirePeriod period minimum = .ok result ↔ minimum ≤ period := by
  rw [requirePeriod]
  split_ifs with invalid
  · simp [invalid]
  · simp [not_lt.mp invalid]

theorem requirePeriod_bind_eq_ok {α : Type} {period minimum : ℤ} {value result : α} :
    (requirePeriod period minimum >>= fun _ => pure value) = Except.ok result ↔
      minimum ≤ period ∧ value = result := by
  simp only [except_bind_eq_ok, requirePeriod_eq_ok, exists_const, pure, Except.pure,
    Except.ok.injEq]

theorem EMAState.new_eq_ok {period : ℤ} {state : EMAState} :
    EMAState.new period = .ok state ↔ 1 ≤ period ∧ ⟨period.toNat, [], none⟩ = state :=
  requirePeriod_bind_eq_ok

theorem ema_eq_ok {close : List ℚ} {period : ℤ} {series : Series} :
    ema close period = .ok series ↔ 1 ≤ period ∧ emaSeries period.toNat close = series :=
  requirePeriod_bind_eq_ok

theorem sma_eq_ok {close : List ℚ} {period : ℤ} {series : Series} :
    sma close period = .ok series ↔ 1 ≤ period ∧ rolling period.toNat mean close = series :=
  requirePeriod_bind_eq_ok

theorem rsi_eq_ok {close : List ℚ} {period : ℤ} {series : Series} :
    rsi close period = .ok series ↔ 1 ≤ period ∧ rsiSeries period.toNat close = series :=
  requirePeriod_bind_eq_ok

theorem atr_eq_ok {frame : List CandleRow} {period : ℤ} {series : Series} :
    atr frame period = .ok series ↔ 1 ≤ period ∧ atrSeries period.toNat frame = series :=
  requirePeriod_bind_eq_ok

/-- The columns of `bollinger` for valid parameters. -/
def bollingerColumns (sqrt : ℚ → ℚ) (period : ℕ) (numStd : ℚ) (close : List ℚ) : BollingerFrame :=
  let middle := rolling period mean close
  let band := (rolling period (fun window => sqrt (variance window)) close).map
    (Option.map (numStd * ·))
  ⟨middle, columnwise (· + ·) middle band, columnwise (· - ·) middle band⟩

theorem bollinger_eq_ok {sqrt : ℚ → ℚ} {close : List ℚ} {period : ℤ} {numStd : ℚ}
    {result : BollingerFrame} : bollinger sqrt close period numStd = .ok result ↔
      2 ≤ period ∧ bollingerColumns sqrt period.toNat numStd close = result :=
  requirePeriod_bind_eq_ok

/-- The columns of `macd` for valid parameters. -/
def macdColumns (fast slow signal : ℕ) (close : List ℚ) : MACDFrame :=
  let line := columnwise (· - ·) (emaSeries fast close) (emaSeries slow close)
  let signalLine := onAvailable line (emaSeries signal line.reduceOption)
  ⟨line, signalLine, columnwise (· - ·) line signalLine⟩

theorem macd_eq_ok {close : List ℚ} {fast slow signal : ℤ} {result : MACDFrame} :
    macd close fast slow signal = .ok result ↔ (fast < slow ∧ 1 ≤ fast ∧ 1 ≤ signal) ∧
      macdColumns fast.toNat slow.toNat signal.toNat close = result := by
  rw [macd]
  split_ifs with order
  · constructor
    · intro computed
      rcases except_bind_eq_ok.mp computed with ⟨_, required, computed⟩
      rcases except_bind_eq_ok.mp computed with ⟨fastLine, fastOk, computed⟩
      rcases except_bind_eq_ok.mp computed with ⟨slowLine, slowOk, computed⟩
      rcases except_bind_eq_ok.mp computed with ⟨smoothed, smoothedOk, computed⟩
      rcases ema_eq_ok.mp fastOk with ⟨fastValid, rfl⟩
      rcases ema_eq_ok.mp slowOk with ⟨_, rfl⟩
      rcases ema_eq_ok.mp smoothedOk with ⟨signalValid, rfl⟩
      cases computed
      exact ⟨⟨order, fastValid, signalValid⟩, rfl⟩
    · rintro ⟨⟨_, fastValid, signalValid⟩, rfl⟩
      apply except_bind_eq_ok.mpr ⟨(), requirePeriod_eq_ok.mpr signalValid, ?_⟩
      apply except_bind_eq_ok.mpr ⟨_, ema_eq_ok.mpr ⟨fastValid, rfl⟩, ?_⟩
      apply except_bind_eq_ok.mpr ⟨_, ema_eq_ok.mpr ⟨by omega, rfl⟩, ?_⟩
      exact except_bind_eq_ok.mpr ⟨_, ema_eq_ok.mpr ⟨signalValid, rfl⟩, rfl⟩
  · simp [order]

theorem MACDState.new_eq_ok {fast slow signal : ℤ} {state : MACDState} :
    MACDState.new fast slow signal = .ok state ↔ (fast < slow ∧ 1 ≤ fast ∧ 1 ≤ signal) ∧
      ⟨⟨fast.toNat, [], none⟩, ⟨slow.toNat, [], none⟩, ⟨signal.toNat, [], none⟩⟩ = state := by
  rw [MACDState.new]
  split_ifs with order
  · constructor
    · intro created
      rcases except_bind_eq_ok.mp created with ⟨fastState, fastNew, created⟩
      rcases except_bind_eq_ok.mp created with ⟨slowState, slowNew, created⟩
      rcases except_bind_eq_ok.mp created with ⟨signalState, signalNew, created⟩
      rcases EMAState.new_eq_ok.mp fastNew with ⟨fastValid, rfl⟩
      rcases EMAState.new_eq_ok.mp slowNew with ⟨_, rfl⟩
      rcases EMAState.new_eq_ok.mp signalNew with ⟨signalValid, rfl⟩
      cases created
      exact ⟨⟨order, fastValid, signalValid⟩, rfl⟩
    · rintro ⟨⟨_, fastValid, signalValid⟩, rfl⟩
      apply except_bind_eq_ok.mpr ⟨_, EMAState.new_eq_ok.mpr ⟨fastValid, rfl⟩, ?_⟩
      apply except_bind_eq_ok.mpr ⟨_, EMAState.new_eq_ok.mpr ⟨by omega, rfl⟩, ?_⟩
      exact except_bind_eq_ok.mpr ⟨_, EMAState.new_eq_ok.mpr ⟨signalValid, rfl⟩, rfl⟩
  · simp [order]

/-! ## Equivalence -/

/-- A streaming class accepts the parameters that a batch function accepts and, fed the
first `i + 1` entries of a series, gives entry `i` of each of its columns. -/
structure Mirrors {α β S C : Type} (new : Except PyError S) (update : S → α → S × Option β)
    (batch : Except PyError C) (columns : List ((β → Option ℚ) × (C → Series)))
    (series : List α) : Prop where
  accepts : (∃ state, new = .ok state) ↔ ∃ result, batch = .ok result
  agrees : ∀ state result, new = .ok state → batch = .ok result → ∀ column ∈ columns,
    ∀ i < series.length, (lastOutput update state (series.take (i + 1))).map (·.bind column.1) =
      (column.2 result)[i]?

theorem Mirrors.of_eq_ok {α β S C : Type} {new : Except PyError S} {update : S → α → S × Option β}
    {batch : Except PyError C} {columns : List ((β → Option ℚ) × (C → Series))}
    {series : List α} {valid : Prop} {start : S} {whole : C}
    (newEq : ∀ {state}, new = .ok state ↔ valid ∧ start = state)
    (batchEq : ∀ {result}, batch = .ok result ↔ valid ∧ whole = result)
    (computes : valid → ∀ column ∈ columns,
      (outputs update start series).map (·.bind column.1) = column.2 whole) :
    Mirrors new update batch columns series where
  accepts := by simp only [newEq, batchEq, exists_and_left, exists_eq']
  agrees := by
    intro state result created computed column mem i within
    rcases newEq.mp created with ⟨isValid, rfl⟩
    rcases batchEq.mp computed with ⟨_, rfl⟩
    rw [← computes isValid column mem, List.getElem?_map, lastOutput_take _ _ within]

theorem map_bind_some {β : Type} (field : β → ℚ) (series : List (Option β)) :
    series.map (·.bind fun value => some (field value)) = series.map (Option.map field) := by
  apply List.map_congr_left
  intro entry _
  cases entry <;> rfl

theorem mirrors_sma (close : List ℚ) (period : ℤ) :
    Mirrors (SMAState.new period) SMAState.update (sma close period) [(some, id)] close := by
  apply Mirrors.of_eq_ok requirePeriod_bind_eq_ok sma_eq_ok
  intro _ column mem
  rw [List.mem_singleton] at mem
  subst column
  simpa using outputs_smaUpdate period.toNat close

theorem mirrors_ema (close : List ℚ) (period : ℤ) :
    Mirrors (EMAState.new period) EMAState.update (ema close period) [(some, id)] close := by
  apply Mirrors.of_eq_ok requirePeriod_bind_eq_ok ema_eq_ok
  intro valid column mem
  rw [List.mem_singleton] at mem
  subst column
  simpa using outputs_emaUpdate (by omega) close

theorem mirrors_rsi (close : List ℚ) (period : ℤ) :
    Mirrors (RSIState.new period) RSIState.update (rsi close period) [(some, id)] close := by
  apply Mirrors.of_eq_ok requirePeriod_bind_eq_ok rsi_eq_ok
  intro valid column mem
  rw [List.mem_singleton] at mem
  subst column
  simpa using outputs_rsiUpdate (by omega) close

theorem mirrors_atr (frame : List CandleRow) (period : ℤ) :
    Mirrors (ATRState.new period) ATRState.update (atr frame period) [(some, id)] frame := by
  apply Mirrors.of_eq_ok requirePeriod_bind_eq_ok atr_eq_ok
  intro valid column mem
  rw [List.mem_singleton] at mem
  subst column
  simpa using outputs_atrUpdate (by omega) frame

/-- The columns of a MACD, as fields of a streaming value and of a frame. -/
def macdFields : List ((MACDValue → Option ℚ) × (MACDFrame → Series)) :=
  [(fun value => some value.macd, MACDFrame.macd), (MACDValue.signal, MACDFrame.signal),
    (MACDValue.hist, MACDFrame.hist)]

theorem mirrors_macd (close : List ℚ) (fast slow signal : ℤ) :
    Mirrors (MACDState.new fast slow signal) MACDState.update (macd close fast slow signal)
      macdFields close := by
  apply Mirrors.of_eq_ok MACDState.new_eq_ok macd_eq_ok
  rintro ⟨order, fastValid, signalValid⟩ column mem
  rw [outputs_macdUpdate, outputs_emaUpdate (by omega), outputs_emaUpdate (by omega)]
  simp only [macdFields, List.mem_cons, List.not_mem_nil, or_false] at mem
  rcases mem with rfl | rfl | rfl
  · rw [map_bind_some]
    exact macd_outputs_macdSignalTurn _ _
  · rw [signal_outputs_macdSignalTurn, ← onAvailable_outputs, outputs_emaUpdate (by omega)]
    rfl
  · rw [hist_outputs_macdSignalTurn, ← onAvailable_outputs, outputs_emaUpdate (by omega)]
    rfl

/-- The columns of Bollinger bands, as components of a streaming value and of a frame. -/
def bollingerFields : List ((ℚ × ℚ × ℚ → Option ℚ) × (BollingerFrame → Series)) :=
  [(fun bands => some bands.1, BollingerFrame.middle),
    (fun bands => some bands.2.1, BollingerFrame.upper),
    (fun bands => some bands.2.2, BollingerFrame.lower)]

theorem mirrors_bollinger (sqrt : ℚ → ℚ) (close : List ℚ) (period : ℤ) (numStd : ℚ) :
    Mirrors (BollingerState.new period numStd) (BollingerState.update sqrt)
      (bollinger sqrt close period numStd) bollingerFields close := by
  apply Mirrors.of_eq_ok requirePeriod_bind_eq_ok bollinger_eq_ok
  intro _ column mem
  rw [outputs_bollingerUpdate]
  simp only [bollingerFields, List.mem_cons, List.not_mem_nil, or_false] at mem
  rcases mem with rfl | rfl | rfl
  · rw [map_bind_some]
    exact map_rolling _ _ _ _
  · simp only [bollingerColumns, columnwise, map_rolling, zipWith_rolling, map_bind_some]
    rfl
  · simp only [bollingerColumns, columnwise, map_rolling, zipWith_rolling, map_bind_some]
    rfl

/-- Every streaming indicator computes, for all parameters and at every index, the values of
its batch function; a result or field of it is missing exactly where the series is NaN. -/
theorem streaming_mirrors_batch (sqrt : ℚ → ℚ) (close : List ℚ) (frame : List CandleRow) :
    (∀ period, Mirrors (SMAState.new period) SMAState.update (sma close period)
      [(some, id)] close) ∧
    (∀ period, Mirrors (EMAState.new period) EMAState.update (ema close period)
      [(some, id)] close) ∧
    (∀ period, Mirrors (RSIState.new period) RSIState.update (rsi close period)
      [(some, id)] close) ∧
    (∀ period, Mirrors (ATRState.new period) ATRState.update (atr frame period)
      [(some, id)] frame) ∧
    (∀ fast slow signal, Mirrors (MACDState.new fast slow signal) MACDState.update
      (macd close fast slow signal) macdFields close) ∧
    (∀ period numStd, Mirrors (BollingerState.new period numStd) (BollingerState.update sqrt)
      (bollinger sqrt close period numStd) bollingerFields close) :=
  ⟨mirrors_sma close, mirrors_ema close, mirrors_rsi close, mirrors_atr frame,
    mirrors_macd close, mirrors_bollinger sqrt close⟩

end PersonalTrade
