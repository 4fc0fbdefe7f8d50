import PersonalTrade.Indicators.Streaming

/-!
# Causality of the batch indicators

Entry `i` of every batch series depends on the first `i + 1` rows of the frame only.
The sequential indicators inherit this from the machines that compute them.
-/

namespace PersonalTrade

theorem causal_columnwise {α : Type} {left right : List α → Series} (op : ℚ → ℚ → ℚ)
    (causalLeft : Causal left) (causalRight : Causal right) :
    Causal fun series => columnwise op (left series) (right series) :=
  causalLeft.zipWith causalRight _

theorem causal_emaSeries {period : ℕ} (positive : 0 < period) : Causal (emaSeries period) := by
  rw [← funext (outputs_emaUpdate positive)]
  exact causal_outputs _ _

theorem causal_rsiSeries {period : ℕ} (positive : 0 < period) : Causal (rsiSeries period) := by
  rw [← funext (outputs_rsiUpdate positive)]
  exact causal_outputs _ _

theorem causal_atrSeries {period : ℕ} (positive : 0 < period) : Causal (atrSeries period) := by
  rw [← funext (outputs_atrUpdate positive)]
  exact causal_outputs _ _

theorem causal_signalLine {line : List ℚ → Series} {signal : ℕ} (positive : 0 < signal)
    (causal : Causal line) :
    Causal fun close => onAvailable (line close) (emaSeries signal (line close).reduceOption) := by
  simp only [← outputs_emaUpdate positive, onAvailable_outputs]
  exact (causal_outputs _ _).comp causal

theorem causal_macdColumns {fast slow signal : ℕ} (fastPos : 0 < fast) (slowPos : 0 < slow)
    (signalPos : 0 < signal) {column : MACDFrame → Series}
    (mem : column ∈ macdFields.map Prod.snd) :
    Causal fun close => column (macdColumns fast slow signal close) := by
  have line : Causal fun close =>
      columnwise (· - ·) (emaSeries fast close) (emaSeries slow close) :=
    causal_columnwise _ (causal_emaSeries fastPos) (causal_emaSeries slowPos)
  have signalLine := causal_signalLine signalPos line
  simp only [macdFields, List.map_cons, List.map_nil, List.mem_cons, List.not_mem_nil,
    or_false] at mem
  rcases mem with rfl | rfl | rfl
  · exact line
  · exact signalLine
  · exact causal_columnwise _ line signalLine

theorem causal_bollingerColumns (sqrt : ℚ → ℚ) (period : ℕ) (numStd : ℚ)
    {column : BollingerFrame → Series} (mem : column ∈ bollingerFields.map Prod.snd) :
    Causal fun close => column (bollingerColumns sqrt period numStd close) := by
  have middle := causal_rolling period mean
  have band : Causal fun close =>
      (rolling period (fun window => sqrt (variance window)) close).map
        (Option.map (numStd * ·)) := (Causal.of_map _).comp (causal_rolling _ _)
  simp only [bollingerFields, List.map_cons, List.map_nil, List.mem_cons, List.not_mem_nil,
    or_false] at mem
  rcases mem with rfl | rfl | rfl
  · exact middle
  · exact causal_columnwise _ middle band
  · exact causal_columnwise _ middle band

theorem causal_sessionCumsum (column : CandleRow → ℚ) : Causal (sessionCumsum column) :=
  ⟨fun _ => length_perPrefix _ _, fun _ _ => (causal_perPrefix _).take _ _⟩

theorem causal_vwap : Causal vwap :=
  (causal_sessionCumsum _).zipWith (causal_sessionCumsum _) _

theorem causal_obv : Causal obv := by
  have steps := (causal_shift.comp (.of_map CandleRow.close)).zipWith .id
    fun (prevClose : Option ℚ) (candle : CandleRow) =>
      (SignType.sign ((prevClose.map (candle.close - ·)).getD 0) : ℚ) * candle.volume
  exact (causal_perPrefix List.sum).comp steps

/-- The bands of `supertrend` for a valid period. -/
def supertrendBands (period : ℕ) (multiplier : ℚ) (frame : List CandleRow) :
    List (Option SupertrendBands) :=
  outputs (supertrendTurn multiplier) (none, 0) (frame.zip (atrSeries period frame))

theorem causal_supertrendBands {period : ℕ} (positive : 0 < period) (multiplier : ℚ) :
    Causal (supertrendBands period multiplier) :=
  (causal_outputs _ _).comp (Causal.id.zipWith (causal_atrSeries positive) Prod.mk)

theorem supertrend_eq_ok {frame : List CandleRow} {period : ℤ} {multiplier : ℚ}
    {result : SupertrendFrame} : supertrend frame period multiplier = .ok result ↔
      1 ≤ period ∧
        (⟨(supertrendBands period.toNat multiplier frame).map (Option.map SupertrendBands.value),
          (supertrendBands period.toNat multiplier frame).map fun bands =>
            (bands.map SupertrendBands.direction).getD 0⟩ : SupertrendFrame) = result := by
  constructor
  · intro computed
    rcases except_bind_eq_ok.mp computed with ⟨_, required, computed⟩
    rcases except_bind_eq_ok.mp computed with ⟨atrValues, atrOk, computed⟩
    rcases atr_eq_ok.mp atrOk with ⟨valid, rfl⟩
    cases computed
    exact ⟨valid, rfl⟩
  · rintro ⟨valid, rfl⟩
    apply except_bind_eq_ok.mpr ⟨(), requirePeriod_eq_ok.mpr valid, ?_⟩
    exact except_bind_eq_ok.mpr ⟨_, atr_eq_ok.mpr ⟨valid, rfl⟩, rfl⟩

end PersonalTrade
