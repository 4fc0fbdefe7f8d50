import Mathlib.Data.List.AList
import PersonalTrade.Indicators.Causality
import PersonalTrade.Strategy.Base

/-!
# Indicators of a backtest

`backtest/indicator_bridge.py`: the declared indicators are computed once over the
whole frame and read through a view bound to one bar. Whether the computation
raises depends on the declarations alone, and each column it yields is a causal
function of the frame (`computeIndicatorSet_cases`).
-/

namespace PersonalTrade

/-- The series of a run, by name. -/
abbrev SeriesByName := AList fun _ : String => Series

/-- The entry of the dispatch table for one declaration, with its columns named. -/
def indicatorColumns (sqrt : ℚ → ℚ) (candles : List CandleRow) (name : String) :
    IndicatorSpec → Except PyError (List (String × Series))
  | .sma period => do
      let output ← sma (candles.map CandleRow.close) period
      pure [(name, output)]
  | .ema period => do
      let output ← ema (candles.map CandleRow.close) period
      pure [(name, output)]
  | .rsi period => do
      let output ← rsi (candles.map CandleRow.close) period
      pure [(name, output)]
  | .atr period => do
      let output ← atr candles period
      pure [(name, output)]
  | .macd fast slow signal => do
      let output ← macd (candles.map CandleRow.close) fast slow signal
      pure [(name ++ ".macd", output.macd), (name ++ ".signal", output.signal),
        (name ++ ".hist", output.hist)]
  | .bollinger period numStd => do
      let output ← bollinger sqrt (candles.map CandleRow.close) period numStd
      pure [(name ++ ".middle", output.middle), (name ++ ".upper", output.upper),
        (name ++ ".lower", output.lower)]
  | .vwap => pure [(name, vwap candles)]
  | .obv => pure [(name, (obv candles).map some)]
  | .supertrend period multiplier => do
      let output ← supertrend candles period multiplier
      pure [(name ++ ".supertrend", output.supertrend),
        (name ++ ".direction", output.directionSeries)]
  | .trueRange => pure [(name, (trueRange candles).map some)]
  | .other kind => .error (.unknownIndicatorKind kind name)

/-- Assign columns in a dictionary of series. -/
def setColumns (result : SeriesByName) (columns : List (String × Series)) : SeriesByName :=
  columns.foldl (fun result column => result.insert column.1 column.2) result

/-- `compute_indicator_set`, from the dictionary built so far. -/
def computeIndicatorSet (sqrt : ℚ → ℚ) (candles : List CandleRow) :
    List (String × IndicatorSpec) → SeriesByName → Except PyError SeriesByName
  | [], result => .ok result
  | (name, spec) :: specs, result => do
      let columns ← indicatorColumns sqrt candles name spec
      computeIndicatorSet sqrt candles specs (setColumns result columns)

/-- Every series has a value at a bar. -/
def allValid (series : SeriesByName) (index : ℕ) : Bool :=
  series.entries.all fun entry => (entry.2[index]?.join).isSome

/-- `first_all_valid_index`. -/
def firstAllValidIndex (series : SeriesByName) : ℕ :=
  match series.entries with
  | [] => 0
  | first :: _ => ((List.range first.2.length).find? (allValid series)).getD first.2.length

/-- `BatchIndicatorView`. -/
def batchIndicatorView (series : SeriesByName) (index : ℕ) : IndicatorView where
  value name :=
    match series.lookup name with
    | none => .error (.keyError name)
    | some values => .ok values[index]?.join
  window name n :=
    match series.lookup name with
    | none => .error (.keyError name)
    | some values =>
        let lo := max 0 ((index : ℤ) - n + 1)
        .ok ((values.take (index + 1)).drop lo.toNat).reduceOption

/-! ## The columns as functions of the frame -/

/-- The columns of one declaration for every frame. -/
abbrev ColumnFunctions := List (String × (List CandleRow → Series))

/-- The columns for one frame. -/
def ColumnFunctions.on (columns : ColumnFunctions) (candles : List CandleRow) :
    List (String × Series) :=
  columns.map fun column => (column.1, column.2 candles)

/-- A computation on frames that either always raises or yields causal columns. -/
inductive YieldsColumns (compute : List CandleRow → Except PyError (List (String × Series))) :
    Prop where
  | raises (always : ∀ candles, ∃ raised, compute candles = .error raised)
  | columns (columns : ColumnFunctions) (causal : ∀ column ∈ columns, Causal column.2)
      (always : ∀ candles, compute candles = .ok (columns.on candles))

/-- A batch function whose validity does not depend on the frame, under the names of its
fields. -/
theorem YieldsColumns.of_eq_ok {γ : Type} {valid : Prop} {whole : List CandleRow → γ}
    (batch : List CandleRow → Except PyError γ) (fields : List (String × (γ → Series)))
    (batchEq : ∀ candles result, batch candles = .ok result ↔ valid ∧ whole candles = result)
    (causal : valid → ∀ field ∈ fields.map Prod.snd, Causal fun candles => field (whole candles)) :
    YieldsColumns fun candles => batch candles >>= fun output =>
      pure (fields.map fun field => (field.1, field.2 output)) := by
  by_cases isValid : valid
  · apply YieldsColumns.columns
      (fields.map fun field => (field.1, fun candles => field.2 (whole candles)))
    · intro column mem
      rcases List.mem_map.mp mem with ⟨field, fieldMem, rfl⟩
      exact causal isValid field.2 (List.mem_map_of_mem fieldMem)
    · intro candles
      apply except_bind_eq_ok.mpr
      refine ⟨whole candles, (batchEq candles _).mpr ⟨isValid, rfl⟩, ?_⟩
      rw [ColumnFunctions.on, List.map_map]
      rfl
  · apply YieldsColumns.raises
    intro candles
    cases computed : batch candles with
    | error raised => exact ⟨raised, rfl⟩
    | ok result => exact absurd ((batchEq candles result).mp computed).1 isValid

theorem YieldsColumns.of_causal (name : String) {series : List CandleRow → Series}
    (causal : Causal series) : YieldsColumns fun candles => pure [(name, series candles)] := by
  apply YieldsColumns.columns [(name, series)] _ fun _ => rfl
  intro column mem
  rw [List.mem_singleton] at mem
  subst column
  exact causal

/-- What a declaration computes from a frame. -/
theorem indicatorColumns_cases (sqrt : ℚ → ℚ) (name : String) (spec : IndicatorSpec) :
    YieldsColumns fun candles => indicatorColumns sqrt candles name spec := by
  have closes : Causal (List.map CandleRow.close) := .of_map _
  have only {series : List CandleRow → Series} (causal : Causal series) :
      ∀ field ∈ [(name, (id : Series → Series))].map Prod.snd,
        Causal fun candles => field (series candles) := by
    intro field mem
    simp only [List.map_cons, List.map_nil, List.mem_singleton] at mem
    subst field
    exact causal
  cases spec with
  | sma period =>
      exact .of_eq_ok (fun candles => sma (candles.map CandleRow.close) period) [(name, id)]
        (fun _ _ => sma_eq_ok) fun _ => only ((causal_rolling _ _).comp closes)
  | ema period =>
      exact .of_eq_ok (fun candles => ema (candles.map CandleRow.close) period) [(name, id)]
        (fun _ _ => ema_eq_ok) fun valid => only ((causal_emaSeries (by omega)).comp closes)
  | rsi period =>
      exact .of_eq_ok (fun candles => rsi (candles.map CandleRow.close) period) [(name, id)]
        (fun _ _ => rsi_eq_ok) fun valid => only ((causal_rsiSeries (by omega)).comp closes)
  | atr period =>
      exact .of_eq_ok (fun candles => atr candles period) [(name, id)]
        (fun _ _ => atr_eq_ok) fun valid => only (causal_atrSeries (by omega))
  | macd fast slow signal =>
      apply YieldsColumns.of_eq_ok
        (fun candles => macd (candles.map CandleRow.close) fast slow signal)
        [(name ++ ".macd", MACDFrame.macd), (name ++ ".signal", MACDFrame.signal),
          (name ++ ".hist", MACDFrame.hist)] (fun _ _ => macd_eq_ok)
      rintro ⟨order, fastValid, signalValid⟩ field mem
      exact (causal_macdColumns (by omega) (by omega) (by omega) mem).comp closes
  | bollinger period numStd =>
      apply YieldsColumns.of_eq_ok
        (fun candles => bollinger sqrt (candles.map CandleRow.close) period numStd)
        [(name ++ ".middle", BollingerFrame.middle), (name ++ ".upper", BollingerFrame.upper),
          (name ++ ".lower", BollingerFrame.lower)] (fun _ _ => bollinger_eq_ok)
      intro _ field mem
      exact (causal_bollingerColumns sqrt period.toNat numStd mem).comp closes
  | vwap => exact .of_causal name causal_vwap
  | obv => exact .of_causal name ((Causal.of_map some).comp causal_obv)
  | supertrend period multiplier =>
      apply YieldsColumns.of_eq_ok (fun candles => supertrend candles period multiplier)
        [(name ++ ".supertrend", SupertrendFrame.supertrend),
          (name ++ ".direction", SupertrendFrame.directionSeries)]
        (fun _ _ => supertrend_eq_ok)
      intro valid field mem
      have positive : 0 < period.toNat := by omega
      have bands := causal_supertrendBands positive multiplier
      simp only [List.map_cons, List.map_nil, List.mem_cons, List.not_mem_nil, or_false] at mem
      rcases mem with rfl | rfl
      · exact (Causal.of_map _).comp bands
      · exact (Causal.of_map _).comp ((Causal.of_map _).comp bands)
  | trueRange => exact .of_causal name ((Causal.of_map some).comp causal_trueRange)
  | other kind => exact .raises fun candles => ⟨_, rfl⟩

/-- Whether the computation raises depends on the declarations alone, and its columns are
causal functions of the frame. -/
theorem computeIndicatorSet_cases (sqrt : ℚ → ℚ) (specs : List (String × IndicatorSpec)) :
    (∀ candles result, ∃ raised, computeIndicatorSet sqrt candles specs result = .error raised) ∨
    ∃ columns : ColumnFunctions, (∀ column ∈ columns, Causal column.2) ∧
      ∀ candles result, computeIndicatorSet sqrt candles specs result =
        .ok (setColumns result (columns.on candles)) := by
  induction specs with
  | nil =>
      right
      exact ⟨[], nofun, fun _ _ => rfl⟩
  | cons item specs ih =>
      rcases item with ⟨name, spec⟩
      rcases indicatorColumns_cases sqrt name spec with always | ⟨columns, causal, always⟩
      · left
        intro candles result
        rcases always candles with ⟨raised, failed⟩
        refine ⟨raised, ?_⟩
        simp only [computeIndicatorSet, failed, bind, Except.bind]
      · rcases ih with fails | ⟨later, causalLater, alwaysLater⟩
        · left
          intro candles result
          rcases fails candles (setColumns result (columns.on candles)) with ⟨raised, failed⟩
          refine ⟨raised, ?_⟩
          simp only [computeIndicatorSet, always, bind, Except.bind, failed]
        · right
          refine ⟨columns ++ later, ?_, fun candles result => ?_⟩
          · intro column mem
            rcases List.mem_append.mp mem with early | late
            · exact causal column early
            · exact causalLater column late
          · simp only [computeIndicatorSet, always, bind, Except.bind, alwaysLater, setColumns,
              ColumnFunctions.on, List.map_append, List.foldl_append]

/-! ## Series that agree on the first bars -/

/-- Every series of a run has one value for each bar. -/
def SeriesByName.HasLength (series : SeriesByName) (length : ℕ) : Prop :=
  ∀ name values, series.lookup name = some values → values.length = length

/-- Two runs have the same indicators with the same values on the first `count` bars. -/
def SeriesByName.AgreeUpTo (series series' : SeriesByName) (count : ℕ) : Prop :=
  ∀ name, (series.lookup name).map (List.take count) = (series'.lookup name).map (List.take count)

theorem lookup_setColumns_concat (result : SeriesByName) (columns : List (String × Series))
    (column : String × Series) (name : String) :
    (setColumns result (columns ++ [column])).lookup name =
      if name = column.1 then some column.2 else (setColumns result columns).lookup name := by
  rw [setColumns, List.foldl_concat]
  split_ifs with same
  · subst name
    exact AList.lookup_insert _
  · exact AList.lookup_insert_ne same

theorem hasLength_setColumns {columns : ColumnFunctions}
    (causal : ∀ column ∈ columns, Causal column.2) (candles : List CandleRow) :
    (setColumns ∅ (columns.on candles)).HasLength candles.length := by
  induction columns using List.reverseRecOn with
  | nil =>
      intro name values found
      rw [ColumnFunctions.on, List.map_nil, setColumns, List.foldl_nil, AList.lookup_empty] at found
      cases found
  | append_singleton columns column ih =>
      intro name values found
      rw [ColumnFunctions.on, List.map_append, List.map_singleton, lookup_setColumns_concat] at found
      split_ifs at found with same
      · rw [Option.some.injEq] at found
        subst values
        exact (causal column (List.mem_append_right _ List.mem_cons_self)).length candles
      · exact ih (fun earlier mem => causal earlier (List.mem_append_left _ mem)) name values found

theorem agreeUpTo_setColumns {columns : ColumnFunctions}
    (causal : ∀ column ∈ columns, Causal column.2) {candles candles' : List CandleRow} {count : ℕ}
    (agree : candles.take count = candles'.take count) :
    (setColumns ∅ (columns.on candles)).AgreeUpTo (setColumns ∅ (columns.on candles')) count := by
  induction columns using List.reverseRecOn with
  | nil => exact fun _ => rfl
  | append_singleton columns column ih =>
      intro name
      simp only [ColumnFunctions.on, List.map_append, List.map_singleton, lookup_setColumns_concat]
      split_ifs with same
      · have last := causal column (List.mem_append_right _ List.mem_cons_self)
        simp only [Option.map_some, last.congr agree]
      · exact ih (fun earlier mem => causal earlier (List.mem_append_left _ mem)) name

theorem allValid_iff {series : SeriesByName} {index : ℕ} : allValid series index = true ↔
    ∀ name values, series.lookup name = some values → (values[index]?.join).isSome := by
  rw [allValid, List.all_eq_true]
  constructor
  · intro valid name values found
    exact valid ⟨name, values⟩ (AList.mem_lookup_iff.mp found)
  · intro valid entry mem
    exact valid entry.1 entry.2 (AList.mem_lookup_iff.mpr mem)

namespace SeriesByName

variable {series series' : SeriesByName} {count : ℕ}

/-- The strategy is called from the first bar at which every indicator is available. -/
theorem HasLength.firstAllValidIndex_le_iff {length : ℕ} (hasLength : series.HasLength length)
    {index : ℕ} (within : index < length) :
    firstAllValidIndex series ≤ index ↔ ∃ earlier ≤ index, allValid series earlier = true := by
  rw [firstAllValidIndex]
  split
  · rename_i entries
    simp only [allValid, entries, List.all_nil, and_true, zero_le, true_iff]
    exact ⟨0, Nat.zero_le _⟩
  · rename_i first rest entries
    have firstLength : first.2.length = length := by
      apply hasLength first.1
      apply AList.mem_lookup_iff.mpr
      rw [entries]
      exact List.mem_cons_self
    rw [firstLength]
    cases found : (List.range length).find? (allValid series) with
    | none =>
        have never := List.find?_eq_none.mp found
        simp only [Option.getD_none]
        constructor
        · intro late
          omega
        · rintro ⟨earlier, before, valid⟩
          exact absurd valid (never earlier (List.mem_range.mpr (by omega)))
    | some start =>
        simp only [Option.getD_some]
        constructor
        · intro reached
          exact ⟨start, reached, by simpa using List.find?_some found⟩
        · rintro ⟨earlier, before, valid⟩
          by_contra late
          have skipped := (List.find?_range_eq_some.mp found).2.2 earlier (by omega)
          rw [valid] at skipped
          cases skipped

theorem AgreeUpTo.getElem? (agree : series.AgreeUpTo series' count) {name : String}
    {values values' : Series} (found : series.lookup name = some values)
    (found' : series'.lookup name = some values') {index : ℕ} (within : index < count) :
    values[index]? = values'[index]? := by
  have same := agree name
  rw [found, found', Option.map_some, Option.map_some, Option.some.injEq] at same
  rw [← List.getElem?_take_of_lt within, same, List.getElem?_take_of_lt within]

theorem AgreeUpTo.symm (agree : series.AgreeUpTo series' count) : series'.AgreeUpTo series count :=
  fun name => (agree name).symm

theorem AgreeUpTo.lookup_isSome (agree : series.AgreeUpTo series' count) {name : String}
    {values : Series} (found : series.lookup name = some values) :
    ∃ values', series'.lookup name = some values' := by
  have same := agree name
  rw [found, Option.map_some] at same
  cases found' : series'.lookup name with
  | none => simp [found'] at same
  | some values' => exact ⟨values', rfl⟩

theorem AgreeUpTo.lookup_none (agree : series.AgreeUpTo series' count) {name : String}
    (missing : series.lookup name = none) : series'.lookup name = none := by
  have same := agree name
  rw [missing, Option.map_none] at same
  exact Option.map_eq_none_iff.mp same.symm

theorem AgreeUpTo.allValid (agree : series.AgreeUpTo series' count) {index : ℕ}
    (within : index < count) (valid : allValid series index = true) :
    PersonalTrade.allValid series' index = true := by
  apply allValid_iff.mpr
  intro name values' found'
  rcases agree.symm.lookup_isSome found' with ⟨values, found⟩
  rw [← agree.getElem? found found' within]
  exact allValid_iff.mp valid name values found

theorem AgreeUpTo.firstAllValidIndex_le_iff (agree : series.AgreeUpTo series' count)
    {length length' : ℕ} (hasLength : series.HasLength length)
    (hasLength' : series'.HasLength length') {index : ℕ} (within : index < count)
    (inside : index < length) (inside' : index < length') :
    firstAllValidIndex series ≤ index ↔ firstAllValidIndex series' ≤ index := by
  rw [hasLength.firstAllValidIndex_le_iff inside, hasLength'.firstAllValidIndex_le_iff inside']
  constructor
  · rintro ⟨earlier, before, valid⟩
    exact ⟨earlier, before, agree.allValid (by omega) valid⟩
  · rintro ⟨earlier, before, valid⟩
    exact ⟨earlier, before, agree.symm.allValid (by omega) valid⟩

theorem AgreeUpTo.batchIndicatorView (agree : series.AgreeUpTo series' count) {index : ℕ}
    (within : index < count) :
    batchIndicatorView series index = batchIndicatorView series' index := by
  simp only [PersonalTrade.batchIndicatorView, IndicatorView.mk.injEq]
  have same : ∀ name values values', series.lookup name = some values →
      series'.lookup name = some values' → values.take (index + 1) = values'.take (index + 1) := by
    intro name values values' found found'
    have agreed := agree name
    rw [found, found', Option.map_some, Option.map_some, Option.some.injEq] at agreed
    have shorter := congrArg (List.take (index + 1)) agreed
    rwa [List.take_take, List.take_take, Nat.min_eq_left (Nat.succ_le_of_lt within)] at shorter
  constructor
  · funext name
    cases found : series.lookup name with
    | none => simp only [agree.lookup_none found]
    | some values =>
        rcases agree.lookup_isSome found with ⟨values', found'⟩
        simp only [found', agree.getElem? found found' within]
  · funext name n
    cases found : series.lookup name with
    | none => simp only [agree.lookup_none found]
    | some values =>
        rcases agree.lookup_isSome found with ⟨values', found'⟩
        simp only [found', same name values values' found found']

end SeriesByName

end PersonalTrade
