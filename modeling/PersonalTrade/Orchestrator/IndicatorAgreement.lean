import PersonalTrade.Backtest.IndicatorBridge
import PersonalTrade.Indicators.WarmUp
import PersonalTrade.Orchestrator.IndicatorBridge

/-!
# The live view and the batch view

A live view that has been fed some candles gives the values and the windows that the
batch view gives at the last of them, as long as no two indicators share a key
(`FedWith.value_eq`, `FedWith.window_eq`). It is warm when every indicator has waited
for its first value.
-/

namespace PersonalTrade

/-! ## One declaration -/

/-- A declaration and its state compute the same columns, as series of a frame and candle by
candle. -/
structure Streams (sqrt : ℚ → ℚ) (name : String) (spec : IndicatorSpec) (state : IndicatorState)
    (columns : ColumnFunctions) : Prop where
  keys : columns.map Prod.fst = expandNames name spec
  causal : ∀ column ∈ columns, Causal column.2
  batch : ∀ candles, indicatorColumns sqrt candles name spec = .ok (columns.on candles)
  live : ∀ candles result, lastOutput (IndicatorState.update sqrt) state candles = some result →
    result.record name = columns.map fun column => (column.1, (column.2 candles).getLast?.join)
  warms : ∀ column ∈ columns, ∃ lag ≤ spec.lag, ∀ candles, WarmsUp lag (column.2 candles)
  slowest : ∃ column ∈ columns, ∀ candles, WarmsUp spec.lag (column.2 candles)

/-- A state of a kind of indicator, as an instance of `_STATE_CLASSES`. -/
structure StateKind (sqrt : ℚ → ℚ) {α β S : Type} (update : S → α → S × Option β) where
  wrap : S → IndicatorState
  read : CandleRow → α
  returned : Option β → StreamingResult
  simulates : ∀ state candle, (wrap state).update sqrt candle =
    (wrap (update state (read candle)).1, returned (update state (read candle)).2)

namespace StateKind

variable {sqrt : ℚ → ℚ} {α β S : Type} {update : S → α → S × Option β}

theorem lastOutput_wrap (kind : StateKind sqrt update) (state : S) (candles : List CandleRow) :
    lastOutput (IndicatorState.update sqrt) (kind.wrap state) candles =
      (lastOutput update state (candles.map kind.read)).map kind.returned := by
  have wrapped : outputs (IndicatorState.update sqrt) (kind.wrap state) candles =
      (outputs update state (candles.map kind.read)).map kind.returned := by
    induction candles generalizing state with
    | nil => rfl
    | cons candle candles ih =>
        simp only [outputs, kind.simulates, List.map_cons, ih]
  rw [lastOutput, lastOutput, wrapped, List.getLast?_map]

/-- A class that mirrors a batch function streams the columns of the function. -/
theorem streams_of_mirrors {C : Type} (kind : StateKind sqrt update) {name : String}
    {spec : IndicatorSpec} {new : Except PyError S} {batch : List α → Except PyError C}
    {valid : Prop} {whole : List α → C} {start : S}
    (fields : List (String × (β → Option ℚ) × (C → Series)))
    (mirrors : ∀ series, Mirrors new update (batch series) (fields.map Prod.snd) series)
    (batchEq : ∀ {series result}, batch series = .ok result ↔ valid ∧ whole series = result)
    (created : new = .ok start) (keys : fields.map Prod.fst = expandNames name spec)
    (records : ∀ value, (kind.returned value).record name =
      fields.map fun field => (field.1, value.bind field.2.1))
    (computes : ∀ candles, indicatorColumns sqrt candles name spec =
      batch (candles.map kind.read) >>= fun output =>
        pure (fields.map fun field => (field.1, field.2.2 output)))
    (causal : valid → ∀ field ∈ fields, Causal fun series => field.2.2 (whole series))
    (warms : valid → ∀ field ∈ fields, ∃ lag ≤ spec.lag,
      ∀ series, WarmsUp lag (field.2.2 (whole series)))
    (slowest : valid → ∃ field ∈ fields, ∀ series, WarmsUp spec.lag (field.2.2 (whole series))) :
    Streams sqrt name spec (kind.wrap start)
      (fields.map fun field =>
        (field.1, fun candles => field.2.2 (whole (candles.map kind.read)))) := by
  have isValid : valid := by
    rcases (mirrors []).accepts.mp ⟨start, created⟩ with ⟨result, computed⟩
    exact (batchEq.mp computed).1
  have computed (series : List α) : batch series = .ok (whole series) :=
    batchEq.mpr ⟨isValid, rfl⟩
  constructor
  · rw [List.map_map]
    exact keys
  · intro column mem
    rcases List.mem_map.mp mem with ⟨field, fieldMem, rfl⟩
    exact (causal isValid field fieldMem).comp (.of_map kind.read)
  · intro candles
    rw [computes, computed, ColumnFunctions.on, List.map_map]
    rfl
  · intro candles result last
    rw [lastOutput_wrap] at last
    rcases Option.map_eq_some_iff.mp last with ⟨value, lastValue, rfl⟩
    rw [records, List.map_map]
    apply List.map_congr_left
    intro field mem
    simp only [Function.comp_apply, Prod.mk.injEq, true_and]
    generalize series_eq : candles.map kind.read = series at lastValue
    have nonempty : series ≠ [] := by
      rintro rfl
      cases lastValue
    have positive : 0 < series.length := List.length_pos_iff.mpr nonempty
    have entry := (mirrors series).agrees start (whole series) created (computed series) field.2
      (List.mem_map_of_mem mem) (series.length - 1) (by omega)
    rw [Nat.sub_add_cancel positive, List.take_length, lastValue, Option.map_some,
      ← (causal isValid field mem).length series, ← List.getLast?_eq_getElem?] at entry
    rw [← entry, Option.join_some]
  · intro column mem
    rcases List.mem_map.mp mem with ⟨field, fieldMem, rfl⟩
    rcases warms isValid field fieldMem with ⟨lag, within, waits⟩
    exact ⟨lag, within, fun candles => waits _⟩
  · rcases slowest isValid with ⟨field, mem, waits⟩
    exact ⟨_, List.mem_map_of_mem mem, fun candles => waits _⟩

theorem streams_single {update : S → α → S × Option ℚ} (kind : StateKind sqrt update)
    {name : String} {spec : IndicatorSpec} {new : Except PyError S}
    {batch : List α → Except PyError Series} {valid : Prop} {whole : List α → Series} {start : S}
    (mirrors : ∀ series, Mirrors new update (batch series) [(some, id)] series)
    (batchEq : ∀ {series result}, batch series = .ok result ↔ valid ∧ whole series = result)
    (created : new = .ok start) (keys : [name] = expandNames name spec)
    (records : ∀ value, kind.returned value = .single value)
    (computes : ∀ candles, indicatorColumns sqrt candles name spec =
      batch (candles.map kind.read) >>= fun output => pure [(name, output)])
    (causal : valid → Causal whole) (warms : valid → ∀ series, WarmsUp spec.lag (whole series)) :
    ∃ columns, Streams sqrt name spec (kind.wrap start) columns := by
  refine ⟨_, kind.streams_of_mirrors [(name, some, id)] mirrors batchEq created keys ?_ computes
    ?_ ?_ ?_⟩
  · intro value
    simp [records, StreamingResult.record]
  · intro valid field mem
    rw [List.mem_singleton] at mem
    subst field
    exact causal valid
  · intro valid field mem
    rw [List.mem_singleton] at mem
    subst field
    exact ⟨_, le_rfl, warms valid⟩
  · intro valid
    exact ⟨_, List.mem_singleton_self _, warms valid⟩

end StateKind

theorem streams_macd {sqrt : ℚ → ℚ} {name : String} {fast slow signal : ℤ}
    {state : IndicatorState} (made : newState name (.macd fast slow signal) = .ok state) :
    ∃ columns, Streams sqrt name (.macd fast slow signal) state columns := by
  rcases except_bind_eq_ok.mp made with ⟨start, created, ⟨⟩⟩
  let kind : StateKind sqrt MACDState.update := ⟨.macd, CandleRow.close, .macd, fun _ _ => rfl⟩
  have warms (valid : fast < slow ∧ 1 ≤ fast ∧ 1 ≤ signal) (close : List ℚ) :
      WarmsUp (slow.toNat - 1) (macdColumns fast.toNat slow.toNat signal.toNat close).macd ∧
        WarmsUp (slow + signal - 2).toNat
          (macdColumns fast.toNat slow.toNat signal.toNat close).signal ∧
        WarmsUp (slow + signal - 2).toNat
          (macdColumns fast.toNat slow.toNat signal.toNat close).hist := by
    rw [show (slow + signal - 2).toNat = slow.toNat + signal.toNat - 2 by omega]
    exact warmsUp_macdColumns (by omega) (by omega) (by omega) close
  refine ⟨_, kind.streams_of_mirrors
    [(name ++ ".macd", fun value => some value.macd, MACDFrame.macd),
      (name ++ ".signal", MACDValue.signal, MACDFrame.signal),
      (name ++ ".hist", MACDValue.hist, MACDFrame.hist)]
    (fun series => mirrors_macd series fast slow signal) macd_eq_ok created rfl ?_
    (fun _ => rfl) ?_ ?_ ?_⟩
  · intro value
    cases value <;> rfl
  · rintro ⟨order, fastValid, signalValid⟩ field mem
    apply causal_macdColumns (by omega) (by omega) (by omega)
    exact List.mem_map_of_mem (f := fun field => field.2.2) mem
  · intro valid field mem
    simp only [List.mem_cons, List.not_mem_nil, or_false] at mem
    rcases mem with rfl | rfl | rfl
    · exact ⟨slow.toNat - 1, by rw [IndicatorSpec.lag]; omega,
        fun close => (warms valid close).1⟩
    · exact ⟨_, le_rfl, fun close => (warms valid close).2.1⟩
    · exact ⟨_, le_rfl, fun close => (warms valid close).2.2⟩
  · intro valid
    exact ⟨_, List.mem_cons_of_mem _ List.mem_cons_self, fun close => (warms valid close).2.1⟩

theorem streams_bollinger {sqrt : ℚ → ℚ} {name : String} {period : ℤ} {numStd : ℚ}
    {state : IndicatorState} (made : newState name (.bollinger period numStd) = .ok state) :
    ∃ columns, Streams sqrt name (.bollinger period numStd) state columns := by
  rcases except_bind_eq_ok.mp made with ⟨start, created, ⟨⟩⟩
  let kind : StateKind sqrt (BollingerState.update sqrt) :=
    ⟨.bollinger, CandleRow.close, .bollinger, fun _ _ => rfl⟩
  refine ⟨_, kind.streams_of_mirrors
    [(name ++ ".middle", fun bands => some bands.1, BollingerFrame.middle),
      (name ++ ".upper", fun bands => some bands.2.1, BollingerFrame.upper),
      (name ++ ".lower", fun bands => some bands.2.2, BollingerFrame.lower)]
    (fun series => mirrors_bollinger sqrt series period numStd) bollinger_eq_ok created rfl ?_
    (fun _ => rfl) ?_ ?_ ?_⟩
  · intro value
    cases value <;> rfl
  · intro valid field mem
    apply causal_bollingerColumns
    exact List.mem_map_of_mem (f := fun field => field.2.2) mem
  · intro valid field mem
    refine ⟨_, le_rfl, fun close => ?_⟩
    have warms := warmsUp_bollingerColumns sqrt (show 0 < period.toNat by omega) numStd
      (List.mem_map_of_mem (f := fun field => field.2.2) mem) close
    rwa [show period.toNat - 1 = (period - 1).toNat by omega] at warms
  · intro valid
    refine ⟨_, List.mem_cons_self, fun close => ?_⟩
    have warms := WarmsUp.rolling (show 0 < period.toNat by omega) mean close
    rwa [show period.toNat - 1 = (period - 1).toNat by omega] at warms

theorem streams_of_newState {sqrt : ℚ → ℚ} {name : String} {spec : IndicatorSpec}
    {state : IndicatorState} (made : newState name spec = .ok state) :
    ∃ columns, Streams sqrt name spec state columns := by
  cases spec with
  | sma period =>
      rcases except_bind_eq_ok.mp made with ⟨start, created, ⟨⟩⟩
      let kind : StateKind sqrt SMAState.update := ⟨.sma, CandleRow.close, .single, fun _ _ => rfl⟩
      refine kind.streams_single (fun series => mirrors_sma series period) sma_eq_ok created rfl
        (fun _ => rfl) (fun _ => rfl) (fun _ => causal_rolling _ _) ?_
      intro valid series
      have warms := WarmsUp.rolling (show 0 < period.toNat by omega) mean series
      rwa [show period.toNat - 1 = (period - 1).toNat by omega] at warms
  | ema period =>
      rcases except_bind_eq_ok.mp made with ⟨start, created, ⟨⟩⟩
      let kind : StateKind sqrt EMAState.update := ⟨.ema, CandleRow.close, .single, fun _ _ => rfl⟩
      refine kind.streams_single (fun series => mirrors_ema series period) ema_eq_ok created rfl
        (fun _ => rfl) (fun _ => rfl) (fun valid => causal_emaSeries (by omega)) ?_
      intro valid series
      have warms := WarmsUp.seeded (show 0 < period.toNat by omega) mean (emaStep period.toNat)
        series
      rwa [show period.toNat - 1 = (period - 1).toNat by omega] at warms
  | rsi period =>
      rcases except_bind_eq_ok.mp made with ⟨start, created, ⟨⟩⟩
      let kind : StateKind sqrt RSIState.update := ⟨.rsi, CandleRow.close, .single, fun _ _ => rfl⟩
      refine kind.streams_single (fun series => mirrors_rsi series period) rsi_eq_ok created rfl
        (fun _ => rfl) (fun _ => rfl) (fun valid => causal_rsiSeries (by omega)) ?_
      intro valid series
      exact warmsUp_rsiSeries (show 0 < period.toNat by omega) series
  | atr period =>
      rcases except_bind_eq_ok.mp made with ⟨start, created, ⟨⟩⟩
      let kind : StateKind sqrt ATRState.update := ⟨.atr, id, .single, fun _ _ => rfl⟩
      refine kind.streams_single (fun series => mirrors_atr series period) atr_eq_ok created rfl
        (fun _ => rfl) ?_ (fun valid => causal_atrSeries (by omega)) ?_
      · intro candles
        rw [List.map_id]
        rfl
      · intro valid series
        have warms := WarmsUp.seeded (show 0 < period.toNat by omega) mean (wilder period.toNat)
          (trueRange series)
        rwa [show period.toNat - 1 = (period - 1).toNat by omega] at warms
  | macd fast slow signal => exact streams_macd made
  | bollinger period numStd => exact streams_bollinger made
  | vwap | obv | supertrend _ _ | trueRange | other _ => cases made

/-- The columns of a declaration are available from its lag on. -/
theorem Streams.available {sqrt : ℚ → ℚ} {name : String} {spec : IndicatorSpec}
    {state : IndicatorState} {columns : ColumnFunctions}
    (streams : Streams sqrt name spec state columns) {candles : List CandleRow} {i : ℕ}
    (within : i < candles.length) :
    (∀ column ∈ columns, ((column.2 candles)[i]?.join).isSome) ↔ spec.lag ≤ i := by
  have inside : ∀ column ∈ columns, i < (column.2 candles).length := by
    intro column mem
    rwa [(streams.causal column mem).length]
  constructor
  · intro available
    rcases streams.slowest with ⟨column, mem, waits⟩
    exact (waits candles i (inside column mem)).mp (available column mem)
  · intro late column mem
    rcases streams.warms column mem with ⟨lag, shorter, waits⟩
    exact (waits candles i (inside column mem)).mpr (shorter.trans late)

/-! ## All declarations -/

/-- The declarations of a strategy and their states compute the same columns. -/
structure StreamsAll (sqrt : ℚ → ℚ) (specs : List (String × IndicatorSpec))
    (states : List (String × IndicatorState)) (columns : ColumnFunctions) : Prop where
  keys : columns.map Prod.fst = specs.flatMap fun item => expandNames item.1 item.2
  causal : ∀ column ∈ columns, Causal column.2
  batch : ∀ candles result, computeIndicatorSet sqrt candles specs result =
    .ok (setColumns result (columns.on candles))
  live : ∀ seen candle, (states.flatMap fun item =>
      ((finalState (IndicatorState.update sqrt) item.2 seen).update sqrt candle).2.record item.1) =
    columns.map fun column => (column.1, (column.2 (seen ++ [candle])).getLast?.join)
  warms : ∀ column ∈ columns, ∃ lag, ∀ candles, WarmsUp lag (column.2 candles)
  available : ∀ candles : List CandleRow, ∀ i < candles.length,
    (∀ column ∈ columns, ((column.2 candles)[i]?.join).isSome) ↔ ∀ item ∈ specs, item.2.lag ≤ i

theorem StreamsAll.cons {sqrt : ℚ → ℚ} {specs : List (String × IndicatorSpec)}
    {states : List (String × IndicatorState)} {columns later : ColumnFunctions} {name : String}
    {spec : IndicatorSpec} {state : IndicatorState} (streams : Streams sqrt name spec state columns)
    (rest : StreamsAll sqrt specs states later) :
    StreamsAll sqrt ((name, spec) :: specs) ((name, state) :: states) (columns ++ later) where
  keys := by
    rw [List.map_append, streams.keys, rest.keys]
    rfl
  causal := by
    intro column mem
    rcases List.mem_append.mp mem with first | second
    · exact streams.causal column first
    · exact rest.causal column second
  batch := by
    intro candles result
    simp only [computeIndicatorSet, streams.batch, bind, Except.bind, rest.batch, setColumns,
      ColumnFunctions.on, List.map_append, List.foldl_append]
  live := by
    intro seen candle
    rw [List.flatMap_cons, rest.live, List.map_append]
    congr 1
    apply streams.live
    rw [lastOutput, outputs_concat, List.getLast?_concat]
  warms := by
    intro column mem
    rcases List.mem_append.mp mem with first | second
    · rcases streams.warms column first with ⟨lag, _, waits⟩
      exact ⟨lag, waits⟩
    · exact rest.warms column second
  available := by
    intro candles i within
    rw [List.forall_mem_append, streams.available within, rest.available candles i within,
      List.forall_mem_cons]

/-- A new view has a state for every declaration. -/
theorem streamsAll_of_new {sqrt : ℚ → ℚ} {specs : List (String × IndicatorSpec)}
    {view : LiveIndicatorView} (made : LiveIndicatorView.new specs = .ok view) :
    ∃ columns, StreamsAll sqrt specs view.states columns := by
  rcases except_bind_eq_ok.mp made with ⟨states, mapped, ⟨⟩⟩
  have related := forall₂_of_mapM mapped
  clear made mapped
  induction related with
  | nil => exact ⟨[], rfl, nofun, fun _ _ => rfl, fun _ _ => rfl, nofun, fun _ _ _ => by simp⟩
  | cons first rest ih =>
      rcases except_bind_eq_ok.mp first with ⟨state, created, ⟨⟩⟩
      rcases streams_of_newState created with ⟨columns, streams⟩
      rcases ih with ⟨later, streamsLater⟩
      exact ⟨columns ++ later, .cons streams streamsLater⟩

/-! ## The values under the keys -/

namespace LiveIndicatorView

variable {view : LiveIndicatorView} {items : List (String × Option ℚ)} {key : String}

theorem lookup_foldl_insert {β : Type} (keys : List String) (value : β)
    (dict : AList fun _ : String => β) (key : String) :
    (keys.foldl (fun dict key => dict.insert key value) dict).lookup key =
      if key ∈ keys then some value else dict.lookup key := by
  induction keys generalizing dict with
  | nil => simp
  | cons first keys ih =>
      rw [List.foldl_cons, ih]
      by_cases later : key ∈ keys
      · rw [if_pos later, if_pos (List.mem_cons_of_mem _ later)]
      · by_cases same : key = first
        · subst same
          rw [if_neg later, if_pos List.mem_cons_self, AList.lookup_insert]
        · rw [if_neg later, AList.lookup_insert_ne same, if_neg (by simp [same, later])]

theorem history_store (view : LiveIndicatorView) (item : String × Option ℚ) :
    (view.store item).history.lookup item.1 = match item.2 with
      | none => view.history.lookup item.1
      | some value =>
          some (pushBounded windowMaxlen ((view.history.lookup item.1).getD []) value) := by
  rw [store]
  cases item.2 with
  | none => rfl
  | some value => exact AList.lookup_insert _

theorem latest_store_of_ne {item : String × Option ℚ} (other : key ≠ item.1) :
    (view.store item).latest.lookup key = view.latest.lookup key := AList.lookup_insert_ne other

theorem history_store_of_ne {item : String × Option ℚ} (other : key ≠ item.1) :
    (view.store item).history.lookup key = view.history.lookup key := by
  rw [store]
  cases item.2 with
  | none => rfl
  | some value => exact AList.lookup_insert_ne other

@[simp]
theorem states_foldl_store : (items.foldl store view).states = view.states := by
  induction items generalizing view with
  | nil => rfl
  | cons item items ih =>
      rw [List.foldl_cons, ih]
      rfl

theorem foldl_store_of_not_mem (view : LiveIndicatorView) (fresh : key ∉ items.map Prod.fst) :
    (items.foldl store view).latest.lookup key = view.latest.lookup key ∧
      (items.foldl store view).history.lookup key = view.history.lookup key := by
  induction items generalizing view with
  | nil => exact ⟨rfl, rfl⟩
  | cons item items ih =>
      rw [List.map_cons, List.mem_cons, not_or] at fresh
      rw [List.foldl_cons, (ih _ fresh.2).1, (ih _ fresh.2).2]
      exact ⟨latest_store_of_ne fresh.1, history_store_of_ne fresh.1⟩

/-- Among different keys, every value is stored under its own. -/
theorem foldl_store_of_mem (view : LiveIndicatorView) {item : String × Option ℚ}
    (distinct : (items.map Prod.fst).Nodup) (mem : item ∈ items) :
    (items.foldl store view).latest.lookup item.1 = some item.2 ∧
      (items.foldl store view).history.lookup item.1 = (view.store item).history.lookup item.1 := by
  induction items generalizing view with
  | nil => cases mem
  | cons first items ih =>
      rw [List.map_cons, List.nodup_cons] at distinct
      rw [List.foldl_cons]
      rcases List.mem_cons.mp mem with rfl | later
      · have kept := foldl_store_of_not_mem (view.store item) distinct.1
        rw [kept.1, kept.2]
        exact ⟨AList.lookup_insert _, rfl⟩
      · have other : item.1 ≠ first.1 := by
          intro same
          apply distinct.1
          rw [← same]
          exact List.mem_map_of_mem later
        have stored := ih (view.store first) distinct.2 later
        refine ⟨stored.1, ?_⟩
        rw [stored.2, history_store, history_store, history_store_of_ne other]

end LiveIndicatorView

/-! ## A view that has been fed -/

/-- What a view holds after some candles. -/
structure FedWith (sqrt : ℚ → ℚ) (states : List (String × IndicatorState))
    (columns : ColumnFunctions) (seen : List CandleRow) (view : LiveIndicatorView) : Prop where
  states : view.states = states.map fun item =>
    (item.1, finalState (IndicatorState.update sqrt) item.2 seen)
  latest : ∀ column ∈ columns, view.latest.lookup column.1 = some (column.2 seen).getLast?.join
  history : ∀ column ∈ columns, view.history.lookup column.1 =
    some ((column.2 seen).reduceOption.rtake windowMaxlen)
  others : ∀ key ∉ columns.map Prod.fst,
    view.latest.lookup key = none ∧ view.history.lookup key = none

section Fed

variable {sqrt : ℚ → ℚ} {specs : List (String × IndicatorSpec)}
  {states : List (String × IndicatorState)} {columns : ColumnFunctions} {seen : List CandleRow}
  {view : LiveIndicatorView}

theorem fedWith_of_new (made : LiveIndicatorView.new specs = .ok view)
    (streams : StreamsAll sqrt specs view.states columns) :
    FedWith sqrt view.states columns [] view := by
  rcases except_bind_eq_ok.mp made with ⟨states, _, ⟨⟩⟩
  constructor
  · simp [finalState]
  · intro column mem
    have declared : column.1 ∈ specs.flatMap fun item => expandNames item.1 item.2 := by
      rw [← streams.keys]
      exact List.mem_map_of_mem mem
    rw [LiveIndicatorView.lookup_foldl_insert, if_pos declared, (streams.causal column mem).nil]
    rfl
  · intro column mem
    have declared : column.1 ∈ specs.flatMap fun item => expandNames item.1 item.2 := by
      rw [← streams.keys]
      exact List.mem_map_of_mem mem
    rw [LiveIndicatorView.lookup_foldl_insert, if_pos declared, (streams.causal column mem).nil]
    rfl
  · intro key undeclared
    rw [streams.keys] at undeclared
    rw [LiveIndicatorView.lookup_foldl_insert, LiveIndicatorView.lookup_foldl_insert,
      if_neg undeclared, if_neg undeclared]
    exact ⟨rfl, rfl⟩

theorem FedWith.update (streams : StreamsAll sqrt specs states columns)
    (distinct : (columns.map Prod.fst).Nodup) (fed : FedWith sqrt states columns seen view)
    (candle : CandleRow) :
    FedWith sqrt states columns (seen ++ [candle]) (view.update sqrt candle) := by
  let stored := columns.map fun column => (column.1, (column.2 (seen ++ [candle])).getLast?.join)
  have keys : stored.map Prod.fst = columns.map Prod.fst := by
    rw [List.map_map]
    rfl
  have updated : view.update sqrt candle = stored.foldl LiveIndicatorView.store
      { view with states := states.map fun item =>
          (item.1, finalState (IndicatorState.update sqrt) item.2 (seen ++ [candle])) } := by
    simp only [LiveIndicatorView.update, fed.states, List.map_map, List.flatMap_map,
      Function.comp_def, finalState_concat]
    rw [streams.live]
  rw [updated]
  generalize start_eq : LiveIndicatorView.mk _ view.latest view.history = start
  have current (column : String × (List CandleRow → Series)) (mem : column ∈ columns) :=
    LiveIndicatorView.foldl_store_of_mem start (keys.symm ▸ distinct) (List.mem_map_of_mem mem)
  constructor
  · rw [LiveIndicatorView.states_foldl_store, ← start_eq]
  · intro column mem
    exact (current column mem).1
  · intro column mem
    rw [(current column mem).2, LiveIndicatorView.history_store, ← start_eq, fed.history column mem]
    rcases (streams.causal column mem).concat seen candle with ⟨last, extended⟩
    rw [extended, List.getLast?_concat, Option.join_some]
    cases last with
    | none => rw [List.reduceOption_append, List.reduceOption_singleton, Option.toList_none,
        List.append_nil]
    | some value =>
        simp only [Option.getD_some, pushBounded_rtake, List.reduceOption_append,
          List.reduceOption_singleton, Option.toList_some]
  · intro key undeclared
    have kept := LiveIndicatorView.foldl_store_of_not_mem start (keys.symm ▸ undeclared)
    rw [kept.1, kept.2, ← start_eq]
    exact fed.others key undeclared

theorem LiveIndicatorView.allWarm_iff : view.allWarm = true ↔
    ∀ key value, view.latest.lookup key = some value → value.isSome := by
  rw [allWarm, List.all_eq_true]
  constructor
  · intro warm key value found
    exact warm ⟨key, value⟩ (AList.mem_lookup_iff.mp found)
  · intro warm entry mem
    exact warm entry.1 entry.2 (AList.mem_lookup_iff.mpr mem)

/-- A view is warm once the slowest indicator is. -/
theorem FedWith.allWarm_iff (streams : StreamsAll sqrt specs states columns)
    (fed : FedWith sqrt states columns seen view) {i : ℕ} (length : seen.length = i + 1) :
    view.allWarm = true ↔ ∀ item ∈ specs, item.2.lag ≤ i := by
  have last : ∀ column ∈ columns, (column.2 seen).getLast? = (column.2 seen)[i]? := by
    intro column mem
    rw [List.getLast?_eq_getElem?, (streams.causal column mem).length, length, Nat.add_sub_cancel]
  rw [LiveIndicatorView.allWarm_iff, ← streams.available seen i (by omega)]
  constructor
  · intro warm column mem
    rw [← last column mem]
    exact warm column.1 _ (fed.latest column mem)
  · intro available key value found
    by_cases declared : key ∈ columns.map Prod.fst
    · rcases List.mem_map.mp declared with ⟨column, mem, rfl⟩
      rw [fed.latest column mem, Option.some.injEq, last column mem] at found
      rw [← found]
      exact available column mem
    · rw [(fed.others key declared).1] at found
      cases found

end Fed

/-! ## The batch view of the same columns -/

section Batch

variable {sqrt : ℚ → ℚ} {specs : List (String × IndicatorSpec)}
  {states : List (String × IndicatorState)} {columns : ColumnFunctions} {candles : List CandleRow}
  {view : LiveIndicatorView} {i : ℕ}

theorem lookup_setColumns_of_mem (distinct : (columns.map Prod.fst).Nodup)
    {column : String × (List CandleRow → Series)} (mem : column ∈ columns) :
    (setColumns ∅ (columns.on candles)).lookup column.1 = some (column.2 candles) := by
  induction columns using List.reverseRecOn with
  | nil => cases mem
  | append_singleton columns last ih =>
      rw [ColumnFunctions.on, List.map_append, List.map_singleton, lookup_setColumns_concat]
      rw [List.map_append, List.nodup_append] at distinct
      rcases List.mem_append.mp mem with earlier | same
      · have other : column.1 ≠ last.1 :=
          distinct.2.2 column.1 (List.mem_map_of_mem earlier) last.1 List.mem_cons_self
        rw [if_neg other]
        exact ih distinct.1 earlier
      · rw [List.mem_singleton] at same
        rw [same, if_pos rfl]

theorem lookup_setColumns_of_not_mem {key : String} (undeclared : key ∉ columns.map Prod.fst) :
    (setColumns ∅ (columns.on candles)).lookup key = none := by
  induction columns using List.reverseRecOn with
  | nil => rfl
  | append_singleton columns last ih =>
      rw [List.map_append, List.mem_append, not_or, List.map_singleton, List.mem_singleton]
        at undeclared
      rw [ColumnFunctions.on, List.map_append, List.map_singleton, lookup_setColumns_concat,
        if_neg undeclared.2]
      exact ih undeclared.1

/-- The backtest waits for the slowest indicator. -/
theorem StreamsAll.firstAllValidIndex_le_iff (streams : StreamsAll sqrt specs states columns)
    (distinct : (columns.map Prod.fst).Nodup) (within : i < candles.length) :
    firstAllValidIndex (setColumns ∅ (columns.on candles)) ≤ i ↔
      ∀ item ∈ specs, item.2.lag ≤ i := by
  have valid (index : ℕ) (inside : index < candles.length) :
      allValid (setColumns ∅ (columns.on candles)) index = true ↔
        ∀ item ∈ specs, item.2.lag ≤ index := by
    rw [allValid_iff, ← streams.available candles index inside]
    constructor
    · intro valid column mem
      exact valid column.1 _ (lookup_setColumns_of_mem distinct mem)
    · intro available key values found
      by_cases declared : key ∈ columns.map Prod.fst
      · rcases List.mem_map.mp declared with ⟨column, mem, rfl⟩
        rw [lookup_setColumns_of_mem distinct mem, Option.some.injEq] at found
        rw [← found]
        exact available column mem
      · rw [lookup_setColumns_of_not_mem declared] at found
        cases found
  rw [(hasLength_setColumns streams.causal candles).firstAllValidIndex_le_iff within]
  constructor
  · rintro ⟨earlier, before, reached⟩ item mem
    exact ((valid earlier (by omega)).mp reached item mem).trans before
  · intro late
    exact ⟨i, le_rfl, (valid i within).mpr late⟩

theorem FedWith.value_eq (streams : StreamsAll sqrt specs states columns)
    (distinct : (columns.map Prod.fst).Nodup)
    (fed : FedWith sqrt states columns (candles.take (i + 1)) view) (within : i < candles.length)
    (name : String) :
    view.indicatorView.value name =
      (batchIndicatorView (setColumns ∅ (columns.on candles)) i).value name := by
  simp only [LiveIndicatorView.indicatorView, batchIndicatorView]
  by_cases declared : name ∈ columns.map Prod.fst
  · rcases List.mem_map.mp declared with ⟨column, mem, rfl⟩
    have causal := streams.causal column mem
    have last : (column.2 (candles.take (i + 1))).getLast? = (column.2 candles)[i]? := by
      rw [List.getLast?_eq_getElem?, causal.length, List.length_take,
        Nat.min_eq_left (Nat.succ_le_of_lt within), Nat.succ_sub_one, ← causal.take,
        List.getElem?_take_of_lt (Nat.lt_succ_self i)]
    simp only [fed.latest column mem, lookup_setColumns_of_mem distinct mem, last]
  · simp only [(fed.others name declared).1, lookup_setColumns_of_not_mem declared]

theorem sliceFrom_eq_rtake {values : List ℚ} {n : ℤ} (positive : 1 ≤ n) :
    (if n < values.length then sliceFrom values (-n) else values) = values.rtake n.toNat := by
  rw [List.rtake, sliceFrom, if_pos (show -n < 0 by omega)]
  split_ifs with shorter
  · congr 1
    omega
  · rw [show values.length - n.toNat = 0 by omega, List.drop_zero]

/-- Both views read the same windows, as far as the history of a live view reaches. -/
theorem FedWith.window_eq (streams : StreamsAll sqrt specs states columns)
    (distinct : (columns.map Prod.fst).Nodup)
    (fed : FedWith sqrt states columns (candles.take (i + 1)) view) (within : i < candles.length)
    (name : String) {n : ℤ} (positive : 1 ≤ n) (bounded : n ≤ windowMaxlen) :
    view.indicatorView.window name n =
      (batchIndicatorView (setColumns ∅ (columns.on candles)) i).window name n := by
  simp only [LiveIndicatorView.indicatorView, batchIndicatorView]
  by_cases declared : name ∈ columns.map Prod.fst
  · rcases List.mem_map.mp declared with ⟨column, mem, rfl⟩
    have causal := streams.causal column mem
    rcases streams.warms column mem with ⟨lag, warms⟩
    have length : (column.2 (candles.take (i + 1))).length = i + 1 := by
      rw [causal.length, List.length_take, Nat.min_eq_left (Nat.succ_le_of_lt within)]
    have lo : (max 0 ((i : ℤ) - n + 1)).toNat = i + 1 - n.toNat := by omega
    have batch : (((column.2 candles).take (i + 1)).drop
        (max 0 ((i : ℤ) - n + 1)).toNat).reduceOption =
          (column.2 (candles.take (i + 1))).reduceOption.rtake n.toNat := by
      rw [causal.take, lo, ← (warms _).reduceOption_rtake, List.rtake, length]
    simp only [fed.history column mem, lookup_setColumns_of_mem distinct mem, batch]
    rw [sliceFrom_eq_rtake positive, rtake_rtake_of_le (by omega)]
  · simp only [(fed.others name declared).2, lookup_setColumns_of_not_mem declared]

end Batch

end PersonalTrade
