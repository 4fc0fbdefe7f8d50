import PersonalTrade.Library.Run
import PersonalTrade.Orchestrator.Lockstep

/-!
# The live context

What a live runner presents to its strategy. The candles come from a buffer that is sorted and
loses repeated times when it is read, the indicators and the index from every candle in the order
of its delivery. The two agree while each candle is later than the ones before it
(`liveContext_consistent`).
-/

namespace PersonalTrade

variable {σ : Type}

/-! ## Values under shared keys -/

/-- What a view shows after some candles, where a key that several declarations share holds the
value of the last of them. -/
structure ShowsLatest (sqrt : ℚ → ℚ) (states : List (String × IndicatorState))
    (columns : ColumnFunctions) (seen : List CandleRow) (view : LiveIndicatorView) : Prop where
  states : view.states = states.map fun item =>
    (item.1, finalState (IndicatorState.update sqrt) item.2 seen)
  latest : ∀ key, view.latest.lookup key =
    ((setColumns ∅ (columns.on seen)).lookup key).map fun values => values.getLast?.join

section View

variable {sqrt : ℚ → ℚ} {specs : List (String × IndicatorSpec)}
  {states : List (String × IndicatorState)} {columns : ColumnFunctions} {seen : List CandleRow}
  {view : LiveIndicatorView} {key : String}

theorem ColumnFunctions.on_concat (columns : ColumnFunctions)
    (last : String × (List CandleRow → Series)) (candles : List CandleRow) :
    ColumnFunctions.on (columns ++ [last]) candles =
      columns.on candles ++ [(last.1, last.2 candles)] := by
  simp [ColumnFunctions.on]

/-- The declared keys are the same for every frame. -/
theorem isSome_lookup_setColumns (key : String) (columns : ColumnFunctions)
    (candles : List CandleRow) :
    ((setColumns ∅ (columns.on candles)).lookup key).isSome = decide (key ∈ columns.map Prod.fst) := by
  induction columns using List.reverseRecOn with
  | nil => rfl
  | append_singleton columns last ih =>
      rw [ColumnFunctions.on_concat, lookup_setColumns_concat]
      by_cases same : key = last.1
      · simp [same]
      · rw [if_neg same, ih]
        simp [same]

/-- What is stored last under a key stays. -/
theorem lookup_foldl_store (columns : ColumnFunctions) (candles : List CandleRow)
    (view : LiveIndicatorView) :
    ((columns.map fun column => (column.1, (column.2 candles).getLast?.join)).foldl
        LiveIndicatorView.store view).latest.lookup key =
      match (setColumns ∅ (columns.on candles)).lookup key with
      | some values => some values.getLast?.join
      | none => view.latest.lookup key := by
  induction columns using List.reverseRecOn with
  | nil => rfl
  | append_singleton columns last ih =>
      rw [ColumnFunctions.on_concat, lookup_setColumns_concat, List.map_append, List.foldl_append]
      by_cases same : key = last.1
      · subst same
        rw [if_pos rfl]
        exact AList.lookup_insert _
      · rw [if_neg same, ← ih]
        exact LiveIndicatorView.latest_store_of_ne same

theorem showsLatest_of_new (made : LiveIndicatorView.new specs = .ok view)
    (streams : StreamsAll sqrt specs view.states columns) :
    ShowsLatest sqrt view.states columns [] view := by
  rcases except_bind_eq_ok.mp made with ⟨states, _, ⟨⟩⟩
  constructor
  · simp [finalState]
  · intro key
    have declared := isSome_lookup_setColumns key columns []
    rw [LiveIndicatorView.lookup_foldl_insert, ← streams.keys]
    cases found : (setColumns ∅ (columns.on [])).lookup key with
    | none =>
        rw [found] at declared
        rw [if_neg (of_decide_eq_false declared.symm)]
        rfl
    | some values =>
        rw [found] at declared
        have empty : values = [] :=
          List.length_eq_zero_iff.mp (hasLength_setColumns streams.causal [] key values found)
        rw [if_pos (of_decide_eq_true declared.symm), empty]
        rfl

theorem ShowsLatest.update (streams : StreamsAll sqrt specs states columns)
    (shows : ShowsLatest sqrt states columns seen view) (candle : CandleRow) :
    ShowsLatest sqrt states columns (seen ++ [candle]) (view.update sqrt candle) := by
  have updated : view.update sqrt candle =
      (columns.map fun column => (column.1, (column.2 (seen ++ [candle])).getLast?.join)).foldl
        LiveIndicatorView.store { view with states := states.map fun item =>
          (item.1, finalState (IndicatorState.update sqrt) item.2 (seen ++ [candle])) } := by
    simp only [LiveIndicatorView.update, shows.states, List.map_map, List.flatMap_map,
      Function.comp_def, finalState_concat]
    rw [streams.live]
  rw [updated]
  constructor
  · rw [LiveIndicatorView.states_foldl_store]
  · intro key
    rw [lookup_foldl_store]
    have before := isSome_lookup_setColumns key columns seen
    have after := isSome_lookup_setColumns key columns (seen ++ [candle])
    cases found : (setColumns ∅ (columns.on (seen ++ [candle]))).lookup key with
    | some values => rfl
    | none =>
        rw [found, ← before] at after
        have absent : (setColumns ∅ (columns.on seen)).lookup key = none := by
          simpa using after.symm
        simp only [shows.latest, absent, Option.map_none]

/-- The values of a live view are those of the batch view at the last row. -/
theorem ShowsLatest.value_eq (streams : StreamsAll sqrt specs states columns)
    (shows : ShowsLatest sqrt states columns seen view) {index : ℕ}
    (length : seen.length = index + 1) (name : String) :
    view.indicatorView.value name =
      (batchIndicatorView (setColumns ∅ (columns.on seen)) index).value name := by
  simp only [LiveIndicatorView.indicatorView, batchIndicatorView, shows.latest]
  cases found : (setColumns ∅ (columns.on seen)).lookup name with
  | none => rfl
  | some values =>
      have width := hasLength_setColumns streams.causal seen name values found
      simp only [Option.map_some, List.getLast?_eq_getElem?, width, length, Nat.add_sub_cancel]

end View

/-! ## What the strategy sees -/

/-- A context is consistent: its candles are as many as the index says and end with the delivered
one, and its values are the batch indicators of its candles at the last row. -/
structure StrategyContext.Consistent (sqrt : ℚ → ℚ) (specs : List (String × IndicatorSpec))
    (delivered : CandleReceived) (context : StrategyContext) : Prop where
  rows : context.candles.length = context.index + 1
  ts : context.ts = delivered.ts
  current : context.candles.getLast? = some delivered.row
  batch : ∃ series, computeIndicatorSet sqrt context.candles specs ∅ = .ok series ∧
    ∀ name, context.indicators.value name =
      (batchIndicatorView series (context.candles.length - 1)).value name

namespace LiveStrategyRunner

/-- The context that `on_candle` gives to the strategy, if it calls it. -/
def presented (sqrt : ℚ → ℚ) (runner : LiveStrategyRunner σ) (candle : CandleReceived)
    (position : PositionView) : Option StrategyContext :=
  let received := runner.receive sqrt candle
  if (received.barCount : ℤ) < received.strategy.warmupBars then none
  else if received.indicators.allWarm = false then none
  else some (received.context candle position)

/-- `on_candle` calls the strategy with what is presented, and with nothing else. -/
theorem onCandle_eq (sqrt : ℚ → ℚ) (runner : LiveStrategyRunner σ) (candle : CandleReceived)
    (position : PositionView) : runner.onCandle sqrt candle position =
      match runner.presented sqrt candle position with
      | none => pure (none, runner.receive sqrt candle)
      | some context =>
          runner.strategy.onCandle context runner.memory >>= fun decision =>
            pure (decision.1, { runner.receive sqrt candle with memory := decision.2 }) := by
  simp only [onCandle, presented]
  split_ifs <;> rfl

/-- A delivery. What the runner has received stays when the strategy raises. -/
def deliver (sqrt : ℚ → ℚ) (runner : LiveStrategyRunner σ)
    (delivery : CandleReceived × PositionView) : LiveStrategyRunner σ :=
  match runner.onCandle sqrt delivery.1 delivery.2 with
  | .ok (_, called) => called
  | .error _ => runner.receive sqrt delivery.1

/-- A delivery changes nothing but the memory after the candle is received. -/
theorem exists_deliver_eq (sqrt : ℚ → ℚ) (runner : LiveStrategyRunner σ)
    (delivery : CandleReceived × PositionView) :
    ∃ memory, runner.deliver sqrt delivery = { runner.receive sqrt delivery.1 with memory } := by
  rw [deliver, onCandle_eq]
  cases runner.presented sqrt delivery.1 delivery.2 with
  | none => exact ⟨runner.memory, rfl⟩
  | some context =>
      simp only
      cases runner.strategy.onCandle context runner.memory with
      | error raised => exact ⟨runner.memory, rfl⟩
      | ok decision => exact ⟨decision.2, rfl⟩

/-- A runner to which some candles were delivered. -/
structure Received (sqrt : ℚ → ℚ) (strategy : Strategy σ) (states : List (String × IndicatorState))
    (columns : ColumnFunctions) (delivered : List CandleReceived) (runner : LiveStrategyRunner σ) :
    Prop where
  strategy : runner.strategy = strategy
  buffer : runner.buffer = delivered.map CandleReceived.row
  indicators : ShowsLatest sqrt states columns (delivered.map CandleReceived.row) runner.indicators
  barCount : runner.barCount = delivered.length

section Deliveries

variable {sqrt : ℚ → ℚ} {strategy : Strategy σ} {states : List (String × IndicatorState)}
  {columns : ColumnFunctions} {delivered : List CandleReceived} {runner : LiveStrategyRunner σ}
  {candle : CandleReceived} {position : PositionView}

theorem Received.receive
    (streams : StreamsAll sqrt strategy.requiredIndicators states columns)
    (received : Received sqrt strategy states columns delivered runner) (memory : σ) :
    Received sqrt strategy states columns (delivered ++ [candle])
      { runner.receive sqrt candle with memory } where
  strategy := received.strategy
  buffer := by
    simp only [LiveStrategyRunner.receive, received.buffer, List.map_append, List.map_singleton]
  indicators := by
    rw [List.map_append]
    exact received.indicators.update streams candle.row
  barCount := by
    simp only [LiveStrategyRunner.receive, received.barCount, List.length_append,
      List.length_singleton]

theorem exists_received (sqrt : ℚ → ℚ) {memory : σ} (created : new strategy memory = .ok runner) :
    ∃ columns, StreamsAll sqrt strategy.requiredIndicators runner.indicators.states columns ∧
      ∀ deliveries : List (CandleReceived × PositionView),
        Received sqrt strategy runner.indicators.states columns (deliveries.map Prod.fst)
          (runSteps (deliver sqrt) runner deliveries) := by
  rcases except_bind_eq_ok.mp created with ⟨view, made, ⟨⟩⟩
  rcases streamsAll_of_new made with ⟨columns, streams⟩
  refine ⟨columns, streams, fun deliveries => ?_⟩
  induction deliveries using List.reverseRecOn with
  | nil => exact ⟨rfl, rfl, showsLatest_of_new made streams, rfl⟩
  | append_singleton deliveries delivery ih =>
      rw [runSteps_concat, List.map_append]
      rcases exists_deliver_eq sqrt (runSteps (deliver sqrt) _ deliveries) delivery with
        ⟨memory, after⟩
      rw [after]
      exact ih.receive streams memory

/-- What is presented after a candle. -/
theorem Received.context_of_presented
    (received : Received sqrt strategy states columns delivered runner) {context : StrategyContext}
    (presents : runner.presented sqrt candle position = some context) :
    context = (runner.receive sqrt candle).context candle position ∧
      context.index = delivered.length ∧
      context.candles = LiveCandleBuffer.frame ((delivered ++ [candle]).map CandleReceived.row) := by
  simp only [presented] at presents
  split_ifs at presents with early cold
  rw [Option.some.injEq] at presents
  subst context
  refine ⟨rfl, ?_, ?_⟩
  · simp [LiveStrategyRunner.context, LiveStrategyRunner.receive, received.barCount]
  · simp only [LiveStrategyRunner.context, LiveStrategyRunner.receive, received.buffer,
      List.map_append, List.map_singleton]

/-- Candles that ascend in time are presented as they were delivered. -/
theorem Received.consistent
    (streams : StreamsAll sqrt strategy.requiredIndicators states columns)
    (received : Received sqrt strategy states columns delivered runner)
    (ascending : (delivered ++ [candle]).Pairwise (·.ts < ·.ts)) {context : StrategyContext}
    (presents : runner.presented sqrt candle position = some context) :
    context.Consistent sqrt strategy.requiredIndicators candle := by
  rcases received.context_of_presented presents with ⟨contextEq, index, candles⟩
  have contract : FrameContract ((delivered ++ [candle]).map CandleReceived.row) :=
    List.pairwise_map.mpr ascending
  rw [frame_of_contract contract] at candles
  have length : ((delivered ++ [candle]).map CandleReceived.row).length = delivered.length + 1 := by
    simp
  refine ⟨?_, ?_, ?_, ?_⟩
  · rw [candles, index, length]
  · rw [contextEq]
    rfl
  · rw [candles]
    simp
  · refine ⟨_, streams.batch _ ∅, fun name => ?_⟩
    have shows : ShowsLatest sqrt states columns ((delivered ++ [candle]).map CandleReceived.row)
        (runner.receive sqrt candle).indicators :=
      (received.receive streams runner.memory).indicators
    rw [candles, length, Nat.add_sub_cancel, contextEq]
    exact shows.value_eq streams length name

/-- A context is consistent only where the candle is later than all before it. -/
theorem Received.later_of_consistent
    (received : Received sqrt strategy states columns delivered runner) {context : StrategyContext}
    (presents : runner.presented sqrt candle position = some context)
    {specs : List (String × IndicatorSpec)} (consistent : context.Consistent sqrt specs candle) :
    ∀ earlier ∈ delivered, earlier.ts < candle.ts := by
  rcases received.context_of_presented presents with ⟨_, index, candles⟩
  have frame : context.candles =
      normalizeCandleFrame ((delivered ++ [candle]).map CandleReceived.row) := by
    rw [candles, LiveCandleBuffer.frame, if_neg (by simp)]
  have length := consistent.rows
  have last := consistent.current
  rw [frame] at length last
  -- as many rows as candles, so no time was repeated
  have whole : dropDuplicates ((delivered ++ [candle]).map CandleReceived.row) =
      (delivered ++ [candle]).map CandleReceived.row := by
    refine (List.pwFilter_sublist _).eq_of_length ?_
    rw [normalizeCandleFrame, sortByTs, List.length_insertionSort, index] at length
    rw [← dropDuplicates, length]
    simp
  have apart : ((delivered ++ [candle]).map CandleReceived.row).Pairwise (·.ts ≠ ·.ts) :=
    List.pwFilter_eq_self.mp whole
  intro earlier mem
  have inside : earlier.row ∈ normalizeCandleFrame
      ((delivered ++ [candle]).map CandleReceived.row) := by
    rw [normalizeCandleFrame, whole, mem_sortByTs]
    exact List.mem_map_of_mem (List.mem_append_left _ mem)
  have distinct : earlier.row.ts ≠ candle.row.ts := by
    rw [List.map_append, List.pairwise_append] at apart
    exact apart.2.2 _ (List.mem_map_of_mem mem) _ (by simp)
  -- the frame ascends, and the candle stands at its end
  have contract := frameContract_normalize ((delivered ++ [candle]).map CandleReceived.row)
  rcases List.getLast?_eq_some_iff.mp last with ⟨front, split⟩
  rw [split] at inside contract
  rcases List.mem_append.mp inside with before | same
  · exact (List.pairwise_append.mp contract).2.2 _ before candle.row (List.mem_singleton_self _)
  · rw [List.mem_singleton] at same
    exact absurd (congrArg CandleRow.ts same) distinct

end Deliveries

end LiveStrategyRunner

/-- Where each delivered candle is later than the ones before it, every context that the runner
presents is consistent; and a context is consistent only where the delivered candle is later than
every candle before it. -/
theorem liveContext_consistent (sqrt : ℚ → ℚ) {strategy : Strategy σ} {memory : σ}
    {runner : LiveStrategyRunner σ} (created : LiveStrategyRunner.new strategy memory = .ok runner) :
    (∀ deliveries : List (CandleReceived × PositionView),
      (deliveries.map Prod.fst).Pairwise (·.ts < ·.ts) →
      ∀ made ∈ runTrace (LiveStrategyRunner.deliver sqrt) runner deliveries, ∀ context,
        made.1.presented sqrt made.2.1 made.2.2 = some context →
        context.Consistent sqrt strategy.requiredIndicators made.2.1) ∧
      ∀ (deliveries : List (CandleReceived × PositionView)) (candle : CandleReceived)
        (position : PositionView) (context : StrategyContext),
        (runSteps (LiveStrategyRunner.deliver sqrt) runner deliveries).presented sqrt candle
          position = some context →
        context.Consistent sqrt strategy.requiredIndicators candle →
        ∀ earlier ∈ deliveries.map Prod.fst, earlier.ts < candle.ts := by
  rcases LiveStrategyRunner.exists_received sqrt created with ⟨columns, streams, received⟩
  constructor
  · intro deliveries ascending made mem context presents
    rcases exists_of_mem_runTrace mem with ⟨before, after, split, state⟩
    have upTo : (before.map Prod.fst ++ [made.2.1]).Pairwise (·.ts < ·.ts) := by
      rw [split, List.map_append, List.map_cons, List.append_cons] at ascending
      exact (List.pairwise_append.mp ascending).1
    rw [state] at presents
    exact (received before).consistent streams upTo presents
  · intro deliveries candle position context presents consistent
    exact (received deliveries).later_of_consistent presents consistent

/-- A crossover of two short averages. -/
def shortCrossover : Strategy Unit := smaCrossover .shortest

/-- The index and the number of rows of what is presented after two candles and a third. -/
def thirdContext (thirdTs : ℤ) : Option (ℕ × ℕ) := do
  let runner ← (LiveStrategyRunner.new shortCrossover ()).toOption
  let context ← (runSteps (LiveStrategyRunner.deliver id) runner
    (flatFeed [flatBar 0 10, flatBar 1 10])).presented id
      ((flatBar thirdTs 50).received "NSE_EQ|INFY" .m1) flatPosition
  pure (context.index, context.candles.length)

theorem exists_of_thirdContext {thirdTs : ℤ} {shown : ℕ × ℕ}
    (third : thirdContext thirdTs = some shown) :
    ∃ runner context, LiveStrategyRunner.new shortCrossover () = .ok runner ∧
      (runSteps (LiveStrategyRunner.deliver id) runner
        (flatFeed [flatBar 0 10, flatBar 1 10])).presented id
          ((flatBar thirdTs 50).received "NSE_EQ|INFY" .m1) flatPosition = some context ∧
      (context.index, context.candles.length) = shown := by
  simp only [thirdContext, Option.bind_eq_bind, Option.bind_eq_some_iff] at third
  rcases third with ⟨runner, created, context, presents, read⟩
  rcases exists_of_toOption id (by rw [created, Option.map_some, id]) with ⟨_, made, rfl⟩
  exact ⟨_, context, made, presents, Option.some.inj read⟩

theorem liveContext_consistent_sample :
    ∃ runner context, LiveStrategyRunner.new shortCrossover () = .ok runner ∧
      (runSteps (LiveStrategyRunner.deliver id) runner
        (flatFeed [flatBar 0 10, flatBar 1 10])).presented id
          ((flatBar 2 50).received "NSE_EQ|INFY" .m1) flatPosition = some context ∧
      context.Consistent id shortCrossover.requiredIndicators
        ((flatBar 2 50).received "NSE_EQ|INFY" .m1) := by
  have third : thirdContext 2 = some (2, 3) := by decide +kernel
  rcases exists_of_thirdContext third with ⟨runner, context, created, presents, _⟩
  refine ⟨runner, context, created, presents, ?_⟩
  exact (liveContext_consistent id created).1 (flatFeed [flatBar 0 10, flatBar 1 10, flatBar 2 50])
    (by decide) _ (mem_runTrace _ runner (flatFeed [flatBar 0 10, flatBar 1 10]) _ []) context
    presents

/-- A candle that repeats the time of the one before it: the index counts three bars, the frame
has two rows. -/
theorem repeatedCandle_inconsistent :
    ∃ runner context, LiveStrategyRunner.new shortCrossover () = .ok runner ∧
      (runSteps (LiveStrategyRunner.deliver id) runner
        (flatFeed [flatBar 0 10, flatBar 1 10])).presented id
          ((flatBar 1 50).received "NSE_EQ|INFY" .m1) flatPosition = some context ∧
      ¬ context.Consistent id shortCrossover.requiredIndicators
        ((flatBar 1 50).received "NSE_EQ|INFY" .m1) := by
  have third : thirdContext 1 = some (2, 2) := by decide +kernel
  rcases exists_of_thirdContext third with ⟨runner, context, created, presents, read⟩
  refine ⟨runner, context, created, presents, fun consistent => ?_⟩
  have rows := consistent.rows
  rw [Prod.mk.injEq] at read
  rw [read.1, read.2] at rows
  cases rows

end PersonalTrade
