import PersonalTrade.Backtest.Window
import PersonalTrade.Library.Rounding

/-!
# Parameter sweeps

`backtest/sweep.py`: every combination of a grid is run from the first date to the
split date, and from the split date to the last. Both runs read the whole split day.
-/

namespace PersonalTrade

/-- `split_date`; the fraction is a double, and so are the difference and the product. -/
def splitDate (fromDate toDate : ℤ) (oosFraction : ℚ) : ℤ :=
  let totalDays := toDate - fromDate
  let inSampleDays := roundHalfEven (nearestDouble (totalDays * nearestDouble (1 - oosFraction)))
  fromDate + inSampleDays

/-- The double of 0.3 is below it: 45 days leave 31 for the first window, where the exact
product, half way, would leave 32. -/
example : splitDate 0 45 (nearestDouble (3 / 10)) = 31 := by decide +kernel

/-- `grid_combinations`; a dictionary is the list of its items. -/
def gridCombinations {α : Type} : List (String × List α) → List (List (String × α))
  | [] => [[]]
  | (name, values) :: grid =>
      values.flatMap fun value => (gridCombinations grid).map ((name, value) :: ·)

/-- A class of strategies: the validation of a combination by its `params_schema`, and its
constructor. -/
structure StrategyClass (α ρ σ : Type) where
  validate : List (String × α) → Except String ρ
  construct : ρ → FreshStrategy σ

/-- The error of a `SweepResult`. -/
inductive SweepError where
  | invalidParams (message : String)
  | raised (error : PyError)
deriving DecidableEq, Repr

/-- `SweepResult`, with the runs in place of their metrics. -/
structure SweepResult (α : Type) where
  params : List (String × α)
  inSample : Option (List SymbolResult) := none
  outOfSample : Option (List SymbolResult) := none
  error : Option SweepError := none

/-- The exception is a `PersonalTradeError` or a `ValueError`. -/
def PyError.isCaughtBySweep : PyError → Bool
  | .integrityError _ | .keyError _ | .indexError _ | .typeError _ | .attributeError _
  | .overflowError | .assertionError _ | .runtimeError _ | .strategyError _ => false
  | _ => true

variable {α ρ σ : Type}

/-- The runs of one combination on both windows. -/
def sweepCombo (sqrt : ℚ → ℚ) (setup : BacktestSetup) (strategyClass : StrategyClass α ρ σ)
    (fromDate split toDate : ℤ) (combo : List (String × α)) : Except PyError (SweepResult α) :=
  match strategyClass.validate combo with
  | .error message => .ok { params := combo, error := some (.invalidParams message) }
  | .ok params =>
      match runBacktestForSymbols sqrt setup (strategyClass.construct params) fromDate split with
      | .error raised =>
          if raised.isCaughtBySweep then .ok { params := combo, error := some (.raised raised) }
          else .error raised
      | .ok inSample =>
          match runBacktestForSymbols sqrt setup (strategyClass.construct params) split toDate with
          | .error raised =>
              if raised.isCaughtBySweep then
                .ok { params := combo, inSample, error := some (.raised raised) }
              else .error raised
          | .ok outOfSample => .ok { params := combo, inSample, outOfSample }

/-- `run_parameter_sweep`. -/
def runParameterSweep (sqrt : ℚ → ℚ) (setup : BacktestSetup)
    (strategyClass : StrategyClass α ρ σ) (grid : List (String × List α)) (fromDate toDate : ℤ)
    (oosFraction : ℚ := nearestDouble (3 / 10)) : Except PyError (List (SweepResult α)) :=
  if ¬ (0 < oosFraction ∧ oosFraction < 1) then
    .error (.invalidSweepGrid (.oosFraction oosFraction))
  else if gridCombinations grid = [] then .error (.invalidSweepGrid .noCombinations)
  else
    let split := splitDate fromDate toDate oosFraction
    if ¬ (fromDate < split ∧ split < toDate) then
      .error (.invalidSweepGrid (.noRoom oosFraction fromDate toDate))
    else
      (gridCombinations grid).mapM (sweepCombo sqrt setup strategyClass fromDate split toDate)

/-- The two runs of a combination share no candle, and the second is later than the first. -/
structure Separated (inSample outOfSample : List SymbolResult) : Prop where
  disjoint : ∀ first ∈ inSample, ∀ second ∈ outOfSample, first.symbol = second.symbol →
    ∀ row ∈ first.candles, row ∉ second.candles
  later : ∀ first ∈ inSample, ∀ second ∈ outOfSample,
    ∀ row ∈ first.candles, ∀ row' ∈ second.candles, row.ts < row'.ts

namespace BacktestSetup

variable {sqrt : ℚ → ℚ} {setup : BacktestSetup} {strategyClass : StrategyClass α ρ σ}
  {fromDate split toDate : ℤ}

theorem ran_of_sweepCombo {combo : List (String × α)} {result : SweepResult α}
    {inSample outOfSample : List SymbolResult}
    (swept : sweepCombo sqrt setup strategyClass fromDate split toDate combo = .ok result)
    (first : result.inSample = some inSample) (second : result.outOfSample = some outOfSample) :
    ∃ strategy : FreshStrategy σ,
      runBacktestForSymbols sqrt setup strategy fromDate split = .ok inSample ∧
      runBacktestForSymbols sqrt setup strategy split toDate = .ok outOfSample := by
  rw [sweepCombo] at swept
  split at swept
  · cases swept
    cases first
  · rename_i params _
    refine ⟨strategyClass.construct params, ?_⟩
    split at swept
    · split at swept <;> cases swept
      cases first
    · rename_i ran
      split at swept
      · split at swept <;> cases swept
        cases second
      · rename_i ran'
        cases swept
        cases first
        cases second
        exact ⟨ran, ran'⟩

/-- Runs on two windows that meet in one day are separated if and only if that day has no
candle. -/
theorem separated_iff {strategy : FreshStrategy σ} {inSample outOfSample : List SymbolResult}
    (before : fromDate ≤ split) (after : split ≤ toDate)
    (ran : runBacktestForSymbols sqrt setup strategy fromDate split = .ok inSample)
    (ran' : runBacktestForSymbols sqrt setup strategy split toDate = .ok outOfSample) :
    Separated inSample outOfSample ↔ ∀ symbol ∈ setup.symbols,
      ∀ row ∈ (setup.dataset symbol).rows, utcDate row.ts ≠ split := by
  have replays := exists_of_forall₂ (replays_of_ran ran)
  have replays' := exists_of_forall₂ (replays_of_ran ran')
  constructor
  · intro separated symbol mem row stored onSplit
    rcases replays.1 symbol mem with ⟨first, firstMem, replay⟩
    rcases replays'.1 symbol mem with ⟨second, secondMem, replay'⟩
    have inFirst : row ∈ first.candles := by
      rw [replay.candles, mem_rangeCandles, onSplit]
      exact ⟨stored, before, le_rfl⟩
    have inSecond : row ∈ second.candles := by
      rw [replay'.candles, mem_rangeCandles, onSplit]
      exact ⟨stored, le_rfl, after⟩
    exact lt_irrefl _ (separated.later first firstMem second secondMem row inFirst row inSecond)
  · intro vacant
    have later : ∀ first ∈ inSample, ∀ second ∈ outOfSample,
        ∀ row ∈ first.candles, ∀ row' ∈ second.candles, row.ts < row'.ts := by
      intro first firstMem second secondMem row inFirst row' inSecond
      rcases replays.2 first firstMem with ⟨symbol, mem, replay⟩
      rcases replays'.2 second secondMem with ⟨symbol', mem', replay'⟩
      rw [replay.candles, mem_rangeCandles] at inFirst
      rw [replay'.candles, mem_rangeCandles] at inSecond
      have early : utcDate row.ts < split :=
        lt_of_le_of_ne inFirst.2.2 (vacant symbol mem row inFirst.1)
      have late := inSecond.2.1
      simp only [utcDate, dayMs] at early late
      omega
    refine ⟨?_, later⟩
    intro first firstMem second secondMem _ row inFirst inSecond
    exact lt_irrefl _ (later first firstMem second secondMem row inFirst row inSecond)

end BacktestSetup

/-- In an accepted sweep the two runs of a combination are separated if and only if no stored
candle of the symbols is of the split day. -/
theorem runParameterSweep_separated_iff {sqrt : ℚ → ℚ} {setup : BacktestSetup}
    {strategyClass : StrategyClass α ρ σ} {grid : List (String × List α)} {fromDate toDate : ℤ}
    {oosFraction : ℚ} {results : List (SweepResult α)}
    (swept : runParameterSweep sqrt setup strategyClass grid fromDate toDate oosFraction =
      .ok results) {result : SweepResult α} (mem : result ∈ results)
    {inSample outOfSample : List SymbolResult} (first : result.inSample = some inSample)
    (second : result.outOfSample = some outOfSample) :
    Separated inSample outOfSample ↔ ∀ symbol ∈ setup.symbols,
      ∀ row ∈ (setup.dataset symbol).rows,
        utcDate row.ts ≠ splitDate fromDate toDate oosFraction := by
  rw [runParameterSweep] at swept
  split at swept
  · cases swept
  · split at swept
    · cases swept
    · simp only at swept
      split at swept
      · cases swept
      · rename_i room
        rw [not_not] at room
        rcases (exists_of_forall₂ (forall₂_of_mapM swept)).2 result mem with ⟨combo, _, made⟩
        rcases BacktestSetup.ran_of_sweepCombo made first second with ⟨strategy, ran, ran'⟩
        exact BacktestSetup.separated_iff room.1.le room.2.le ran ran'

/-- A class of strategies without parameters that never trade. -/
def idleClass : StrategyClass ℤ Unit Unit := ⟨fun _ => .ok (), fun _ => idleStrategy⟩

/-- The candles that each combination of a sweep replayed. -/
def sweptCandles (sweep : Except PyError (List (SweepResult α))) :
    Option (List (Option (List (List CandleRow)) × Option (List (List CandleRow)))) :=
  sweep.toOption.map (·.map fun result =>
    (result.inSample.map (·.map SymbolResult.candles),
      result.outOfSample.map (·.map SymbolResult.candles)))

theorem swept_of_sweptCandles {sweep : Except PyError (List (SweepResult α))}
    {first second : List (List CandleRow)}
    (swept : sweptCandles sweep = some [(some first, some second)]) :
    ∃ result inSample outOfSample, sweep = .ok [result] ∧ result.inSample = some inSample ∧
      result.outOfSample = some outOfSample ∧ inSample.map SymbolResult.candles = first ∧
      outOfSample.map SymbolResult.candles = second := by
  rcases exists_of_toOption _ swept with ⟨results, ran, shown⟩
  simp only [List.map_eq_singleton_iff, Prod.mk.injEq, Option.map_eq_some_iff] at shown
  rcases shown with ⟨result, rfl, ⟨inSample, inSampleEq, first⟩, outOfSample, outEq, second⟩
  exact ⟨result, inSample, outOfSample, ran, inSampleEq, outEq, first, second⟩

/-- Daily candles with a weekend on the split day. -/
def weekendSetup : BacktestSetup :=
  { dailySetup with
    candleStore _ := Dataset.missing.write [dailyBar 11 100, dailyBar 12 101, dailyBar 15 102] }

theorem runParameterSweep_separated_iff_sample :
    ∃ result inSample outOfSample,
      runParameterSweep id weekendSetup idleClass [] 9 16 (1 / 2) = .ok [result] ∧
      result.inSample = some inSample ∧ result.outOfSample = some outOfSample ∧
      Separated inSample outOfSample := by
  have swept : sweptCandles (runParameterSweep id weekendSetup idleClass [] 9 16 (1 / 2)) =
      some [(some [[dailyBar 11 100, dailyBar 12 101]], some [[dailyBar 15 102]])] := by
    decide +kernel
  rcases swept_of_sweptCandles swept with ⟨result, inSample, outOfSample, ran, first, second, _⟩
  refine ⟨result, inSample, outOfSample, ran, first, second, ?_⟩
  apply (runParameterSweep_separated_iff ran List.mem_cons_self first second).mpr
  intro symbol _
  change ∀ row ∈ (Dataset.missing.write _).rows, _
  decide +kernel

/-- The last daily candle of a sweep is replayed in both windows. -/
theorem splitDay_shared :
    ∃ result inSample outOfSample,
      runParameterSweep id dailySetup idleClass [] 8 13 = .ok [result] ∧
      result.inSample = some inSample ∧ result.outOfSample = some outOfSample ∧
      inSample.map SymbolResult.candles =
        [[dailyBar 11 100, dailyBar 12 101, dailyBar 13 102]] ∧
      outOfSample.map SymbolResult.candles = [[dailyBar 13 102]] ∧
      ¬ Separated inSample outOfSample := by
  have swept : sweptCandles (runParameterSweep id dailySetup idleClass [] 8 13) =
      some [(some [[dailyBar 11 100, dailyBar 12 101, dailyBar 13 102]],
        some [[dailyBar 13 102]])] := by decide +kernel
  rcases swept_of_sweptCandles swept with
    ⟨result, inSample, outOfSample, ran, first, second, candles, candles'⟩
  refine ⟨result, inSample, outOfSample, ran, first, second, candles, candles', ?_⟩
  intro separated
  rcases List.map_eq_singleton_iff.mp candles with ⟨training, rfl, trained⟩
  rcases List.map_eq_singleton_iff.mp candles' with ⟨testing, rfl, tested⟩
  have later := separated.later training List.mem_cons_self testing List.mem_cons_self
    (dailyBar 13 102) (by simp [trained]) (dailyBar 13 102) (by simp [tested])
  exact lt_irrefl _ later

end PersonalTrade
