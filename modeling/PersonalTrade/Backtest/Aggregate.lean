import PersonalTrade.Backtest.Causality
import PersonalTrade.Backtest.Metrics
import PersonalTrade.Backtest.Symbols
import PersonalTrade.Data.CandleMap
import PersonalTrade.Library.Filling

/-!
# Portfolio equity

`_aggregate_equity` of `backtest/run.py` over exact rationals: the equity curves of the symbols
stand side by side as columns over the union of their timestamps, are filled forwards and backwards,
and are added up. Filling backwards is right because a backtest marks its first bar before it can
have traded: the first point of its curve is the starting capital.
-/

namespace PersonalTrade

open LastWrite

/-- `DataFrame.sum(axis=1)`, which leaves gaps out. -/
def rowSums (count : ℕ) (columns : List Series) : List ℚ :=
  (List.range count).map fun row => (columns.map fun column => column[row]?.join.getD 0).sum

/-- The sorted index of some equity curves side by side. -/
def unionIndex (frames : List (List EquityPoint)) : List ℤ :=
  (frames.flatten.map EquityPoint.ts).dedup.insertionSort (· ≤ ·)

/-- An equity curve as a column over an index. -/
def equityColumn (index : List ℤ) (curve : List EquityPoint) : Series :=
  index.map fun ts => (lastWith EquityPoint.ts curve ts).map EquityPoint.equity

/-- `_aggregate_equity`. -/
def aggregateEquity (perSymbol : List SymbolResult) : EquitySeries :=
  let frames := (perSymbol.map fun symbol => symbol.result.equityCurve).filter (· ≠ [])
  if frames = [] then []
  else
    let index := unionIndex frames
    let combined := frames.map fun curve => bfill (ffill (equityColumn index curve))
    index.zip (rowSums index.length combined)

/-! ## The curve of a backtest -/

section Curve

variable {σ : Type} {run : BacktestRun σ} {state final : Replay σ}

theorem BacktestRun.bar_curve {bar : CandleRow × ℕ} (ok : run.bar state bar = .ok final) :
    ∃ point, final.equityCurve = state.equityCurve ++ [point] ∧ point.ts = bar.1.ts := by
  rcases run.bar_records ok with ⟨executed, _, _, curve, same, _⟩
  rw [curve, Replay.mark, same]
  exact ⟨_, rfl, rfl⟩

/-- A replay adds a point for each bar. -/
theorem BacktestRun.replay_curve {bars : List (CandleRow × ℕ)}
    (ok : run.replay state bars = .ok final) :
    ∃ points, final.equityCurve = state.equityCurve ++ points ∧
      points.map EquityPoint.ts = bars.map fun bar => bar.1.ts := by
  induction bars generalizing state with
  | nil =>
      cases ok
      exact ⟨[], (List.append_nil _).symm, rfl⟩
  | cons bar bars ih =>
      rw [replay, List.foldlM_cons] at ok
      rcases except_bind_eq_ok.mp ok with ⟨middle, turned, rest⟩
      rcases bar_curve turned with ⟨point, added, at_bar⟩
      rcases ih rest with ⟨points, appended, timestamps⟩
      exact ⟨point :: points, by rw [appended, added, List.append_assoc, List.singleton_append],
        by rw [List.map_cons, List.map_cons, at_bar, timestamps]⟩

/-- The first bar is marked with the starting capital. -/
theorem BacktestRun.first_bar_curve {memory : σ} {bar : CandleRow × ℕ}
    (ok : run.bar (run.initial memory) bar = .ok final) :
    final.equityCurve.map EquityPoint.equity = [run.params.initialCapital] := by
  rcases run.bar_records ok with ⟨executed, executedOk, _, curve, _⟩
  rw [initial, Replay.executePending] at executedOk
  cases executedOk
  rw [curve]
  simp [Replay.mark, Portfolio.equity]

theorem curve_of_ran {sqrt : ℚ → ℚ} {strategy : Strategy σ} {memory after : σ}
    {candles : List CandleRow} {params : BacktestParams} {result : BacktestResult}
    (ran : runBacktest sqrt strategy memory candles params = .ok (result, after)) :
    result.equityCurve.map EquityPoint.ts = candles.map CandleRow.ts ∧
      result.equityCurve.head?.map EquityPoint.equity = some params.initialCapital := by
  rcases except_bind_eq_ok.mp ran with ⟨run, started, ran⟩
  rcases except_bind_eq_ok.mp ran with ⟨final, replayed, made⟩
  cases made
  rcases BacktestRun.start_eq_ok started with ⟨nonempty, _, _, _, rfl⟩
  rcases List.exists_cons_of_ne_nil nonempty with ⟨first, rest, rfl⟩
  have bars : (first :: rest).zipIdx = (first, 0) :: rest.zipIdx 1 := rfl
  constructor
  · rcases BacktestRun.replay_curve replayed with ⟨points, appended, timestamps⟩
    have whole : (first :: rest).zipIdx.map (fun bar => bar.1.ts) =
        (first :: rest).map CandleRow.ts := by
      rw [← List.zipIdx_map_fst 0 (first :: rest), List.map_map]
      simp
    rw [appended, List.map_append, timestamps, whole]
    rfl
  · rw [bars, BacktestRun.replay, List.foldlM_cons] at replayed
    rcases except_bind_eq_ok.mp replayed with ⟨middle, turned, following⟩
    rcases BacktestRun.replay_curve following with ⟨points, appended, _⟩
    have marked := BacktestRun.first_bar_curve turned
    rw [appended, ← List.head?_map, List.map_append, marked]
    rfl

end Curve

/-! ## Portfolios -/

/-- What a backtest returned for a symbol on candles with ascending timestamps. -/
structure Backtested (sqrt : ℚ → ℚ) where
  symbol : SymbolResult
  capital : ℚ
  ascending : FrameContract symbol.candles
  ran : ∃ (σ : Type) (strategy : Strategy σ) (memory after : σ) (params : BacktestParams),
    params.initialCapital = capital ∧
      runBacktest sqrt strategy memory symbol.candles params = .ok (symbol.result, after)

namespace Backtested

variable {sqrt : ℚ → ℚ} (backtested : Backtested sqrt)

/-- The equity curve. -/
def curve : List EquityPoint := backtested.symbol.result.equityCurve

/-- The equity at the latest point up to a time, and the starting capital before the first one. -/
def equityAt (time : ℤ) : ℚ :=
  ((backtested.curve.filter (·.ts ≤ time)).getLast?.map EquityPoint.equity).getD backtested.capital

theorem curve_ascending : backtested.curve.Pairwise (·.ts < ·.ts) := by
  rcases backtested.ran with ⟨σ, strategy, memory, after, params, _, ran⟩
  have timestamps := (curve_of_ran ran).1
  have ascending : (backtested.symbol.candles.map CandleRow.ts).Pairwise (· < ·) :=
    List.pairwise_map.mpr backtested.ascending
  rw [← timestamps] at ascending
  exact List.pairwise_map.mp ascending

theorem head?_curve : backtested.curve.head?.map EquityPoint.equity = some backtested.capital := by
  rcases backtested.ran with ⟨σ, strategy, memory, after, params, capital, ran⟩
  rw [← capital]
  exact (curve_of_ran ran).2

theorem curve_ne_nil : backtested.curve ≠ [] := by
  intro empty
  have first := backtested.head?_curve
  rw [empty] at first
  cases first

/-- The filled column of a symbol. -/
theorem column_eq {index : List ℤ} (ascending : index.Pairwise (· < ·))
    (covered : ∀ point ∈ backtested.curve, point.ts ∈ index) :
    bfill (ffill (equityColumn index backtested.curve)) =
      index.map fun time => some (backtested.equityAt time) := by
  rw [equityColumn, bfill_ffill_observations ascending backtested.curve_ascending covered]
  apply List.map_congr_left
  intro time _
  rw [Option.map_or, backtested.head?_curve, equityAt]
  cases ((backtested.curve.filter (·.ts ≤ time)).getLast?).map EquityPoint.equity <;> rfl

end Backtested

theorem rowSums_map {index : List ℤ} {values : List (ℤ → ℚ)} :
    rowSums index.length (values.map fun value => index.map fun time => some (value time)) =
      index.map fun time => (values.map (· time)).sum := by
  apply List.ext_getElem?
  intro row
  by_cases within : row < index.length
  · simp [rowSums, within, Function.comp_def]
  · simp [rowSums, within]

theorem mem_unionIndex {frames : List (List EquityPoint)} {time : ℤ} :
    time ∈ unionIndex frames ↔ ∃ curve ∈ frames, ∃ point ∈ curve, point.ts = time := by
  simp only [unionIndex, List.mem_insertionSort, List.mem_dedup, List.mem_map, List.mem_flatten]
  aesop

theorem unionIndex_ascending (frames : List (List EquityPoint)) :
    (unionIndex frames).Pairwise (· < ·) := by
  have sorted : (unionIndex frames).Pairwise (· ≤ ·) := List.pairwise_insertionSort _ _
  have distinct : (unionIndex frames).Nodup :=
    (List.perm_insertionSort _ _).nodup_iff.mpr (List.nodup_dedup _)
  exact (sorted.and distinct).imp fun both => lt_of_le_of_ne both.1 both.2

section

variable {sqrt : ℚ → ℚ} (backtests : List (Backtested sqrt))

theorem aggregateEquity_eq : aggregateEquity (backtests.map Backtested.symbol) =
    (unionIndex (backtests.map Backtested.curve)).map fun time =>
      (time, (backtests.map (·.equityAt time)).sum) := by
  have frames : ((backtests.map Backtested.symbol).map fun symbol =>
      symbol.result.equityCurve).filter (· ≠ []) = backtests.map Backtested.curve := by
    rw [List.map_map]
    apply List.filter_eq_self.mpr
    intro curve mem
    rcases List.mem_map.mp mem with ⟨backtested, _, rfl⟩
    exact decide_eq_true backtested.curve_ne_nil
  rw [aggregateEquity, frames]
  by_cases none : backtests = []
  · rw [none]
    simp [unionIndex]
  · rw [if_neg (by simpa using none)]
    have columns : (backtests.map Backtested.curve).map (fun curve =>
        bfill (ffill (equityColumn (unionIndex (backtests.map Backtested.curve)) curve))) =
        (backtests.map Backtested.equityAt).map fun value =>
          (unionIndex (backtests.map Backtested.curve)).map fun time => some (value time) := by
      rw [List.map_map, List.map_map]
      apply List.map_congr_left
      intro backtested mem
      apply backtested.column_eq (unionIndex_ascending _)
      intro point pointMem
      exact mem_unionIndex.mpr ⟨_, List.mem_map_of_mem mem, point, pointMem, rfl⟩
    simp only [columns]
    rw [rowSums_map, ← List.map_prod_left_eq_zip]
    simp [Function.comp_def]

/-- A point for each timestamp of a symbol, in ascending order, at the sum of the equities of the
symbols at that time. -/
theorem aggregateEquity_sums :
    (aggregateEquity (backtests.map Backtested.symbol)).Pairwise (·.1 < ·.1) ∧
      (∀ time, time ∈ (aggregateEquity (backtests.map Backtested.symbol)).map Prod.fst ↔
        ∃ backtested ∈ backtests, ∃ point ∈ backtested.curve, point.ts = time) ∧
      ∀ point ∈ aggregateEquity (backtests.map Backtested.symbol),
        point.2 = (backtests.map (·.equityAt point.1)).sum := by
  rw [aggregateEquity_eq]
  refine ⟨List.pairwise_map.mpr (unionIndex_ascending _), ?_, ?_⟩
  · intro time
    rw [List.map_map]
    simp [mem_unionIndex, Function.comp_def]
  · intro point mem
    rcases List.mem_map.mp mem with ⟨time, _, rfl⟩
    rfl

end

-- The second symbol starts a bar later and skips the last one.
example : aggregateEquity [⟨"INFY", 1, [], ⟨[], [⟨0, 0, 100, 0, 0, 100⟩, ⟨1, 2, 90, 0, 0, 90⟩], [],
    flatPosition⟩⟩, ⟨"TCS", 2, [], ⟨[], [⟨0, 1, 50, 0, 0, 50⟩], [], flatPosition⟩⟩] =
    [(0, 150), (1, 150), (2, 140)] := by decide +kernel

/-! ## The portfolio of a run -/

namespace BacktestSetup

variable {σ : Type} {sqrt : ℚ → ℚ} {setup : BacktestSetup} {strategy : FreshStrategy σ}
  {fromDate toDate : ℤ}

theorem backtested_of_runSymbol {sizer : FixedFractionalSizer} {symbol : String}
    {result : SymbolResult}
    (ran : setup.runSymbol sqrt strategy sizer fromDate toDate symbol = .ok result) :
    ∃ backtested : Backtested sqrt, backtested.symbol = result ∧
      backtested.capital = setup.initialCapital / setup.symbols.length := by
  rw [runSymbol] at ran
  split at ran
  · cases ran
  · by_cases empty : setup.rangeCandles fromDate toDate symbol = []
    · rw [if_pos empty] at ran
      cases ran
    · rw [if_neg empty] at ran
      rcases except_bind_eq_ok.mp ran with ⟨⟨backtest, after⟩, replayed, made⟩
      cases made
      have contract := Dataset.frameContract_read (setup.dataset symbol) (some (dayStart fromDate))
        (some (dayEnd toDate))
      exact ⟨⟨⟨symbol, _, _, backtest⟩, _, contract, σ, _, _, after, _, rfl, replayed⟩, rfl, rfl⟩

/-- The results of a run are backtests with an equal share of the capital. -/
theorem backtested_of_ran {results : List SymbolResult}
    (ran : runBacktestForSymbols sqrt setup strategy fromDate toDate = .ok results) :
    ∃ backtests : List (Backtested sqrt), backtests.map Backtested.symbol = results ∧
      ∀ backtested ∈ backtests,
        backtested.capital = setup.initialCapital / setup.symbols.length := by
  rw [runBacktestForSymbols] at ran
  by_cases empty : setup.symbols = []
  · rw [if_pos empty] at ran
    cases ran
  rw [if_neg empty] at ran
  rcases except_bind_eq_ok.mp ran with ⟨sizer, _, mapped⟩
  have each := (exists_of_forall₂ (forall₂_of_mapM mapped)).2
  have made : results ∈ Set.range (List.map fun backtested : {backtested : Backtested sqrt //
      backtested.capital = setup.initialCapital / setup.symbols.length} =>
        backtested.1.symbol) := by
    rw [Set.range_list_map]
    intro result mem
    rcases each result mem with ⟨symbol, _, built⟩
    rcases backtested_of_runSymbol built with ⟨backtested, own, share⟩
    exact ⟨⟨backtested, share⟩, own⟩
  rcases made with ⟨backtests, rfl⟩
  refine ⟨backtests.map Subtype.val, ?_, ?_⟩
  · rw [List.map_map]
    rfl
  · intro backtested mem
    rcases List.mem_map.mp mem with ⟨shared, _, rfl⟩
    exact shared.2

end BacktestSetup

end PersonalTrade
