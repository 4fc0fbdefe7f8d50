import PersonalTrade.Analytics.Reports

/-!
# The paper-trading soak

`analytics/soak.py` and the records that `pt soak start` and `pt soak end` write. A review compares
the elapsed days with the target that is stored in the record, which the command line may set to
any number. It refuses a GO before the configured number of days exactly for the records whose
target is not below it (`review_refuses_early_iff`). Float statistics are exact rationals, and
the texts that show them are left out.
-/

namespace PersonalTrade

structure SoakConfig where
  targetDays : ℤ := 28
  minClosedTrades : ℕ := 20
  minSharpe : ℚ := 0
  maxDrawdownPct : ℚ := 25
  requirePositiveNetPnl : Bool := true
  one_le_targetDays : 1 ≤ targetDays := by norm_num
  maxDrawdownPct_nonneg : 0 ≤ maxDrawdownPct := by norm_num

/-- `SoakPeriod`; times count milliseconds. -/
structure SoakPeriod where
  id : ℕ
  startedAt : ℤ
  targetDays : ℤ
  baselineBacktestRunId : Option ℕ
  endedAt : Option ℤ := none
  endReason : Option String := none
  notes : Option String
deriving DecidableEq, Repr

/-- `target_days or cfg.soak.target_days`: a target of zero counts as none. -/
def SoakConfig.chosenTarget (cfg : SoakConfig) (targetDays : Option ℤ) : ℤ :=
  match targetDays with
  | none => cfg.targetDays
  | some days => if days = 0 then cfg.targetDays else days

/-- The record that `pt soak start` adds. -/
def soakStart (cfg : SoakConfig) (targetDays : Option ℤ) (backtestRunId : Option ℕ)
    (notes : Option String) (id : ℕ) (time : ℤ) : SoakPeriod where
  id := id
  startedAt := time
  targetDays := cfg.chosenTarget targetDays
  baselineBacktestRunId := backtestRunId
  notes := notes

/-- What `pt soak end` makes of a record. -/
def soakEnd (soak : SoakPeriod) (reason : String) (time : ℤ) : SoakPeriod :=
  { soak with endedAt := some time, endReason := some reason }

structure SoakStatus where
  soakId : ℕ
  startedAt : ℤ
  targetDays : ℤ
  daysElapsed : ℤ
  daysRemaining : ℤ
  baselineBacktestRunId : Option ℕ
  endedAt : Option ℤ
deriving DecidableEq, Repr

/-- `compute_status`. -/
def computeStatus (soak : SoakPeriod) (now : ℤ) : SoakStatus :=
  let reference := soak.endedAt.getD now
  let daysElapsed := max 0 ((reference - soak.startedAt) / dayMs)
  { soakId := soak.id
    startedAt := soak.startedAt
    targetDays := soak.targetDays
    daysElapsed
    daysRemaining := max 0 (soak.targetDays - daysElapsed)
    baselineBacktestRunId := soak.baselineBacktestRunId
    endedAt := soak.endedAt }

/-- The statistics of the equity curve that a review reads. -/
structure EquityStatistics where
  sharpe : ℚ
  maxDrawdown : ℚ

/-- The figures that a criterion shows. -/
inductive CriterionDetail where
  | days (elapsed target : ℤ)
  | closedTrades (count needed : ℕ)
  | totalPnl (total : ℚ)
  | sharpe (sharpe needed : ℚ)
  | drawdown (drawdown limitPct : ℚ)
deriving DecidableEq, Repr

structure Criterion where
  name : String
  passed : Bool
  detail : CriterionDetail
deriving DecidableEq, Repr

structure GoNoGoResult where
  go : Bool
  criteria : List Criterion
deriving DecidableEq, Repr

/-- The criteria of `evaluate_go_no_go`. -/
def goNoGoCriteria (status : SoakStatus) (paper : PnLSummary EquityStatistics) (cfg : SoakConfig) :
    List Criterion :=
  [⟨"min_soak_days", status.targetDays ≤ status.daysElapsed,
      .days status.daysElapsed status.targetDays⟩,
    ⟨"min_closed_trades", cfg.minClosedTrades ≤ paper.closedTrades,
      .closedTrades paper.closedTrades cfg.minClosedTrades⟩,
    ⟨"positive_net_pnl", !cfg.requirePositiveNetPnl || decide (0 < paper.totalPnl),
      .totalPnl paper.totalPnl⟩,
    ⟨"min_sharpe", cfg.minSharpe ≤ paper.statistics.sharpe,
      .sharpe paper.statistics.sharpe cfg.minSharpe⟩,
    ⟨"max_drawdown", paper.statistics.maxDrawdown ≤ cfg.maxDrawdownPct / 100,
      .drawdown paper.statistics.maxDrawdown cfg.maxDrawdownPct⟩]

/-- `evaluate_go_no_go`. -/
def evaluateGoNoGo (status : SoakStatus) (paper : PnLSummary EquityStatistics) (cfg : SoakConfig) :
    GoNoGoResult :=
  let criteria := goNoGoCriteria status paper cfg
  ⟨criteria.all Criterion.passed, criteria⟩

/-! ## What a GO promises -/

/-- The thresholds of the configuration that do not concern the length of the soak. -/
structure SoakConfig.FiguresMet (cfg : SoakConfig) (paper : PnLSummary EquityStatistics) :
    Prop where
  trades : cfg.minClosedTrades ≤ paper.closedTrades
  pnl : cfg.requirePositiveNetPnl = true → 0 < paper.totalPnl
  sharpe : cfg.minSharpe ≤ paper.statistics.sharpe
  drawdown : paper.statistics.maxDrawdown ≤ cfg.maxDrawdownPct / 100

/-- A GO is given exactly after the stored target, on figures that meet the thresholds. -/
theorem go_iff {status : SoakStatus} {paper : PnLSummary EquityStatistics} {cfg : SoakConfig} :
    (evaluateGoNoGo status paper cfg).go = true ↔
      status.targetDays ≤ status.daysElapsed ∧ cfg.FiguresMet paper := by
  simp only [evaluateGoNoGo, goNoGoCriteria, List.all_cons, List.all_nil, Bool.and_true,
    Bool.and_eq_true, Bool.or_eq_true, decide_eq_true_eq, Bool.not_eq_true']
  constructor
  · rintro ⟨days, trades, pnl, sharpe, drawdown⟩
    refine ⟨days, trades, fun required => ?_, sharpe, drawdown⟩
    exact pnl.resolve_left (by simp [required])
  · rintro ⟨days, met⟩
    refine ⟨days, met.trades, ?_, met.sharpe, met.drawdown⟩
    cases required : cfg.requirePositiveNetPnl with
    | false => exact .inl rfl
    | true => exact .inr (met.pnl required)

/-- The records of a soak that was started with a configuration and a target of the command line,
before and after its end. -/
inductive SoakRecord (cfg : SoakConfig) (targetDays : Option ℤ) : SoakPeriod → Prop where
  | started (backtestRunId : Option ℕ) (notes : Option String) (id : ℕ) (time : ℤ) :
      SoakRecord cfg targetDays (soakStart cfg targetDays backtestRunId notes id time)
  | ended {soak : SoakPeriod} (open_ : SoakRecord cfg targetDays soak) (reason : String)
      (time : ℤ) : SoakRecord cfg targetDays (soakEnd soak reason time)

theorem SoakRecord.targetDays_eq {cfg : SoakConfig} {targetDays : Option ℤ} {soak : SoakPeriod}
    (record : SoakRecord cfg targetDays soak) : soak.targetDays = cfg.chosenTarget targetDays := by
  induction record with
  | started => rfl
  | ended _ _ _ ih => exact ih

/-- Figures that meet the thresholds of a configuration with nothing to spare. -/
def barelyMet (cfg : SoakConfig) : PnLSummary EquityStatistics where
  realizedPnl := 1
  unrealizedPnl := 0
  totalPnl := 1
  winRate := 1
  expectancy := 1
  profitFactor := ⊤
  closedTrades := cfg.minClosedTrades
  statistics := ⟨cfg.minSharpe, cfg.maxDrawdownPct / 100⟩

theorem figuresMet_barelyMet (cfg : SoakConfig) : cfg.FiguresMet (barelyMet cfg) :=
  ⟨le_rfl, fun _ => one_pos, le_rfl, le_rfl⟩

/-- A record that has not ended shows as many days as have passed. -/
theorem daysElapsed_started (cfg : SoakConfig) (targetDays : Option ℤ) (backtestRunId : Option ℕ)
    (notes : Option String) (id : ℕ) (time : ℤ) (days : ℕ) :
    (computeStatus (soakStart cfg targetDays backtestRunId notes id time)
      (time + days * dayMs)).daysElapsed = days := by
  have passed : (days : ℤ) * dayMs / dayMs = days := Int.mul_ediv_cancel _ (by decide)
  simp [computeStatus, soakStart, passed]

/-- Every GO on the records of a soak comes after the configured days with all thresholds met,
exactly if the target of the soak is not below them. -/
theorem review_refuses_early_iff (startCfg cfg : SoakConfig) (targetDays : Option ℤ) :
    (∀ soak, SoakRecord startCfg targetDays soak → ∀ now paper,
        (evaluateGoNoGo (computeStatus soak now) paper cfg).go = true →
          cfg.targetDays ≤ (computeStatus soak now).daysElapsed ∧ cfg.FiguresMet paper) ↔
      cfg.targetDays ≤ startCfg.chosenTarget targetDays := by
  constructor
  · intro refuses
    let target := startCfg.chosenTarget targetDays
    have go : (evaluateGoNoGo (computeStatus (soakStart startCfg targetDays none none 1 0)
        (0 + target.toNat * dayMs)) (barelyMet cfg) cfg).go = true := by
      refine go_iff.mpr ⟨?_, figuresMet_barelyMet cfg⟩
      rw [daysElapsed_started]
      exact Int.self_le_toNat target
    have late := (refuses _ (.started none none 1 0) _ _ go).1
    rw [daysElapsed_started] at late
    have positive := cfg.one_le_targetDays
    omega
  · intro enough soak record now paper go
    rcases go_iff.mp go with ⟨passed, met⟩
    have target : (computeStatus soak now).targetDays = startCfg.chosenTarget targetDays :=
      record.targetDays_eq
    exact ⟨enough.trans (target ▸ passed), met⟩

/-- With the default configuration a soak of one day gets its GO on the second day. -/
theorem oneDaySoak_goes :
    let soak := soakStart {} (some 1) none none 1 0
    let status := computeStatus soak dayMs
    (evaluateGoNoGo status (barelyMet {}) {}).go = true ∧ status.daysElapsed = 1 ∧
      ¬ (({} : SoakConfig).targetDays ≤ status.daysElapsed) := by
  refine ⟨?_, by decide, by decide⟩
  exact go_iff.mpr ⟨by decide, figuresMet_barelyMet {}⟩

end PersonalTrade
