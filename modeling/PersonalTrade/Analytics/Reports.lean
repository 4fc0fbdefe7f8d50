import PersonalTrade.Analytics.Journal

/-!
# Performance reports

`analytics/reports.py` and the summary of `analytics/pnl.py`. The report rebuilds the equity
curve on the capital that is configured when the report is made, while the account was seeded
once: the curve ends at the cash of the account exactly while the two are the same
(`report_ends_at_cash_iff`).
-/

namespace PersonalTrade

/-! ## The summary -/

/-- `win_rate`. -/
def winRate (pnls : List ℚ) : ℚ :=
  if pnls = [] then 0 else (pnls.countP fun pnl => 0 < pnl) / pnls.length

def expectancy (pnls : List ℚ) : ℚ := if pnls = [] then 0 else pnls.sum / pnls.length

/-- `profit_factor`; `⊤` is the infinite float. -/
def profitFactor (pnls : List ℚ) : WithTop ℚ :=
  let grossWin := (pnls.filter fun pnl => 0 < pnl).sum
  let grossLoss := -(pnls.filter fun pnl => pnl < 0).sum
  if grossLoss = 0 then if 0 < grossWin then ⊤ else 0 else (grossWin / grossLoss : ℚ)

/-- `PnLSummary`; `statistics` are the float statistics of the equity curve. -/
structure PnLSummary (σ : Type) where
  realizedPnl : ℚ
  unrealizedPnl : ℚ
  totalPnl : ℚ
  winRate : ℚ
  expectancy : ℚ
  profitFactor : WithTop ℚ
  closedTrades : ℕ
  statistics : σ

structure Breakdown where
  label : String
  realizedPnl : ℚ
  closedTrades : ℕ
  winRate : ℚ
deriving DecidableEq

structure PerformanceReport (σ : Type) where
  since : ℤ
  summary : PnLSummary σ
  byInstrument : List Breakdown
  byStrategy : List Breakdown
  journal : List JournalEntry

/-- `_breakdown_by`, on labelled trades; the labels stand in the order of their first trade. -/
def breakdownBy (labelled : List (String × Trade)) : List Breakdown :=
  let breakdown (label : String) : Breakdown :=
    let pnls := (labelled.filter fun entry => entry.1 = label).filterMap
      fun entry => entry.2.realizedPnl
    { label, realizedPnl := pnls.sum, closedTrades := pnls.length, winRate := winRate pnls }
  ((labelled.map Prod.fst).eraseDups.map breakdown).mergeSort
    fun first second => decide (second.realizedPnl ≤ first.realizedPnl)

namespace DB

variable {σ : Type} (db : DB)

/-- `unrealized_pnl`; `mark` is the last close of the candle store, if it has one. -/
def unrealizedPnl (mark : Instrument → Option ℚ) (mode : Mode) : ℚ :=
  ((db.listOpenPositions mode).map fun entry =>
    match (db.instrument entry.1).bind mark with
    | none => 0
    | some close => (close - entry.2.avgPrice) * entry.2.qty).sum

/-- `compute_pnl_summary`. -/
def computePnlSummary (statistics : List (ℤ × ℚ) → σ) (initialCash : ℚ)
    (realizedTrades allTrades : List Trade) (unrealized : ℚ) : PnLSummary σ :=
  let pnls := realizedTrades.filterMap Trade.realizedPnl
  let series := db.equityCurveFromTrades initialCash allTrades
  { realizedPnl := pnls.sum
    unrealizedPnl := unrealized
    totalPnl := pnls.sum + unrealized
    winRate := PersonalTrade.winRate pnls
    expectancy := PersonalTrade.expectancy pnls
    profitFactor := PersonalTrade.profitFactor pnls
    closedTrades := pnls.length
    statistics := statistics series }

/-- `trade.order.instrument.symbol`. -/
def symbolOf (trade : Trade) : Option String :=
  (db.orders.get? trade.orderId).bind fun order =>
    (db.instrument order.instrumentId).map Instrument.symbol

/-- The name of the strategy run that a trade is attributed to. -/
def strategyNameOf (strategyName : ℕ → String) (trade : Trade) : String :=
  match ((db.orders.get? trade.orderId).bind Order.signalId).bind db.signals.get? with
  | some signal => strategyName signal.strategyRunId
  | none => "(unattributed)"

/-- What a report reads besides the store: the candle closes, the contexts of the signals and
the names of the strategy runs. -/
structure ReportSources where
  mark : Instrument → Option ℚ
  contexts : ℕ → SignalContext
  strategyName : ℕ → String

/-- `generate_report`; `none` where it raises. -/
def generateReport (sources : ReportSources) (statistics : List (ℤ × ℚ) → σ) (mode : Mode)
    (initialCash : ℚ) (since : ℤ) : Option (PerformanceReport σ) := do
  let realizedTrades := db.listRealizedSince mode since
  let summary := db.computePnlSummary statistics initialCash realizedTrades (db.listForMode mode)
    (db.unrealizedPnl sources.mark mode)
  let byInstrument ← realizedTrades.mapM fun trade =>
    (db.symbolOf trade).map fun symbol => (symbol, trade)
  let byStrategy := realizedTrades.map fun trade =>
    (db.strategyNameOf sources.strategyName trade, trade)
  let journal ← db.buildJournal sources.contexts mode (some since)
  some
    { since
      summary
      byInstrument := breakdownBy byInstrument
      byStrategy := breakdownBy byStrategy
      journal }

end DB

/-! ## The end of the curve -/

section Books

variable {initialCash : ℚ} {db : DB}

/-- A realized trade is a leg of its instrument. -/
theorem exists_symbolOf (books : PaperBooks initialCash db) {since : ℤ} {trade : Trade}
    (realized : trade ∈ db.listRealizedSince .paper since) :
    ∃ symbol, db.symbolOf trade = some symbol := by
  simp only [DB.listRealizedSince, List.mem_filter, Bool.and_eq_true] at realized
  rcases realized with ⟨mem, ⟨paper, _⟩, _⟩
  rcases (Option.any_eq_true _ _).mp paper with ⟨order, found, isPaper⟩
  have leg : db.legOf trade ∈ db.legsOn .paper order.instrumentId :=
    List.mem_map_of_mem (List.mem_filter.mpr ⟨mem, by simpa [found, DB.isOn] using isPaper⟩)
  rcases books.known _ (List.ne_nil_of_mem leg) with ⟨instrument, known⟩
  exact ⟨instrument.symbol, by simp [DB.symbolOf, found, known]⟩

theorem exists_buildJournal (books : PaperBooks initialCash db) (contexts : ℕ → SignalContext)
    (since : Option ℤ) : ∃ journal, db.buildJournal contexts .paper since = some journal := by
  have builds : ∀ instrumentId ∈ ((db.listForMode .paper).filterMap fun trade =>
      (db.orders.get? trade.orderId).map Order.instrumentId).eraseDups,
      ∃ entries, db.instrumentEntries contexts .paper instrumentId = some entries ∧ True := by
    intro instrumentId _
    rw [DB.instrumentEntries]
    cases db.instrument instrumentId with
    | none => exact ⟨[], rfl, trivial⟩
    | some instrument =>
        rcases exists_episodesForInstrument instrument (db.signalContext contexts) fun leg mem =>
          (books.booked instrumentId).positive leg (DB.mem_legsByInstrument.mp mem) with
          ⟨entries, built⟩
        exact ⟨entries, built, trivial⟩
  rcases exists_mapM_some builds with ⟨entries, built, _⟩
  rw [DB.buildJournal, built]
  exact ⟨_, rfl⟩

/-- A report on kept books is made, with the summary of its trades. -/
theorem exists_report {σ : Type} (books : PaperBooks initialCash db) (sources : DB.ReportSources)
    (statistics : List (ℤ × ℚ) → σ) (capital : ℚ) (since : ℤ) :
    ∃ report, db.generateReport sources statistics .paper capital since = some report ∧
      report.summary = db.computePnlSummary statistics capital (db.listRealizedSince .paper since)
        (db.listForMode .paper) (db.unrealizedPnl sources.mark .paper) := by
  have labels : ∀ trade ∈ db.listRealizedSince .paper since, ∃ labelled,
      ((db.symbolOf trade).map fun symbol => (symbol, trade)) = some labelled ∧ True := by
    intro trade mem
    rcases exists_symbolOf books mem with ⟨symbol, read⟩
    exact ⟨(symbol, trade), by rw [read, Option.map_some], trivial⟩
  rcases exists_mapM_some labels with ⟨byInstrument, labelled, _⟩
  rcases exists_buildJournal books sources.contexts (some since) with ⟨journal, built⟩
  exact ⟨_, by rw [DB.generateReport, labelled, built]; rfl, rfl⟩

/-- The curve of a report on kept books ends at the cash, moved by what separates the two starting
values. -/
theorem report_curve (books : PaperBooks initialCash db) (traded : db.listForMode .paper ≠ [])
    (sources : DB.ReportSources) (capital : ℚ) (since : ℤ) :
    ∃ report, db.generateReport sources id .paper capital since = some report ∧
      report.summary.statistics.getLast?.map Prod.snd = some (capital + (db.cash - initialCash)) := by
  rcases exists_report books sources id capital since with ⟨report, made, summary⟩
  refine ⟨report, made, ?_⟩
  have flows := ((List.mergeSort_perm (db.tradesWhere fun order => order.mode = .paper)
    fun first second => decide (first.executedAt ≤ second.executedAt)).map db.cashFlow).sum_eq
  have last : (db.equityCurveFromTrades capital (db.listForMode .paper)).getLast?.map Prod.snd =
      some (capital + ((db.listForMode .paper).map db.cashFlow).sum) :=
    DB.getLast?_equityCurve capital traded
  rw [DB.listForMode, flows] at last
  rw [summary, books.cash, add_sub_cancel_left]
  exact last

end Books

/-- In every state that calls of the paper broker reach from a just opened account, and for every
capital that is configured at the time of the report: the report is made, and if there is a trade,
its equity curve ends at the cash of the account exactly when the capital is what the account was
seeded with. -/
theorem report_ends_at_cash_iff {initialCash : ℚ} {start : DB}
    (opened : PaperBroker.AccountOpened initialCash start)
    (calls : List (PaperBroker × PaperCall))
    (traded : (runSteps PaperBroker.step start calls).listForMode .paper ≠ [])
    (sources : DB.ReportSources) (capital : ℚ) (since : ℤ) :
    let db := runSteps PaperBroker.step start calls
    ∃ report, db.generateReport sources id .paper capital since = some report ∧
      (report.summary.statistics.getLast?.map Prod.snd = some db.cash ↔ capital = initialCash) := by
  intro db
  rcases report_curve (PaperBroker.books_runSteps opened calls) traded sources capital since with
    ⟨report, made, last⟩
  refine ⟨report, made, ?_⟩
  rw [last, Option.some.injEq]
  constructor
  · intro same
    linarith
  · intro same
    rw [same]
    ring

/-- Nothing is read besides the store. -/
def sampleSources : DB.ReportSources := ⟨fun _ => none, fun _ => [], fun _ => ""⟩

theorem sampleTrips_traded : (runSteps PaperBroker.step PaperBroker.sampleAccount
    sampleTrips).listForMode .paper ≠ [] := by
  intro empty
  have none := ((List.mergeSort_perm _ _).symm.trans (.of_eq empty)).eq_nil
  exact absurd none (by decide +kernel)

theorem report_ends_at_cash_iff_sample :
    let db := runSteps PaperBroker.step PaperBroker.sampleAccount sampleTrips
    ∃ report, db.generateReport sampleSources id .paper 550 0 = some report ∧
      (report.summary.statistics.getLast?.map Prod.snd = some db.cash ↔ (550 : ℚ) = 550) := by
  exact report_ends_at_cash_iff PaperBroker.sampleAccount_opened sampleTrips sampleTrips_traded
    sampleSources 550 0

/-- The account was seeded with 550, and the capital is 1000 when the report is made. -/
theorem changedCapital_misses_cash :
    let db := runSteps PaperBroker.step PaperBroker.sampleAccount sampleTrips
    ∃ report, db.generateReport sampleSources id .paper 1000 0 = some report ∧
      report.summary.statistics.getLast?.map Prod.snd ≠ some db.cash := by
  intro db
  rcases report_curve (PaperBroker.books_runSteps PaperBroker.sampleAccount_opened sampleTrips)
    sampleTrips_traded sampleSources 1000 0 with ⟨report, made, last⟩
  refine ⟨report, made, ?_⟩
  rw [last]
  intro same
  rw [Option.some.injEq] at same
  linarith

end PersonalTrade
