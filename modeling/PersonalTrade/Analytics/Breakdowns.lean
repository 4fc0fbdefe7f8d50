import PersonalTrade.Analytics.Reports
import PersonalTrade.Library.Parts

/-!
# Breakdowns

The parts of a report against its summary. A breakdown takes the realized trades apart by the symbol
or the strategy of their orders, and its figures add up to those of the summary
(`report_breakdowns`); the statistics of a list of profits agree on whether it pays
(`statistics_agree`).
-/

namespace PersonalTrade

/-! ## Statistics of profits -/

section Statistics

variable {pnls : List ℚ}

/-- The wins among some profits, counted back from their rate. -/
theorem winRate_mul_length (pnls : List ℚ) :
    winRate pnls * pnls.length = (pnls.countP fun pnl => 0 < pnl : ℕ) := by
  rw [winRate]
  split_ifs with none
  · simp [none]
  · have length : (pnls.length : ℚ) ≠ 0 := by
      simpa using none
    exact div_mul_cancel₀ _ length

theorem expectancy_mul_length (pnls : List ℚ) : expectancy pnls * pnls.length = pnls.sum := by
  rw [expectancy]
  split_ifs with none
  · simp [none]
  · have length : (pnls.length : ℚ) ≠ 0 := by
      simpa using none
    exact div_mul_cancel₀ _ length

/-- Profits are wins and losses. -/
theorem sum_eq_wins_sub_losses (pnls : List ℚ) : pnls.sum =
    (pnls.filter fun pnl => 0 < pnl).sum - -(pnls.filter fun pnl => pnl < 0).sum := by
  induction pnls with
  | nil => simp
  | cons pnl pnls ih =>
      rcases lt_trichotomy pnl 0 with loss | rfl | win
      · simp [loss, not_lt.mpr loss.le, ih]
        ring
      · simpa using ih
      · simp [win, not_lt.mpr win.le, ih]
        ring

theorem wins_nonneg (pnls : List ℚ) : 0 ≤ (pnls.filter fun pnl => 0 < pnl).sum := by
  apply List.sum_nonneg
  intro pnl mem
  exact (of_decide_eq_true (List.mem_filter.mp mem).2).le

theorem losses_nonneg (pnls : List ℚ) : 0 ≤ -(pnls.filter fun pnl => pnl < 0).sum := by
  have bound := List.sum_le_card_nsmul (pnls.filter fun pnl => pnl < 0) 0 fun pnl mem =>
    (of_decide_eq_true (List.mem_filter.mp mem).2).le
  simpa using bound

/-- An expectation has the sign of the sum. -/
theorem expectancy_pos_iff : 0 < expectancy pnls ↔ 0 < pnls.sum := by
  rw [expectancy]
  split_ifs with none
  · simp [none]
  · have length : (0 : ℚ) < pnls.length := by
      exact_mod_cast List.length_pos_iff.mpr none
    exact div_pos_iff_of_pos_right length

/-- The wins outweigh the losses exactly if the factor between them exceeds one. -/
theorem one_lt_profitFactor_iff : 1 < profitFactor pnls ↔ 0 < pnls.sum := by
  rw [sum_eq_wins_sub_losses, sub_pos, profitFactor]
  have wins := wins_nonneg pnls
  have losses := losses_nonneg pnls
  split_ifs with lossless winning
  · rw [lossless]
    exact iff_of_true (WithTop.coe_lt_top 1) winning
  · rw [lossless]
    exact iff_of_false (by simp) winning
  · have positive := lt_of_le_of_ne losses (Ne.symm lossless)
    rw [← WithTop.coe_one, WithTop.coe_lt_coe, one_lt_div positive]

/-- The rate of the wins is a proportion, and the average and the factor agree on whether the
profits pay. -/
theorem statistics_agree (pnls : List ℚ) : 0 ≤ winRate pnls ∧ winRate pnls ≤ 1 ∧
    (0 < expectancy pnls ↔ 1 < profitFactor pnls) ∧ expectancy pnls * pnls.length = pnls.sum := by
  refine ⟨?_, ?_, ?_, expectancy_mul_length pnls⟩
  · rw [winRate]
    split_ifs
    · rfl
    · positivity
  · rw [winRate]
    split_ifs
    · exact zero_le_one
    · apply div_le_one_of_le₀ _ (Nat.cast_nonneg _)
      exact_mod_cast List.countP_le_length
  · rw [expectancy_pos_iff, one_lt_profitFactor_iff]

end Statistics

/-! ## The parts of a report -/

/-- Breakdowns take a list of profits apart: their labels are distinct, none is empty, they come
with the largest profit first, and their figures add up to those of the list. -/
structure Breaks (breakdowns : List Breakdown) (pnls : List ℚ) : Prop where
  distinct : (breakdowns.map Breakdown.label).Nodup
  nonempty : ∀ breakdown ∈ breakdowns, 0 < breakdown.closedTrades
  sorted : breakdowns.Pairwise fun first second => second.realizedPnl ≤ first.realizedPnl
  realized : (breakdowns.map Breakdown.realizedPnl).sum = pnls.sum
  closed : (breakdowns.map Breakdown.closedTrades).sum = pnls.length
  wins : (breakdowns.map fun breakdown => breakdown.winRate * (breakdown.closedTrades : ℚ)).sum =
    winRate pnls * pnls.length

theorem breaks_breakdownBy {labelled : List (String × Trade)}
    (realized : ∀ entry ∈ labelled, entry.2.realizedPnl.isSome) :
    Breaks (breakdownBy labelled) (labelled.filterMap fun entry => entry.2.realizedPnl) := by
  have perm := List.mergeSort_perm ((labelled.map Prod.fst).eraseDups.map fun label =>
    let pnls := (labelled.filter fun entry => entry.1 = label).filterMap
      fun entry => entry.2.realizedPnl
    (⟨label, pnls.sum, pnls.length, winRate pnls⟩ : Breakdown))
    fun first second => decide (second.realizedPnl ≤ first.realizedPnl)
  have nodup := eraseDups_nodup (labelled.map Prod.fst)
  have complete : ∀ entry ∈ labelled, entry.1 ∈ (labelled.map Prod.fst).eraseDups :=
    fun entry mem => List.mem_eraseDups.mpr (List.mem_map_of_mem mem)
  have parts {M : Type} [AddCommMonoid M] (measure : List ℚ → M) (empty : measure [] = 0)
      (append : ∀ first second, measure (first ++ second) = measure first + measure second) :=
    measure_by_class measure empty append Trade.realizedPnl nodup complete
  constructor
  · rw [breakdownBy, (perm.map Breakdown.label).nodup_iff, List.map_map]
    simpa [Function.comp_def] using nodup
  · intro breakdown mem
    rcases List.mem_map.mp (perm.mem_iff.mp mem) with ⟨label, listed, rfl⟩
    rcases List.mem_map.mp (List.mem_eraseDups.mp listed) with ⟨entry, own, rfl⟩
    rcases Option.isSome_iff_exists.mp (realized entry own) with ⟨pnl, has⟩
    apply List.length_pos_of_mem (a := pnl)
    exact List.mem_filterMap.mpr ⟨entry, List.mem_filter.mpr ⟨own, by simp⟩, has⟩
  · have ordered : (breakdownBy labelled).Pairwise fun first second =>
        decide (second.realizedPnl ≤ first.realizedPnl) = true := by
      apply List.pairwise_mergeSort
      · intro first second third
        simp only [decide_eq_true_eq]
        exact fun earlier later => later.trans earlier
      · intro first second
        simp only [Bool.or_eq_true, decide_eq_true_eq]
        exact le_total _ _
    exact ordered.imp of_decide_eq_true
  · rw [breakdownBy, (perm.map Breakdown.realizedPnl).sum_eq, List.map_map]
    exact parts List.sum rfl fun _ _ => List.sum_append
  · rw [breakdownBy, (perm.map Breakdown.closedTrades).sum_eq, List.map_map]
    exact parts List.length rfl fun _ _ => List.length_append
  · rw [breakdownBy, (perm.map _).sum_eq, List.map_map, winRate_mul_length]
    have wins := parts (List.countP fun pnl => 0 < pnl) rfl fun _ _ => List.countP_append
    rw [← wins, Nat.cast_list_sum, List.map_map]
    refine congrArg List.sum (List.map_congr_left fun label _ => ?_)
    exact winRate_mul_length _

/-- Labels are put beside trades, which stay. -/
theorem map_snd_of_mapM {label : Trade → Option String} {trades : List Trade}
    {labelled : List (String × Trade)}
    (made : (trades.mapM fun trade => (label trade).map fun text => (text, trade)) =
      some labelled) : labelled.map Prod.snd = trades := by
  induction trades generalizing labelled with
  | nil =>
      cases made
      rfl
  | cons trade trades ih =>
      rw [List.mapM_cons] at made
      rcases Option.bind_eq_some_iff.mp made with ⟨first, read, made⟩
      rcases Option.bind_eq_some_iff.mp made with ⟨rest, others, ⟨⟩⟩
      rcases Option.map_eq_some_iff.mp read with ⟨text, _, rfl⟩
      rw [List.map_cons, ih others]

/-- Every report that is made, on whatever store, over exact rationals: both breakdowns take the
realized trades of its summary apart, and the statistics of the summary agree. -/
theorem report_breakdowns {σ : Type} {db : DB} {sources : DB.ReportSources}
    {statistics : List (ℤ × ℚ) → σ} {mode : Mode} {capital : ℚ} {since : ℤ}
    {report : PerformanceReport σ}
    (made : db.generateReport sources statistics mode capital since = some report) :
    let pnls := (db.listRealizedSince mode since).filterMap Trade.realizedPnl
    let summary := report.summary
    (summary.realizedPnl = pnls.sum ∧ summary.closedTrades = pnls.length ∧
        summary.winRate = winRate pnls) ∧
      Breaks report.byInstrument pnls ∧ Breaks report.byStrategy pnls ∧
      0 ≤ summary.winRate ∧ summary.winRate ≤ 1 ∧
      (0 < summary.expectancy ↔ 1 < summary.profitFactor) ∧
      summary.expectancy * summary.closedTrades = summary.realizedPnl := by
  intro pnls
  have realized : ∀ trade ∈ db.listRealizedSince mode since, trade.realizedPnl.isSome := by
    intro trade mem
    have kept := (List.mem_filter.mp mem).2
    simp only [Bool.and_eq_true] at kept
    exact kept.2
  have breaks : ∀ labelled : List (String × Trade),
      labelled.map Prod.snd = db.listRealizedSince mode since →
      Breaks (breakdownBy labelled) pnls := by
    intro labelled trades
    have parts : Breaks (breakdownBy labelled) (labelled.filterMap fun entry =>
        entry.2.realizedPnl) := breaks_breakdownBy fun entry mem =>
      realized _ (trades ▸ List.mem_map_of_mem mem)
    have same : (labelled.filterMap fun entry => entry.2.realizedPnl) = pnls := by
      simp only [pnls, ← trades, List.filterMap_map]
      rfl
    rwa [same] at parts
  rcases Option.bind_eq_some_iff.mp made with ⟨byInstrument, labels, made⟩
  rcases Option.bind_eq_some_iff.mp made with ⟨journal, _, ⟨⟩⟩
  rcases statistics_agree pnls with ⟨lower, upper, pays, average⟩
  refine ⟨⟨rfl, rfl, rfl⟩, breaks _ (map_snd_of_mapM labels), breaks _ ?_, lower, upper, pays,
    average⟩
  rw [List.map_map]
  exact List.map_id _

theorem report_breakdowns_sample :
    ∃ report, (runSteps PaperBroker.step PaperBroker.sampleAccount sampleTrips).generateReport
        sampleSources id .paper 550 0 = some report ∧
      (report.byInstrument.map Breakdown.realizedPnl).sum = report.summary.realizedPnl ∧
      (report.byStrategy.map Breakdown.realizedPnl).sum = report.summary.realizedPnl := by
  rcases report_curve (PaperBroker.books_runSteps PaperBroker.sampleAccount_opened sampleTrips)
    sampleTrips_traded sampleSources 550 0 with ⟨report, made, _⟩
  rcases report_breakdowns made with ⟨⟨realized, _⟩, byInstrument, byStrategy, _⟩
  exact ⟨report, made, byInstrument.realized.trans realized.symm,
    byStrategy.realized.trans realized.symm⟩

end PersonalTrade
