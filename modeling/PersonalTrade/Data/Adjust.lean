import PersonalTrade.Data.CandleFrame
import PersonalTrade.Library.Except
import PersonalTrade.Library.Rounding

/-!
# Corporate actions

`data/historical/adjust.py`: the candles before an ex-date are multiplied by the factor of the
action, and their volume is divided by it.
-/

namespace PersonalTrade

structure CorporateAction where
  exDate : ℤ
  factor : ℚ
  kind : String := "split"
deriving DecidableEq

/-- A row before and after one action. -/
def adjustRow (row : CandleRow) (action : CorporateAction) : CandleRow :=
  if istTradingDate row.ts < action.exDate then
    { row with
      openPrice := row.openPrice * action.factor
      high := row.high * action.factor
      low := row.low * action.factor
      close := row.close * action.factor
      volume := roundHalfEven (row.volume / action.factor) }
  else row

/-- The turn of the loop for one action. -/
def adjustFrame (frame : List CandleRow) (action : CorporateAction) :
    Except PyError (List CandleRow) :=
  if action.factor ≤ 0 then
    .error (.valueError "corporate action factor must be > 0" action.factor)
  else .ok (frame.map (adjustRow · action))

/-- `sorted(actions, key=lambda a: a.ex_date)`. -/
def sortByExDate (actions : List CorporateAction) : List CorporateAction :=
  actions.insertionSort (·.exDate ≤ ·.exDate)

/-- `apply_adjustments`. -/
def applyAdjustments (frame : List CandleRow) (actions : List CorporateAction) :
    Except PyError (List CandleRow) :=
  if frame.isEmpty || actions.isEmpty then .ok frame
  else (sortByExDate actions).foldlM adjustFrame frame

/-- The factors of the actions after a time. -/
def laterFactors (actions : List CorporateAction) (ts : ℤ) : List ℚ :=
  (actions.filter (istTradingDate ts < ·.exDate)).map CorporateAction.factor

/-- A row adjusted in one step by all actions after it. -/
def adjustOnce (actions : List CorporateAction) (row : CandleRow) : CandleRow :=
  let factor := (laterFactors actions row.ts).prod
  { row with
    openPrice := row.openPrice * factor
    high := row.high * factor
    low := row.low * factor
    close := row.close * factor
    volume := roundHalfEven (row.volume / factor) }

theorem sortByExDate_perm (actions : List CorporateAction) : (sortByExDate actions).Perm actions :=
  List.perm_insertionSort _ actions

/-- With positive factors the loop adjusts row by row. -/
theorem foldlM_adjustFrame {frame : List CandleRow} {actions : List CorporateAction}
    (positive : ∀ action ∈ actions, 0 < action.factor) :
    actions.foldlM adjustFrame frame = .ok (frame.map fun row => actions.foldl adjustRow row) := by
  induction actions generalizing frame with
  | nil => simp [pure, Except.pure]
  | cons action actions ih =>
      have turn : adjustFrame frame action = .ok (frame.map (adjustRow · action)) :=
        if_neg (not_le.mpr (positive action (.head _)))
      have rest := @ih (frame.map (adjustRow · action))
        fun other mem => positive other (.tail _ mem)
      rw [List.map_map] at rest
      rw [List.foldlM_cons, turn]
      exact rest

theorem laterFactors_cons (action : CorporateAction) (actions : List CorporateAction) (ts : ℤ) :
    laterFactors (action :: actions) ts =
      if istTradingDate ts < action.exDate then action.factor :: laterFactors actions ts
      else laterFactors actions ts := by
  rw [laterFactors, List.filter_cons]
  split_ifs <;> simp_all [laterFactors]

/-- A row after all actions: the prices compound, and the volume is divided in stages. -/
theorem foldl_adjustRow (actions : List CorporateAction) (row : CandleRow) :
    actions.foldl adjustRow row = { adjustOnce actions row with
      volume := divideInStages (laterFactors actions row.ts) row.volume } := by
  induction actions generalizing row with
  | nil => simp [adjustOnce, laterFactors, divideInStages]
  | cons action actions ih =>
      rw [List.foldl_cons, ih]
      by_cases before : istTradingDate row.ts < action.exDate
      · simp only [adjustRow, if_pos before, adjustOnce, laterFactors_cons, List.prod_cons,
          divideInStages, List.foldl_cons, mul_assoc]
      · simp only [adjustRow, if_neg before, adjustOnce, laterFactors_cons]

theorem laterFactors_perm {left right : List CorporateAction} (perm : left.Perm right) (ts : ℤ) :
    (laterFactors left ts).Perm (laterFactors right ts) := (perm.filter _).map _

theorem adjustOnce_perm {left right : List CorporateAction} (perm : left.Perm right)
    (row : CandleRow) : adjustOnce left row = adjustOnce right row := by
  simp only [adjustOnce, (laterFactors_perm perm row.ts).prod_eq]

/-- What the adjustment returns: every price is multiplied by the product of the later factors,
whatever the order of the actions, and every volume is divided by them in stages. -/
theorem applyAdjustments_eq {actions : List CorporateAction}
    (positive : ∀ action ∈ actions, 0 < action.factor) (frame : List CandleRow) :
    applyAdjustments frame actions = .ok (frame.map fun row => { adjustOnce actions row with
      volume := divideInStages (laterFactors (sortByExDate actions) row.ts) row.volume }) := by
  have sorted := sortByExDate_perm actions
  rw [applyAdjustments]
  split_ifs with nothing
  · rcases Bool.or_eq_true_iff.mp nothing with noRows | noActions
    · rw [List.isEmpty_iff.mp noRows]
      rfl
    · rw [List.isEmpty_iff.mp noActions]
      simp [sortByExDate, laterFactors, adjustOnce, divideInStages]
  · rw [foldlM_adjustFrame fun action mem => positive action (sorted.mem_iff.mp mem)]
    simp only [foldl_adjustRow, adjustOnce_perm sorted]

/-- Along the later actions, earlier ones first, no division of the volume but the last one
leaves a fraction. -/
def VolumesDivideExactly (frame : List CandleRow) (actions : List CorporateAction) : Prop :=
  ∀ row ∈ frame, DividesExactly (laterFactors (sortByExDate actions) row.ts) row.volume

/-- Where the volumes are divided without a fraction before the last action, in whatever order the
actions are given, every row is adjusted in one step by the product of the later factors, and the
order does not matter. -/
theorem applyAdjustments_eq_once {frame : List CandleRow} {actions : List CorporateAction}
    (positive : ∀ action ∈ actions, 0 < action.factor)
    (exact : ∀ reordered : List CorporateAction, reordered.Perm actions →
      VolumesDivideExactly frame reordered) :
    ∀ reordered : List CorporateAction, reordered.Perm actions →
      applyAdjustments frame reordered = .ok (frame.map (adjustOnce actions)) := by
  intro reordered perm
  have positiveHere : ∀ action ∈ reordered, 0 < action.factor :=
    fun action mem => positive action (perm.mem_iff.mp mem)
  rw [applyAdjustments_eq positiveHere, Except.ok.injEq]
  apply List.map_congr_left
  intro row mem
  have sorted := laterFactors_perm (sortByExDate_perm reordered) row.ts
  rw [divideInStages_eq (exact reordered perm row mem), sorted.prod_eq,
    ← adjustOnce_perm perm]
  rfl

/-- A candle of the first day of the epoch. -/
def firstCandle (volume : ℤ) : CandleRow := ⟨0, 10, 12, 8, 11, volume, 0⟩

/-- A split of one share into five, and after it a bonus of one share for one. -/
def splitThenBonus : List CorporateAction := [{ exDate := 1, factor := 1 / 5 },
  { exDate := 2, factor := 1 / 2, kind := "bonus" }]

theorem applyAdjustments_eq_once_sample :
    applyAdjustments [firstCandle 7] splitThenBonus.reverse =
      .ok ([firstCandle 7].map (adjustOnce splitThenBonus)) := by
  have factors : ∀ action ∈ splitThenBonus, ∃ n : ℕ, 0 < n ∧ action.factor = 1 / n := by
    intro action mem
    fin_cases mem
    · exact ⟨5, by decide, rfl⟩
    · exact ⟨2, by decide, rfl⟩
  apply applyAdjustments_eq_once _ _ _ (List.reverse_perm splitThenBonus)
  · intro action mem
    rcases factors action mem with ⟨n, positive, factor⟩
    rw [factor]
    positivity
  · intro reordered perm row _
    apply DividesExactly.of_reciprocals
    intro factor mem
    rcases List.mem_map.mp mem with ⟨action, later, rfl⟩
    rcases factors action ((perm.mem_iff.mp ((sortByExDate_perm reordered).mem_iff.mp
      (List.mem_of_mem_filter later)))) with ⟨n, _, factor⟩
    exact ⟨n, factor⟩

/-- A consolidation of two shares into one, and after it a split of one share into two. -/
def consolidationThenSplit : List CorporateAction := [{ exDate := 1, factor := 2, kind := "other" },
  { exDate := 2, factor := 1 / 2 }]

/-- The single share that was traded is rounded away, though the factors cancel. -/
theorem consolidationThenSplit_loses_volume :
    applyAdjustments [firstCandle 1] consolidationThenSplit ≠
        .ok ([firstCandle 1].map (adjustOnce consolidationThenSplit)) ∧
      (applyAdjustments [firstCandle 1] consolidationThenSplit).map (List.map CandleRow.volume) =
        .ok [0] := by
  have lost : (applyAdjustments [firstCandle 1] consolidationThenSplit).map
      (List.map CandleRow.volume) = .ok [0] := by decide +kernel
  have kept : (adjustOnce consolidationThenSplit (firstCandle 1)).volume = 1 := by decide +kernel
  refine ⟨fun same => ?_, lost⟩
  rw [same] at lost
  simp [Except.map, kept] at lost

end PersonalTrade
