import PersonalTrade.Core.Enums

/-!
# Merging a signal with an analysis

`intelligence/analysis/schema.py` and `intelligence/recommendation/merge.py`: the
action of a recommendation follows from the signal and the position, and an analysis
can only turn a BUY or a SELL into a HOLD.
-/

namespace PersonalTrade

/-- The stances of an analysis. -/
inductive Stance where
  | bullish
  | bearish
  | neutral
deriving DecidableEq, Repr

/-- The convictions of an analysis. -/
inductive Conviction where
  | low
  | medium
  | high
deriving DecidableEq, Repr

/-- The news impacts of an analysis; `nothing` is the source's `none`. -/
inductive NewsImpact where
  | positive
  | negative
  | mixed
  | nothing
deriving DecidableEq, Repr

/-- `AIAnalysisOutput`, with the bounds of its fields. -/
structure AIAnalysisOutput where
  stance : Stance
  conviction : Conviction
  keyFactors : List String
  risks : List String
  newsImpact : NewsImpact
  summary : String
  keyFactors_length : keyFactors.length ≤ 5
  risks_length : risks.length ≤ 5
  summary_length : summary.length ≤ 600

/-- `RecommendationConfig`, without the interval. -/
structure RecommendationConfig where
  vetoConvictionThreshold : Conviction := .high

/-- The value of a conviction. -/
def Conviction.value : Conviction → String
  | .low => "low"
  | .medium => "medium"
  | .high => "high"

/-- `CONVICTION_SCORE`. -/
def convictionScore : Conviction → ℕ
  | .low => 1
  | .medium => 2
  | .high => 3

/-- `deterministic_action`. -/
def deterministicAction (direction : SignalDirection) (positionQty : ℤ) : RecommendationAction :=
  match direction with
  | .long => if 0 < positionQty then .hold else .buy
  | .short => if positionQty < 0 then .hold else .sell
  | .exit => if 0 < positionQty then .sell else if positionQty < 0 then .buy else .avoid

/-- The entry `ai` of a rationale. -/
structure AIRationale where
  stance : Stance
  conviction : Conviction
  newsImpact : NewsImpact
  summary : String
deriving DecidableEq, Repr

/-- The rationale of a recommendation. -/
structure Rationale where
  signalDirection : SignalDirection
  positionQty : ℤ
  deterministicAction : RecommendationAction
  ai : Option AIRationale := none
  veto : Option String := none
  finalAction : RecommendationAction
deriving DecidableEq, Repr

/-- The veto of an analysis over an action: the action that replaces it, and the reason. -/
def vetoOf (aiOutput : AIAnalysisOutput) (cfg : RecommendationConfig)
    (baseAction : RecommendationAction) : Option (RecommendationAction × String) :=
  if convictionScore cfg.vetoConvictionThreshold ≤ convictionScore aiOutput.conviction then
    if baseAction = .buy ∧ aiOutput.newsImpact = .negative then
      some (.hold, "AI conviction=" ++ aiOutput.conviction.value ++
        " negative news_impact downgraded BUY to HOLD")
    else if baseAction = .sell ∧ aiOutput.newsImpact = .positive then
      some (.hold, "AI conviction=" ++ aiOutput.conviction.value ++
        " positive news_impact downgraded SELL to HOLD")
    else none
  else none

/-- `merge_recommendation`. -/
def mergeRecommendation (direction : SignalDirection) (positionQty : ℤ)
    (aiOutput : Option AIAnalysisOutput) (cfg : RecommendationConfig) :
    RecommendationAction × Rationale :=
  let baseAction := deterministicAction direction positionQty
  let rationale : Rationale :=
    { signalDirection := direction, positionQty, deterministicAction := baseAction
      finalAction := baseAction }
  match aiOutput with
  | none => (baseAction, rationale)
  | some output =>
      let veto := vetoOf output cfg baseAction
      let finalAction := (veto.map Prod.fst).getD baseAction
      (finalAction,
        { rationale with
          ai := some ⟨output.stance, output.conviction, output.newsImpact, output.summary⟩
          veto := veto.map Prod.snd
          finalAction })

/-- `_ACTION_RANK_TIER`. -/
def actionRankTier : RecommendationAction → ℕ
  | .buy => 0
  | .sell => 0
  | .hold => 1
  | .avoid => 2

/-- `rank_sort_key`. -/
def rankSortKey (action : RecommendationAction) (aiOutput : Option AIAnalysisOutput) : ℕ × ℤ :=
  let conviction := (aiOutput.map fun output => convictionScore output.conviction).getD 0
  (actionRankTier action, -conviction)

theorem hold_of_vetoOf {aiOutput : AIAnalysisOutput} {cfg : RecommendationConfig}
    {baseAction : RecommendationAction} {veto : RecommendationAction × String}
    (vetoed : vetoOf aiOutput cfg baseAction = some veto) :
    veto.1 = .hold ∧ (baseAction = .buy ∨ baseAction = .sell) := by
  rw [vetoOf] at vetoed
  split_ifs at vetoed with _ bad good
  · cases vetoed
    exact ⟨rfl, .inl bad.1⟩
  · cases vetoed
    exact ⟨rfl, .inr good.1⟩

/-- What a merge returns, whatever the analysis. -/
theorem mergeRecommendation_cases (direction : SignalDirection) (positionQty : ℤ)
    (aiOutput : Option AIAnalysisOutput) (cfg : RecommendationConfig) :
    let merged := mergeRecommendation direction positionQty aiOutput cfg
    merged.2.signalDirection = direction ∧ merged.2.positionQty = positionQty ∧
    merged.2.deterministicAction = deterministicAction direction positionQty ∧
    merged.2.finalAction = merged.1 ∧
    (merged.1 = merged.2.deterministicAction ∨
      merged.1 = .hold ∧ (merged.2.deterministicAction = .buy ∨
        merged.2.deterministicAction = .sell)) := by
  cases aiOutput with
  | none => exact ⟨rfl, rfl, rfl, rfl, .inl rfl⟩
  | some output =>
      refine ⟨rfl, rfl, rfl, rfl, ?_⟩
      simp only [mergeRecommendation]
      cases vetoed : vetoOf output cfg (deterministicAction direction positionQty) with
      | none => exact .inl rfl
      | some veto =>
          right
          rcases hold_of_vetoOf vetoed with ⟨hold, base⟩
          exact ⟨hold, base⟩

end PersonalTrade
