import Mathlib.Data.List.Sort
import Mathlib.Data.Prod.Lex
import Mathlib.Data.String.Basic
import PersonalTrade.Intelligence.Analysis
import PersonalTrade.Intelligence.Screener
import PersonalTrade.Store.Repos

/-!
# Recommendation cycle

`intelligence/recommendation/engine.py`: one strategy object is called on the last
candle of every instrument in turn, each signal is merged with an analysis if there
is one, and the candidates are ranked. The snapshot of the market and the news it
shows to the provider are not modelled.
-/

namespace PersonalTrade

/-- `candles_by_symbol`. -/
abbrev CandlesBySymbol := AList fun _ : String => List CandleRow

/-- The arguments of `run_recommendation_cycle` that the deterministic part reads. -/
structure CycleSetup where
  sqrt : ℚ → ℚ
  instruments : List ListedInstrument
  db : DB
  recCfg : RecommendationConfig
  exchange : String := "NSE"
  now : ℤ

/-- What a cycle needs for its analyses: the provider, if any, and the budget. -/
structure AIService where
  provider : Option LLMProvider
  cfg : AIConfig
  state : AIState

/-- The deterministic basis of a recommendation. -/
structure Basis where
  instrument : ListedInstrument
  positionQty : ℤ
  signal : Signal
deriving DecidableEq

/-- `_Candidate`, with its basis. -/
structure Candidate where
  basis : Basis
  action : RecommendationAction
  rationale : Rationale
  aiOutput : Option AIAnalysisOutput
  aiRecord : Option ℕ

structure Recommendation where
  instrumentId : ℕ
  aiAnalysisId : Option ℕ
  action : RecommendationAction
  rank : ℕ
  rationale : Rationale
  createdAt : ℤ

/-- `ScreenedRecommendation`, with its basis. -/
structure ScreenedRecommendation where
  basis : Basis
  record : Recommendation
  aiOutput : Option AIAnalysisOutput

/-- The variables of the loop over the instruments. -/
structure Screening (σ : Type) where
  memory : σ
  ai : AIState
  candidates : List Candidate := []

/-- `_position_view`. -/
def positionView : Option Position → PositionView
  | none => flatPosition
  | some row => if row.qty = 0 then flatPosition else ⟨row.qty, row.avgPrice⟩

/-- `_try_ai_analysis`. -/
def tryAiAnalysis (service : AIService) (now : ℤ) (instrumentId : ℕ) (state : AIState) :
    Option AnalysisOutcome × AIState :=
  match service.provider with
  | none => (none, state)
  | some provider =>
      match analyzeInstrument provider service.cfg now instrumentId state with
      | (.error _, state) => (none, state)
      | (.ok outcome, state) => (some outcome, state)

/-- The sort key of a candidate: `rank_sort_key` and the symbol. -/
def Candidate.sortKey (candidate : Candidate) : ℕ ×ₗ ℤ ×ₗ String :=
  let key := rankSortKey candidate.action candidate.aiOutput
  toLex (key.1, toLex (key.2, candidate.basis.instrument.symbol))

/-- `candidates.sort`. -/
def sortCandidates (candidates : List Candidate) : List Candidate :=
  candidates.insertionSort (·.sortKey ≤ ·.sortKey)

namespace CycleSetup

variable {σ : Type}

/-- The position of an instrument in the paper account. -/
def position (setup : CycleSetup) (instrument : ListedInstrument) : PositionView :=
  positionView (setup.db.positionFor instrument.id .paper)

/-- A turn of the loop up to its signal. -/
def basisOf (setup : CycleSetup) (strategy : Strategy σ) (symbol : String)
    (candles : List CandleRow) (memory : σ) : Except PyError (Option Basis × σ) :=
  match getBySymbol setup.instruments symbol setup.exchange with
  | none => pure (none, memory)
  | some instrument => do
      let position := setup.position instrument
      let latest ← latestSignal setup.sqrt strategy candles position memory
      pure (latest.1.map (Basis.mk instrument position.qty), latest.2)

/-- The candidate that a basis becomes. -/
def candidate (setup : CycleSetup) (basis : Basis) (outcome : Option AnalysisOutcome) : Candidate :=
  let merged := mergeRecommendation basis.signal.direction basis.positionQty
    (outcome.map AnalysisOutcome.output) setup.recCfg
  ⟨basis, merged.1, merged.2, outcome.map AnalysisOutcome.output,
    outcome.map AnalysisOutcome.record⟩

/-- One turn of the loop. -/
def screen (setup : CycleSetup) (strategy : Strategy σ) (service : AIService)
    (state : Screening σ) (entry : Sigma fun _ : String => List CandleRow) :
    Except PyError (Screening σ) := do
  let screened ← setup.basisOf strategy entry.1 entry.2 state.memory
  match screened.1 with
  | none => pure { state with memory := screened.2 }
  | some basis =>
      let analyzed := tryAiAnalysis service setup.now basis.instrument.id state.ai
      pure
        { memory := screened.2
          ai := analyzed.2
          candidates := state.candidates ++ [setup.candidate basis analyzed.1] }

/-- The row of a ranked candidate. -/
def recommend (setup : CycleSetup) (ranked : Candidate × ℕ) : ScreenedRecommendation where
  basis := ranked.1.basis
  record :=
    { instrumentId := ranked.1.basis.instrument.id
      aiAnalysisId := ranked.1.aiRecord
      action := ranked.1.action
      rank := ranked.2
      rationale := ranked.1.rationale
      createdAt := setup.now }
  aiOutput := ranked.1.aiOutput

/-- `run_recommendation_cycle`. -/
def run (setup : CycleSetup) (strategy : FreshStrategy σ) (service : AIService)
    (candlesBySymbol : CandlesBySymbol) : Except PyError (List ScreenedRecommendation) := do
  let screened ← candlesBySymbol.entries.foldlM (setup.screen strategy.strategy service)
    { memory := strategy.fresh, ai := service.state }
  pure ((sortCandidates screened.candidates).zipIdx 1 |>.map setup.recommend)

end CycleSetup

end PersonalTrade
