import PersonalTrade.Core.Calendar
import PersonalTrade.Intelligence.Merge
import PersonalTrade.Library.Table

/-!
# Analysis service

`intelligence/llm/provider.py` and `intelligence/analysis/service.py`: the budget is
checked before a call of the provider, and an answer leaves an audit row. The
provider is outside the program: it is given by its answers to its successive calls.
The prompt and its hash are not modelled.
-/

namespace PersonalTrade

/-- `AIConfig`, with the fields that the budget reads. -/
structure AIConfig where
  enabled : Bool := true
  dailyCallCap : ℕ := 100
  monthlyUsdCap : ℚ := 25
  monthlyUsdCap_nonneg : 0 ≤ monthlyUsdCap := by norm_num

instance : Inhabited AIConfig := ⟨{}⟩

/-- `LLMResult`, without the raw text. -/
structure LLMResult where
  parsed : AIAnalysisOutput
  model : String
  inputTokens : ℕ
  outputTokens : ℕ
  costUsd : ℚ

/-- The exceptions of a provider. -/
inductive LLMError where
  | providerError (message : String)
  | outputInvalid (message : String)
deriving DecidableEq, Repr

/-- `LLMProvider`: the answers to its calls, by their number, and the times at which their audit
rows are made. -/
structure LLMProvider where
  analyze : ℕ → Except LLMError LLMResult
  utcnow : ℕ → ℤ

/-- `AIAnalysis`, an audit row. -/
structure AIAnalysis where
  instrumentId : ℕ
  model : String
  output : AIAnalysisOutput
  inputTokens : ℕ
  outputTokens : ℕ
  costUsd : ℚ
  createdAt : ℤ

/-- The audit rows and the number of calls made to the provider. -/
structure AIState where
  analyses : RowTable AIAnalysis
  calls : ℕ := 0

/-- `AIAnalysisRepository.count_since`. -/
def AIState.countSince (state : AIState) (since : ℤ) : ℕ :=
  state.analyses.rows.countP fun row => since ≤ row.createdAt

/-- `AIAnalysisRepository.sum_cost_since`. -/
def AIState.sumCostSince (state : AIState) (since : ℤ) : ℚ :=
  ((state.analyses.rows.filter fun row => since ≤ row.createdAt).map AIAnalysis.costUsd).sum

/-- The reasons for which there is no analysis. -/
inductive AIUnavailable where
  | disabled
  | dailyCallCap (cap : ℕ)
  | monthlyUsdCap (cap : ℚ)
  | provider (raised : LLMError)
deriving DecidableEq, Repr

/-- `AnalysisOutcome`, with the key of its record. -/
structure AnalysisOutcome where
  record : ℕ
  output : AIAnalysisOutput

/-- `_day_start`. -/
def startOfDay (now : ℤ) : ℤ := dayStart (utcDate now)

/-- `_month_start`. -/
def startOfMonth (now : ℤ) : ℤ := dayStart (utcDate now - (dayOfMonth (utcDate now) - 1))

/-- `analyze_instrument`. -/
def analyzeInstrument (provider : LLMProvider) (cfg : AIConfig) (now : ℤ) (instrumentId : ℕ)
    (state : AIState) : Except AIUnavailable AnalysisOutcome × AIState :=
  if ¬ cfg.enabled then (.error .disabled, state)
  else if cfg.dailyCallCap ≤ state.countSince (startOfDay now) then
    (.error (.dailyCallCap cfg.dailyCallCap), state)
  else if cfg.monthlyUsdCap ≤ state.sumCostSince (startOfMonth now) then
    (.error (.monthlyUsdCap cfg.monthlyUsdCap), state)
  else
    match provider.analyze state.calls with
    | .error raised => (.error (.provider raised), { state with calls := state.calls + 1 })
    | .ok result =>
        (.ok ⟨state.analyses.nextId, result.parsed⟩,
          { analyses := state.analyses.insert
              ⟨instrumentId, result.model, result.parsed, result.inputTokens,
                result.outputTokens, result.costUsd, provider.utcnow state.calls⟩
            calls := state.calls + 1 })

/-- The budget leaves room for a call. -/
def AIState.Affords (state : AIState) (cfg : AIConfig) (now : ℤ) : Prop :=
  state.countSince (startOfDay now) < cfg.dailyCallCap ∧
    state.sumCostSince (startOfMonth now) < cfg.monthlyUsdCap

/-- What an analysis does to the audit rows and the calls: nothing, or one affordable call that
leaves a row exactly when the provider returns a result. -/
theorem analyzeInstrument_cases (provider : LLMProvider) (cfg : AIConfig) (now : ℤ)
    (instrumentId : ℕ) (state : AIState) :
    (analyzeInstrument provider cfg now instrumentId state).2 = state ∨
      state.Affords cfg now ∧
        ((∃ raised, provider.analyze state.calls = .error raised ∧
            (analyzeInstrument provider cfg now instrumentId state).2 =
              { state with calls := state.calls + 1 }) ∨
          ∃ result, provider.analyze state.calls = .ok result ∧
            (analyzeInstrument provider cfg now instrumentId state).2 =
              { analyses := state.analyses.insert
                  ⟨instrumentId, result.model, result.parsed, result.inputTokens,
                    result.outputTokens, result.costUsd, provider.utcnow state.calls⟩
                calls := state.calls + 1 }) := by
  unfold analyzeInstrument
  split_ifs with enabled counted spent
  · exact .inl rfl
  · exact .inl rfl
  · refine .inr ⟨⟨not_le.mp counted, not_le.mp spent⟩, ?_⟩
    cases answered : provider.analyze state.calls with
    | error raised => exact .inl ⟨raised, rfl, rfl⟩
    | ok result => exact .inr ⟨result, rfl, rfl⟩
  · exact .inl rfl

end PersonalTrade
