import PersonalTrade.Intelligence.Analysis

/-!
# Claude behind the provider protocol

`intelligence/llm/anthropic_provider.py`. The SDK client is outside the program: it is given by
its answers to its successive calls, a message or an API error. The prompts, the raw text and
the choice of the backend from the secrets are not modelled.
-/

namespace PersonalTrade

structure ModelPricing where
  inputPerMtok : ℚ
  outputPerMtok : ℚ
  inputPerMtok_nonneg : 0 ≤ inputPerMtok
  outputPerMtok_nonneg : 0 ≤ outputPerMtok

/-- The price of the tokens of a message. -/
def ModelPricing.price (rates : ModelPricing) (inputTokens outputTokens : ℕ) : ℚ :=
  inputTokens * rates.inputPerMtok / 1000000 + outputTokens * rates.outputPerMtok / 1000000

inductive Backend where
  | bedrock
  | direct
deriving DecidableEq, Repr

/-- The text of a backend. -/
def Backend.value : Backend → String
  | bedrock => "bedrock"
  | direct => "direct"

/-- `_BEDROCK_MODEL_IDS`. -/
def bedrockModelIds : List (String × String) :=
  [("claude-opus-4-8", "global.anthropic.claude-opus-4-8"),
    ("claude-haiku-4-5", "global.anthropic.claude-haiku-4-5-20251001-v1:0")]

/-- `_resolve_model_id`; `UnknownBedrockModel` is a provider error. -/
def resolveModelId (canonical : String) : Backend → Except LLMError String
  | .direct => .ok canonical
  | .bedrock =>
      match bedrockModelIds.lookup canonical with
      | some modelId => .ok modelId
      | none => .error (.providerError ("no Bedrock inference-profile id mapped for model '" ++
          canonical ++ "' — add one to _BEDROCK_MODEL_IDS in " ++
          "personaltrade.intelligence.llm.anthropic_provider"))

/-- `ParsedMessage`, with the fields that are read. -/
structure ParsedMessage where
  parsedOutput : Option AIAnalysisOutput
  inputTokens : ℕ
  outputTokens : ℕ

structure AnthropicLLMProvider where
  client : ℕ → Except String ParsedMessage
  backend : Backend
  model : String
  pricing : List (String × ModelPricing)

namespace AnthropicLLMProvider

/-- `_cost`: a model without a price costs nothing. -/
def cost (model : String) (inputTokens outputTokens : ℕ) (pricing : List (String × ModelPricing)) :
    ℚ :=
  match pricing.lookup model with
  | none => 0
  | some rates => rates.price inputTokens outputTokens

/-- `analyze`, as the call with this number. -/
def analyze (provider : AnthropicLLMProvider) (call : ℕ) : Except LLMError LLMResult := do
  let modelId ← resolveModelId provider.model provider.backend
  match provider.client call with
  | .error exception =>
      .error (.providerError (provider.backend.value ++ " backend call failed: " ++ exception))
  | .ok response =>
      match response.parsedOutput with
      | none => .error (.outputInvalid
          ("model response for " ++ modelId ++ " did not parse against AIAnalysisOutput"))
      | some parsed =>
          .ok ⟨parsed, provider.model, response.inputTokens, response.outputTokens,
            cost provider.model response.inputTokens response.outputTokens provider.pricing⟩

/-- The message that a call gets, and is billed for, whether or not its output parses. -/
def answered (provider : AnthropicLLMProvider) (call : ℕ) : Option ParsedMessage :=
  match resolveModelId provider.model provider.backend with
  | .error _ => none
  | .ok _ => (provider.client call).toOption

variable {provider : AnthropicLLMProvider} {call : ℕ}

/-- A call returns exactly when it gets a message whose output parses; the result carries its
tokens and their configured cost. -/
theorem analyze_eq_ok {result : LLMResult} :
    provider.analyze call = .ok result ↔
      ∃ message parsed, provider.answered call = some message ∧
        message.parsedOutput = some parsed ∧
        result = ⟨parsed, provider.model, message.inputTokens, message.outputTokens,
          cost provider.model message.inputTokens message.outputTokens provider.pricing⟩ := by
  unfold analyze answered
  cases resolveModelId provider.model provider.backend with
  | error raised => simp [bind, Except.bind]
  | ok modelId =>
      cases provider.client call with
      | error exception => simp [bind, Except.bind, Except.toOption]
      | ok message =>
          cases parsedEq : message.parsedOutput with
          | none => simp [bind, Except.bind, Except.toOption, parsedEq]
          | some parsed => simp [bind, Except.bind, Except.toOption, parsedEq, eq_comm]

end AnthropicLLMProvider

end PersonalTrade
