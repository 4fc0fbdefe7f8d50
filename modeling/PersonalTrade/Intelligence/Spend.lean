import PersonalTrade.Intelligence.Anthropic
import PersonalTrade.Intelligence.Recommendation
import PersonalTrade.Library.Run

/-!
# What the analyses spend

Cycles of analyses, each in a transaction that is committed or rolled back, beside the calls
that the provider bills for. The audit rows are the rows before plus one for each billed call
whose message parsed and whose cycle was not rolled back (`Booked`), at its configured cost.
Both caps read nothing else.
-/

namespace PersonalTrade

/-! ## Billed calls -/

/-- A call that the provider bills for, with its cost under the configured pricing. -/
structure BilledCall where
  madeAt : ℤ
  model : String
  message : ParsedMessage
  cost : ℚ
  rolledBack : Bool := false

/-- The message parsed and the cycle of the call was not rolled back. -/
def BilledCall.kept (call : BilledCall) : Bool :=
  call.message.parsedOutput.isSome && !call.rolledBack

/-- What the provider charges for a call, at its own prices. -/
def BilledCall.charge (prices : String → ModelPricing) (call : BilledCall) : ℚ :=
  (prices call.model).price call.message.inputTokens call.message.outputTokens

/-- One `_try_ai_analysis` of a cycle. -/
structure AnalysisCall where
  provider : AnthropicLLMProvider
  utcnow : ℕ → ℤ
  cfg : AIConfig
  now : ℤ
  instrumentId : ℕ

namespace AnalysisCall

/-- The audit rows and the calls after the analysis. -/
def run (call : AnalysisCall) (session : AIState) : AIState :=
  (tryAiAnalysis ⟨some ⟨call.provider.analyze, call.utcnow⟩, call.cfg, session⟩ call.now
    call.instrumentId session).2

/-- The analysis asks the provider. -/
def Asks (call : AnalysisCall) (session : AIState) : Prop :=
  (call.run session).calls ≠ session.calls

instance (call : AnalysisCall) (session : AIState) : Decidable (call.Asks session) :=
  inferInstanceAs (Decidable (_ ≠ _))

/-- The call that the analysis is billed for. -/
def billed (call : AnalysisCall) (session : AIState) : Option BilledCall :=
  if call.Asks session then
    (call.provider.answered session.calls).map fun message =>
      { madeAt := call.utcnow session.calls
        model := call.provider.model
        message
        cost := AnthropicLLMProvider.cost call.provider.model message.inputTokens
          message.outputTokens call.provider.pricing }
  else none

end AnalysisCall

/-! ## Audit rows -/

/-- What a budget reads of an audit row. -/
def AIAnalysis.entry (row : AIAnalysis) : ℤ × ℚ := (row.createdAt, row.costUsd)

/-- What a budget would read of a call. -/
def BilledCall.entry (call : BilledCall) : ℤ × ℚ := (call.madeAt, call.cost)

/-- What a budget reads of a table. -/
def entriesOf (analyses : RowTable AIAnalysis) : List (ℤ × ℚ) := analyses.rows.map AIAnalysis.entry

theorem AIState.countSince_eq (state : AIState) (since : ℤ) :
    state.countSince since = (entriesOf state.analyses).countP fun entry => since ≤ entry.1 := by
  rw [countSince, entriesOf, List.countP_map]
  rfl

theorem AIState.sumCostSince_eq (state : AIState) (since : ℤ) :
    state.sumCostSince since =
      (((entriesOf state.analyses).filter fun entry => since ≤ entry.1).map Prod.snd).sum := by
  rw [sumCostSince, entriesOf, List.filter_map, List.map_map]
  rfl

namespace AnalysisCall

theorem run_eq (call : AnalysisCall) (session : AIState) :
    call.run session = (analyzeInstrument ⟨call.provider.analyze, call.utcnow⟩ call.cfg call.now
      call.instrumentId session).2 := by
  simp only [run, tryAiAnalysis]
  rcases analyzeInstrument ⟨call.provider.analyze, call.utcnow⟩ call.cfg call.now
    call.instrumentId session with ⟨_ | _, _⟩ <;> rfl

/-- What an analysis does: nothing without a call, and within the budget an entry for the call
if it is billed and its message parsed. -/
theorem run_cases (call : AnalysisCall) (session : AIState) :
    (call.run session = session ∧ call.billed session = none ∧ ¬ call.Asks session) ∨
      session.Affords call.cfg call.now ∧
        entriesOf (call.run session).analyses = entriesOf session.analyses ++
          ((call.billed session).toList.filter BilledCall.kept).map BilledCall.entry := by
  rcases analyzeInstrument_cases ⟨call.provider.analyze, call.utcnow⟩ call.cfg call.now
    call.instrumentId session with
    same | ⟨affords, ⟨raised, failed, after⟩ | ⟨result, returned, after⟩⟩
  · rw [← run_eq] at same
    have idle : ¬ call.Asks session := fun asks => asks (by rw [same])
    exact .inl ⟨same, if_neg idle, idle⟩
  · rw [← run_eq] at after
    have asks : call.Asks session := by simp [Asks, after]
    refine .inr ⟨affords, ?_⟩
    have unparsed : ∀ message, call.provider.answered session.calls = some message →
        message.parsedOutput = none := by
      intro message answered
      cases parsedEq : message.parsedOutput with
      | none => rfl
      | some parsed =>
          have returned := AnthropicLLMProvider.analyze_eq_ok.mpr
            ⟨message, parsed, answered, parsedEq, rfl⟩
          cases returned.symm.trans failed
    rw [after, billed, if_pos asks]
    cases answered : call.provider.answered session.calls with
    | none => simp
    | some message => simp [BilledCall.kept, unparsed message answered]
  · rw [← run_eq] at after
    have asks : call.Asks session := by simp [Asks, after]
    refine .inr ⟨affords, ?_⟩
    rcases AnthropicLLMProvider.analyze_eq_ok.mp returned with
      ⟨message, parsed, answered, parsedEq, rfl⟩
    rw [after, billed, if_pos asks, answered]
    simp [BilledCall.kept, parsedEq, entriesOf, RowTable.insert, AIAnalysis.entry, BilledCall.entry]

end AnalysisCall

/-! ## Runs -/

/-- A step of the cycles: an analysis, or the end of a transaction. -/
inductive SpendStep where
  | analyze (call : AnalysisCall)
  | commit
  | rollback

/-- The committed rows and those of the session, and the billed calls of the finished cycles
and of the current one. -/
structure SpendState where
  stored : RowTable AIAnalysis
  session : AIState
  settled : List BilledCall := []
  pending : List BilledCall := []

namespace SpendState

/-- A session on committed rows, before any call. -/
def opened (rows : RowTable AIAnalysis) : SpendState where
  stored := rows
  session := ⟨rows, 0⟩

/-- All billed calls so far. -/
def billed (state : SpendState) : List BilledCall := state.settled ++ state.pending

/-- The state after a step. A rollback restores the committed rows; what is billed stays so. -/
def step (state : SpendState) : SpendStep → SpendState
  | .analyze call =>
      { state with
        session := call.run state.session
        pending := state.pending ++ (call.billed state.session).toList }
  | .commit =>
      { state with
        stored := state.session.analyses
        settled := state.settled ++ state.pending
        pending := [] }
  | .rollback =>
      { state with
        session := { state.session with analyses := state.stored }
        settled := state.settled ++ state.pending.map fun call => { call with rolledBack := true }
        pending := [] }

end SpendState

/-- A recommendation cycle is a run of analyses at its time. -/
theorem CycleSetup.session_of_screened {σ : Type} {setup : CycleSetup} {strategy : Strategy σ}
    {provider : AnthropicLLMProvider} {utcnow : ℕ → ℤ} {cfg : AIConfig} {ai : AIState}
    {entries : List (Sigma fun _ : String => List CandleRow)} {screening next : Screening σ}
    {spend : SpendState} (same : spend.session = screening.ai)
    (screened : entries.foldlM
      (setup.screen strategy ⟨some ⟨provider.analyze, utcnow⟩, cfg, ai⟩) screening = .ok next) :
    ∃ instrumentIds : List ℕ, next.ai = (runSteps SpendState.step spend (instrumentIds.map
      fun id => .analyze ⟨provider, utcnow, cfg, setup.now, id⟩)).session := by
  induction entries generalizing screening spend with
  | nil =>
      cases screened
      exact ⟨[], same.symm⟩
  | cons entry entries ih =>
      rw [List.foldlM_cons] at screened
      rcases except_bind_eq_ok.mp screened with ⟨middle, first, rest⟩
      rcases except_bind_eq_ok.mp first with ⟨⟨basis, memory⟩, _, made⟩
      cases basis with
      | none =>
          cases made
          refine ih ?_ rest
          exact same
      | some basis =>
          cases made
          let call := AnalysisCall.mk provider utcnow cfg setup.now basis.instrument.id
          have onwards : ∃ instrumentIds : List ℕ, next.ai = (runSteps SpendState.step
              (spend.step (.analyze call)) (instrumentIds.map fun id =>
                .analyze ⟨provider, utcnow, cfg, setup.now, id⟩)).session := by
            refine ih ?_ rest
            exact congrArg call.run same
          rcases onwards with ⟨instrumentIds, after⟩
          exact ⟨basis.instrument.id :: instrumentIds, after⟩

namespace SpendState

/-- The rows are those before the run and one for each kept call. -/
structure Booked (rows : RowTable AIAnalysis) (state : SpendState) : Prop where
  stored : entriesOf state.stored =
    entriesOf rows ++ (state.settled.filter BilledCall.kept).map BilledCall.entry
  session : entriesOf state.session.analyses =
    entriesOf state.stored ++ (state.pending.filter BilledCall.kept).map BilledCall.entry

theorem booked_step {rows : RowTable AIAnalysis} (state : SpendState) (step : SpendStep)
    (booked : Booked rows state) : Booked rows (state.step step) := by
  cases step with
  | analyze call =>
      refine ⟨booked.stored, ?_⟩
      simp only [SpendState.step, List.filter_append, List.map_append]
      rcases call.run_cases state.session with ⟨same, unbilled, _⟩ | ⟨_, entries⟩
      · simp [same, unbilled, booked.session]
      · rw [entries, booked.session, List.append_assoc]
  | commit =>
      refine ⟨?_, by simp [SpendState.step]⟩
      simp only [SpendState.step, List.filter_append, List.map_append]
      rw [booked.session, booked.stored, List.append_assoc]
  | rollback =>
      have lost : (state.pending.map fun call => { call with rolledBack := true }).filter
          BilledCall.kept = [] := by
        simp [List.filter_map, Function.comp_def, BilledCall.kept]
      refine ⟨?_, by simp [SpendState.step]⟩
      simp only [SpendState.step, List.filter_append, List.map_append, lost]
      simpa using booked.stored

end SpendState

/-- The store counts these calls at these costs, beyond the rows it had. -/
def Remembers (rows : RowTable AIAnalysis) (calls : List BilledCall) (cost : BilledCall → ℚ)
    (state : AIState) : Prop :=
  ∀ since,
    (AIState.mk rows 0).countSince since + calls.countP (fun call => since ≤ call.madeAt) ≤
        state.countSince since ∧
      (AIState.mk rows 0).sumCostSince since +
          ((calls.filter fun call => since ≤ call.madeAt).map cost).sum ≤ state.sumCostSince since

/-- Before an analysis the store remembers the calls, and the analysis asks the provider only
while fewer of them than the daily cap were made that day. -/
def SpendRemembered (rows : RowTable AIAnalysis) (among : BilledCall → Bool)
    (cost : BilledCall → ℚ) (made : SpendState × SpendStep) : Prop :=
  ∀ call, made.2 = .analyze call →
    Remembers rows (made.1.billed.filter among) cost made.1.session ∧
      (call.Asks made.1.session →
        (made.1.billed.filter among).countP (fun billed => startOfDay call.now ≤ billed.madeAt) <
          call.cfg.dailyCallCap)

namespace SpendState

variable {rows : RowTable AIAnalysis} {state : SpendState}

/-- A booked session has the rows before the run and one for each kept call. -/
theorem Booked.entries (booked : Booked rows state) :
    entriesOf state.session.analyses =
      entriesOf rows ++ (state.billed.filter BilledCall.kept).map BilledCall.entry := by
  rw [booked.session, booked.stored, billed, List.filter_append, List.map_append, List.append_assoc]

/-- Where the rows are booked, each kept call is counted once. -/
theorem Booked.countSince (booked : Booked rows state) (since : ℤ) :
    state.session.countSince since = (AIState.mk rows 0).countSince since +
      (state.billed.filter BilledCall.kept).countP fun call => since ≤ call.madeAt := by
  rw [AIState.countSince_eq, AIState.countSince_eq, booked.entries, List.countP_append,
    List.countP_map]
  rfl

/-- Where the rows are booked, each kept call is charged its configured cost. -/
theorem Booked.sumCostSince (booked : Booked rows state) (since : ℤ) :
    state.session.sumCostSince since = (AIState.mk rows 0).sumCostSince since +
      (((state.billed.filter BilledCall.kept).filter fun call => since ≤ call.madeAt).map
        BilledCall.cost).sum := by
  rw [AIState.sumCostSince_eq, AIState.sumCostSince_eq, booked.entries, List.filter_append,
    List.map_append, List.sum_append, List.filter_map, List.map_map]
  rfl

theorem Booked.remembers (booked : Booked rows state) :
    Remembers rows (state.billed.filter BilledCall.kept) BilledCall.cost state.session :=
  fun since => ⟨(booked.countSince since).ge, (booked.sumCostSince since).ge⟩

/-- In every run of cycles: every call that is billed, whose message parsed and whose cycle was
not rolled back is counted by all later checks, at its configured cost, and the provider is
asked only while fewer of them than the daily cap were made that day. -/
theorem spend_remembered (rows : RowTable AIAnalysis) (steps : List SpendStep) :
    ∀ made ∈ runTrace step (opened rows) steps,
      SpendRemembered rows BilledCall.kept BilledCall.cost made := by
  intro made mem call _
  have booked : Booked rows made.1 :=
    runTrace_invariant (fun _ _ => True) ⟨by simp [opened], by simp [opened]⟩
      (fun state step booked _ => booked_step state step booked) (fun _ _ => trivial) made mem
  refine ⟨booked.remembers, fun asks => ?_⟩
  rcases call.run_cases made.1.session with ⟨_, _, idle⟩ | ⟨affords, _⟩
  · exact absurd asks idle
  · exact (Nat.le_add_left _ _).trans_lt ((booked.remembers _).1.trans_lt affords.1)

end SpendState

/-! ## Two analyses -/

/-- Five dollars for a million input tokens, twenty-five for a million output tokens. -/
def opusPricing : ModelPricing := ⟨(5 : ℕ), (25 : ℕ), Nat.cast_nonneg _, Nat.cast_nonneg _⟩

/-- An analysis output. -/
def neutralOutput : AIAnalysisOutput :=
  ⟨.neutral, .low, [], [], .nothing, "", by decide, by decide, by decide⟩

/-- An analysis that is answered with a message of a thousand tokens each way. -/
def analysisOf (model : String) (parsedOutput : Option AIAnalysisOutput) : AnalysisCall where
  provider :=
    { client := fun _ => .ok ⟨parsedOutput, 1000, 1000⟩
      backend := .direct
      model
      pricing := [("claude-opus-4-8", opusPricing)] }
  utcnow _ := 0
  cfg := { (default : AIConfig) with dailyCallCap := 1 }
  now := 0
  instrumentId := 1

theorem SpendState.spend_remembered_sample :
    let priced := analysisOf "claude-opus-4-8" (some neutralOutput)
    SpendRemembered ⟨[]⟩ BilledCall.kept BilledCall.cost
      (runSteps SpendState.step (SpendState.opened ⟨[]⟩) [.analyze priced, .commit],
        .analyze priced) := by
  intro priced
  exact SpendState.spend_remembered ⟨[]⟩ [.analyze priced, .commit, .analyze priced] _
    (.tail _ (.tail _ (.head _)))

/-- What the provider is paid is forgotten for a model without a configured price, for an answer
that does not parse, and with a cycle that is rolled back; in the last two cases a second call
is made although one is all that the cap allows. -/
theorem spend_forgotten :
    let priced := analysisOf "claude-opus-4-8" (some neutralOutput)
    let run := runTrace SpendState.step (SpendState.opened ⟨[]⟩)
    let Remembered := fun made => SpendRemembered ⟨[]⟩ (fun _ => true)
      (BilledCall.charge fun _ => opusPricing) made
    (¬ ∀ made ∈ run [.analyze (analysisOf "some-unpriced-model" (some neutralOutput)),
        .analyze priced], Remembered made) ∧
      (¬ ∀ made ∈ run [.analyze (analysisOf "claude-opus-4-8" none), .analyze priced],
        Remembered made) ∧
      ¬ ∀ made ∈ run [.analyze priced, .rollback, .analyze priced], Remembered made := by
  refine ⟨fun remembered => ?_, fun remembered => ?_, fun remembered => ?_⟩
  · have costs := ((remembered _ (.tail _ (.head _)) _ rfl).1 0).2
    revert costs
    decide +kernel
  · have below := (remembered _ (.tail _ (.head _)) _ rfl).2
    revert below
    decide +kernel
  · have below := (remembered _ (.tail _ (.tail _ (.head _))) _ rfl).2
    revert below
    decide +kernel

end PersonalTrade
