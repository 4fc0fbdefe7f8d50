import PersonalTrade.Intelligence.Recommendation
import PersonalTrade.Library.Except

/-!
# What an analysis can change

The deterministic part of a cycle does not read the analyses, so that its bases are
the same whatever the provider answers. An analysis can replace an action by a HOLD
and move a row within the ranking, and nothing else.
-/

namespace PersonalTrade

variable {σ : Type}

namespace CycleSetup

variable {setup : CycleSetup} {strategy : Strategy σ} {service : AIService}

/-- A turn of the loop without its analysis. -/
def screenBasis (setup : CycleSetup) (strategy : Strategy σ) (state : σ × List Basis)
    (entry : Sigma fun _ : String => List CandleRow) : Except PyError (σ × List Basis) := do
  let screened ← setup.basisOf strategy entry.1 entry.2 state.1
  pure (screened.2, state.2 ++ screened.1.toList)

/-- The bases of a cycle, in the order of the instruments. -/
def bases (setup : CycleSetup) (strategy : FreshStrategy σ) (candlesBySymbol : CandlesBySymbol) :
    Except PyError (List Basis) := do
  let screened ← candlesBySymbol.entries.foldlM (setup.screenBasis strategy.strategy)
    (strategy.fresh, [])
  pure screened.2

end CycleSetup

/-- The deterministic part of the variables of the loop. -/
def Screening.bases (state : Screening σ) : σ × List Basis :=
  (state.memory, state.candidates.map Candidate.basis)

namespace CycleSetup

variable {setup : CycleSetup} {strategy : Strategy σ} {service : AIService}

theorem screen_bases (state : Screening σ) (entry : Sigma fun _ : String => List CandleRow) :
    (setup.screen strategy service state entry).map Screening.bases =
      setup.screenBasis strategy state.bases entry := by
  rw [screen, screenBasis, Screening.bases]
  rcases setup.basisOf strategy entry.1 entry.2 state.memory with raised | ⟨_ | basis, memory⟩
  · rfl
  · simp [bind, Except.bind, pure, Except.pure, Except.map, Screening.bases]
  · simp [bind, Except.bind, pure, Except.pure, Except.map, Screening.bases, candidate]

theorem foldlM_screen_bases (setup : CycleSetup) (strategy : Strategy σ) (service : AIService)
    (state : Screening σ) (entries : List (Sigma fun _ : String => List CandleRow)) :
    (entries.foldlM (setup.screen strategy service) state).map Screening.bases =
      entries.foldlM (setup.screenBasis strategy) state.bases := by
  induction entries generalizing state with
  | nil => rfl
  | cons entry entries ih =>
      rw [List.foldlM_cons, List.foldlM_cons, ← screen_bases]
      cases setup.screen strategy service state entry with
      | error raised => rfl
      | ok next => exact ih next

/-- Every candidate is the merge of its basis with some analysis, or with none. -/
def Merged (setup : CycleSetup) (candidate : Candidate) : Prop :=
  ∃ outcome, candidate = setup.candidate candidate.basis outcome

theorem merged_screen {state next : Screening σ} {entry : Sigma fun _ : String => List CandleRow}
    (merged : ∀ candidate ∈ state.candidates, setup.Merged candidate)
    (screened : setup.screen strategy service state entry = .ok next) :
    ∀ candidate ∈ next.candidates, setup.Merged candidate := by
  rcases except_bind_eq_ok.mp screened with ⟨⟨basis, memory⟩, _, made⟩
  cases basis with
  | none =>
      cases made
      exact merged
  | some basis =>
      cases made
      intro candidate mem
      rcases List.mem_append.mp mem with old | new
      · exact merged candidate old
      · rw [List.mem_singleton] at new
        subst candidate
        exact ⟨_, rfl⟩

theorem merged_foldlM {state next : Screening σ}
    {entries : List (Sigma fun _ : String => List CandleRow)}
    (merged : ∀ candidate ∈ state.candidates, setup.Merged candidate)
    (screened : entries.foldlM (setup.screen strategy service) state = .ok next) :
    ∀ candidate ∈ next.candidates, setup.Merged candidate := by
  induction entries generalizing state with
  | nil =>
      cases screened
      exact merged
  | cons entry entries ih =>
      rw [List.foldlM_cons] at screened
      rcases except_bind_eq_ok.mp screened with ⟨middle, first, rest⟩
      exact ih (merged_screen merged first) rest

theorem symbol_of_basisOf {symbol : String} {candles : List CandleRow} {memory after : σ}
    {basis : Basis}
    (screened : setup.basisOf strategy symbol candles memory = .ok (some basis, after)) :
    basis.instrument.symbol = symbol := by
  rw [basisOf] at screened
  split at screened
  · cases screened
  · rename_i instrument found
    rcases except_bind_eq_ok.mp screened with ⟨⟨signal, memory⟩, _, made⟩
    have listed := List.find?_some found
    rw [decide_eq_true_eq] at listed
    cases signal with
    | none => cases made
    | some signal =>
        cases made
        exact listed.1

/-- A cycle has at most one basis for each of its instruments, in their order. -/
theorem symbols_sublist {state next : σ × List Basis}
    {entries : List (Sigma fun _ : String => List CandleRow)}
    (screened : entries.foldlM (setup.screenBasis strategy) state = .ok next) :
    ∃ added, next.2 = state.2 ++ added ∧
      (added.map fun basis => basis.instrument.symbol).Sublist (entries.map Sigma.fst) := by
  induction entries generalizing state with
  | nil =>
      cases screened
      exact ⟨[], (List.append_nil _).symm, List.Sublist.refl _⟩
  | cons entry entries ih =>
      rw [List.foldlM_cons] at screened
      rcases except_bind_eq_ok.mp screened with ⟨middle, first, rest⟩
      rcases ih rest with ⟨added, appended, sublist⟩
      rcases except_bind_eq_ok.mp first with ⟨⟨basis, memory⟩, found, made⟩
      cases made
      refine ⟨basis.toList ++ added, ?_, ?_⟩
      · rw [appended, List.append_assoc]
      · cases basis with
        | none => exact sublist.cons _
        | some basis =>
            have own := symbol_of_basisOf found
            rw [Option.toList_some, List.singleton_append, List.map_cons, List.map_cons, own]
            exact sublist.cons_cons _

end CycleSetup

/-! ## The rows of a cycle -/

/-- The sort key of a row. -/
def ScreenedRecommendation.sortKey (row : ScreenedRecommendation) : ℕ ×ₗ ℤ ×ₗ String :=
  let key := rankSortKey row.record.action row.aiOutput
  toLex (key.1, toLex (key.2, row.basis.instrument.symbol))

/-- The rows are about the instruments of their bases and follow from them, the analyses can only
veto, and the ranks count the rows in the order of their keys. -/
structure VetoedOnly (rows : List ScreenedRecommendation) : Prop where
  instrument : ∀ row ∈ rows, row.record.instrumentId = row.basis.instrument.id
  deterministic : ∀ row ∈ rows, row.record.rationale.deterministicAction =
    deterministicAction row.basis.signal.direction row.basis.positionQty
  vetoed : ∀ row ∈ rows, row.record.action = row.record.rationale.deterministicAction ∨
    row.record.action = .hold ∧ (row.record.rationale.deterministicAction = .buy ∨
      row.record.rationale.deterministicAction = .sell)
  ranks : rows.map (fun row => row.record.rank) = List.range' 1 rows.length
  ordered : rows.Pairwise fun row row' => row.sortKey < row'.sortKey

/-- Candidates with different symbols have different keys. -/
theorem sortKey_lt_of_le {candidate candidate' : Candidate}
    (apart : candidate.basis.instrument.symbol ≠ candidate'.basis.instrument.symbol)
    (le : candidate.sortKey ≤ candidate'.sortKey) : candidate.sortKey < candidate'.sortKey := by
  apply lt_of_le_of_ne le
  intro same
  simp only [Candidate.sortKey, EmbeddingLike.apply_eq_iff_eq, Prod.mk.injEq] at same
  exact apart same.2.2

theorem perm_sortCandidates (candidates : List Candidate) :
    (sortCandidates candidates).Perm candidates := List.perm_insertionSort _ candidates

theorem pairwise_sortCandidates {candidates : List Candidate}
    (apart : (candidates.map fun candidate => candidate.basis.instrument.symbol).Nodup) :
    (sortCandidates candidates).Pairwise (·.sortKey < ·.sortKey) := by
  have sorted : (sortCandidates candidates).Pairwise (·.sortKey ≤ ·.sortKey) := by
    have : Std.Total fun left right : Candidate => left.sortKey ≤ right.sortKey :=
      ⟨fun _ _ => le_total _ _⟩
    have : IsTrans Candidate fun left right => left.sortKey ≤ right.sortKey :=
      ⟨fun _ _ _ => le_trans⟩
    exact List.pairwise_insertionSort _ candidates
  have symbols : (sortCandidates candidates).Pairwise fun left right =>
      left.basis.instrument.symbol ≠ right.basis.instrument.symbol :=
    (perm_sortCandidates candidates).symm.pairwise (List.pairwise_map.mp apart)
      fun ne => Ne.symm ne
  exact (sorted.and symbols).imp fun both => sortKey_lt_of_le both.2 both.1

namespace CycleSetup

variable {setup : CycleSetup} {strategy : FreshStrategy σ} {service : AIService}
  {candlesBySymbol : CandlesBySymbol}

/-- The deterministic part of the loop of a cycle. -/
theorem bases_eq (setup : CycleSetup) (strategy : FreshStrategy σ) (service : AIService)
    (candlesBySymbol : CandlesBySymbol) :
    setup.bases strategy candlesBySymbol =
      (candlesBySymbol.entries.foldlM (setup.screen strategy.strategy service)
        { memory := strategy.fresh, ai := service.state }).map
          fun final => final.candidates.map Candidate.basis := by
  have screened := foldlM_screen_bases setup strategy.strategy service
    { memory := strategy.fresh, ai := service.state } candlesBySymbol.entries
  change _ = candlesBySymbol.entries.foldlM (setup.screenBasis strategy.strategy)
    (strategy.fresh, []) at screened
  rw [bases, ← screened]
  cases candlesBySymbol.entries.foldlM (setup.screen strategy.strategy service)
    { memory := strategy.fresh, ai := service.state } <;> rfl

theorem bases_of_raised {raised : PyError}
    (failed : setup.run strategy service candlesBySymbol = .error raised) :
    setup.bases strategy candlesBySymbol = .error raised := by
  rw [bases_eq setup strategy service]
  rw [run] at failed
  cases looped : candlesBySymbol.entries.foldlM (setup.screen strategy.strategy service)
      { memory := strategy.fresh, ai := service.state } with
  | error other =>
      rw [looped] at failed
      cases failed
      rfl
  | ok next =>
      rw [looped] at failed
      cases failed

theorem nodup_symbols {bases : List Basis}
    (screened : setup.bases strategy candlesBySymbol = .ok bases) :
    (bases.map fun basis => basis.instrument.symbol).Nodup := by
  rcases except_bind_eq_ok.mp screened with ⟨final, looped, made⟩
  cases made
  rcases symbols_sublist looped with ⟨added, appended, sublist⟩
  rw [List.nil_append] at appended
  rw [appended]
  exact sublist.nodup candlesBySymbol.nodupKeys

/-- The rows of ranked candidates. -/
theorem vetoedOnly_recommend {candidates : List Candidate}
    (apart : (candidates.map fun candidate => candidate.basis.instrument.symbol).Nodup)
    (merged : ∀ candidate ∈ candidates, setup.Merged candidate) :
    VetoedOnly (((sortCandidates candidates).zipIdx 1).map setup.recommend) := by
  have made : ∀ row ∈ ((sortCandidates candidates).zipIdx 1).map setup.recommend,
      ∃ basis outcome rank, row = setup.recommend (setup.candidate basis outcome, rank) := by
    intro row mem
    rcases List.mem_map.mp mem with ⟨⟨candidate, rank⟩, ranked, rfl⟩
    have sorted := List.fst_mem_of_mem_zipIdx ranked
    rcases merged candidate ((perm_sortCandidates candidates).mem_iff.mp sorted) with ⟨outcome, own⟩
    exact ⟨candidate.basis, outcome, rank, by rw [← own]⟩
  constructor
  · intro row mem
    rcases made row mem with ⟨basis, outcome, rank, rfl⟩
    rfl
  · intro row mem
    rcases made row mem with ⟨basis, outcome, rank, rfl⟩
    exact (mergeRecommendation_cases _ _ _ _).2.2.1
  · intro row mem
    rcases made row mem with ⟨basis, outcome, rank, rfl⟩
    exact (mergeRecommendation_cases _ _ _ _).2.2.2.2
  · rw [List.map_map, List.length_map, List.length_zipIdx]
    exact List.zipIdx_map_snd 1 _
  · apply List.pairwise_map.mpr
    have sorted := pairwise_sortCandidates apart
    rw [← List.zipIdx_map_fst 1 (sortCandidates candidates), List.pairwise_map] at sorted
    exact sorted

/-- A cycle has a row for each of its bases. -/
theorem bases_of_ran {rows : List ScreenedRecommendation}
    (ran : setup.run strategy service candlesBySymbol = .ok rows) :
    ∃ bases, setup.bases strategy candlesBySymbol = .ok bases ∧
      (rows.map ScreenedRecommendation.basis).Perm bases ∧ VetoedOnly rows := by
  rcases except_bind_eq_ok.mp ran with ⟨final, looped, made⟩
  cases made
  have screened := bases_eq setup strategy service candlesBySymbol
  rw [looped] at screened
  refine ⟨_, screened, ?_, ?_⟩
  · have own : (fun ranked => (setup.recommend ranked).basis) = Candidate.basis ∘ Prod.fst := rfl
    rw [List.map_map, Function.comp_def, own, ← List.map_map, List.zipIdx_map_fst]
    exact (perm_sortCandidates final.candidates).map _
  · have apart := nodup_symbols screened
    rw [List.map_map] at apart
    apply vetoedOnly_recommend apart
    exact merged_foldlM (fun _ mem => absurd mem List.not_mem_nil) looped

end CycleSetup

/-- Two cycles raise the same exception, or have rows for the same bases and veto only. -/
inductive DifferByVetoes : Except PyError (List ScreenedRecommendation) →
    Except PyError (List ScreenedRecommendation) → Prop where
  | raised (raised : PyError) : DifferByVetoes (.error raised) (.error raised)
  | rows {rows rows' : List ScreenedRecommendation}
      (same : (rows.map ScreenedRecommendation.basis).Perm
        (rows'.map ScreenedRecommendation.basis))
      (vetoed : VetoedOnly rows) (vetoed' : VetoedOnly rows') :
      DifferByVetoes (.ok rows) (.ok rows')

/-- Whatever two providers answer and whatever is left of their budgets, the cycles recommend the
same instruments on the same bases, and the analyses can only veto. -/
theorem run_differByVetoes (setup : CycleSetup) (strategy : FreshStrategy σ)
    (service service' : AIService) (candlesBySymbol : CandlesBySymbol) :
    DifferByVetoes (setup.run strategy service candlesBySymbol)
      (setup.run strategy service' candlesBySymbol) := by
  cases ran : setup.run strategy service candlesBySymbol with
  | error raised =>
      have failed := CycleSetup.bases_of_raised ran
      cases ran' : setup.run strategy service' candlesBySymbol with
      | error raised' =>
          have failed' := CycleSetup.bases_of_raised ran'
          rw [failed, Except.error.injEq] at failed'
          subst raised'
          exact .raised raised
      | ok rows' =>
          rcases CycleSetup.bases_of_ran ran' with ⟨bases, screened, _⟩
          rw [failed] at screened
          cases screened
  | ok rows =>
      rcases CycleSetup.bases_of_ran ran with ⟨bases, screened, perm, vetoed⟩
      cases ran' : setup.run strategy service' candlesBySymbol with
      | error raised' =>
          rw [CycleSetup.bases_of_raised ran'] at screened
          cases screened
      | ok rows' =>
          rcases CycleSetup.bases_of_ran ran' with ⟨bases', screened', perm', vetoed'⟩
          rw [screened, Except.ok.injEq] at screened'
          subst bases'
          exact .rows (perm.trans perm'.symm) vetoed vetoed'

end PersonalTrade
