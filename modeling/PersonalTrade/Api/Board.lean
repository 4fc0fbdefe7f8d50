import PersonalTrade.Api.Dashboard
import PersonalTrade.Intelligence.Independence

/-!
# The board of recommendations

What the dashboard lists after any number of `pt recommend run`: the rows of one cycle, the newest
that has recommended anything. Cycles that find nothing, or raise and are rolled back, leave the
board as it is.
-/

namespace PersonalTrade

/-- One `pt recommend run`, with all that its cycle reads. -/
structure RecommendRun where
  Memory : Type
  setup : CycleSetup
  strategy : FreshStrategy Memory
  service : AIService
  candlesBySymbol : CandlesBySymbol

namespace RecommendRun

/-- The rows of a cycle; the unit of work of a cycle that raises is rolled back. -/
def rows (cycle : RecommendRun) : List ScreenedRecommendation :=
  (cycle.setup.run cycle.strategy cycle.service cycle.candlesBySymbol).toOption.getD []

/-- The table of recommendations after a cycle. -/
def post (table : List Recommendation) (cycle : RecommendRun) : List Recommendation :=
  table ++ cycle.rows.map ScreenedRecommendation.record

/-- The rows of a cycle are one for each basis that the screening found, each symbol once, ranked
from 1 on by their keys, and the analyses have only vetoed. -/
structure Ranked (cycle : RecommendRun) : Prop where
  bases : ∃ bases, cycle.setup.bases cycle.strategy cycle.candlesBySymbol = .ok bases ∧
    (cycle.rows.map ScreenedRecommendation.basis).Perm bases
  symbols : (cycle.rows.map fun row => row.basis.instrument.symbol).Nodup
  vetoed : VetoedOnly cycle.rows

variable {cycle : RecommendRun} {cycles : List RecommendRun}

theorem ran_of_rows (recommends : cycle.rows ≠ []) :
    cycle.setup.run cycle.strategy cycle.service cycle.candlesBySymbol = .ok cycle.rows := by
  unfold rows at recommends ⊢
  cases ran : cycle.setup.run cycle.strategy cycle.service cycle.candlesBySymbol with
  | error raised => simp [ran, Except.toOption] at recommends
  | ok results => rfl

theorem ranked (recommends : cycle.rows ≠ []) : cycle.Ranked := by
  rcases CycleSetup.bases_of_ran (ran_of_rows recommends) with ⟨bases, screened, perm, vetoed⟩
  refine ⟨⟨bases, screened, perm⟩, ?_, vetoed⟩
  have apart := CycleSetup.nodup_symbols screened
  rw [← (perm.map fun basis => basis.instrument.symbol).nodup_iff, List.map_map] at apart
  exact apart

/-- Every row of a cycle has the time of the cycle and the instrument of its basis. -/
theorem record_of_mem_rows {row : ScreenedRecommendation} (mem : row ∈ cycle.rows) :
    row.record.createdAt = cycle.setup.now ∧
      row.record.instrumentId = row.basis.instrument.id := by
  have ran := ran_of_rows (List.ne_nil_of_mem mem)
  rcases except_bind_eq_ok.mp ran with ⟨final, looped, made⟩
  rw [← Except.ok.inj made] at mem
  rcases List.mem_map.mp mem with ⟨ranked, _, rfl⟩
  exact ⟨rfl, rfl⟩

theorem foldl_post (table : List Recommendation) (cycles : List RecommendRun) :
    cycles.foldl post table =
      table ++ cycles.flatMap fun cycle => cycle.rows.map ScreenedRecommendation.record := by
  induction cycles generalizing table with
  | nil => simp
  | cons cycle cycles ih => simp [ih, post]

/-- The rows of one time are those of the cycle of that time. -/
theorem filter_createdAt {before after : List RecommendRun}
    (alone : ∀ other ∈ before ++ after, other.setup.now ≠ cycle.setup.now) :
    ((before ++ cycle :: after).flatMap fun cycle =>
        cycle.rows.map ScreenedRecommendation.record).filter
          (fun row => row.createdAt = cycle.setup.now) =
      cycle.rows.map ScreenedRecommendation.record := by
  have others (part : List RecommendRun)
      (apart : ∀ other ∈ part, other.setup.now ≠ cycle.setup.now) :
      (part.flatMap fun cycle => cycle.rows.map ScreenedRecommendation.record).filter
        (fun row => row.createdAt = cycle.setup.now) = [] := by
    apply List.filter_eq_nil_iff.mpr
    intro record mem
    rcases List.mem_flatMap.mp mem with ⟨other, member, made⟩
    rcases List.mem_map.mp made with ⟨row, own, rfl⟩
    rw [(record_of_mem_rows own).1, decide_eq_true_eq]
    exact apart other member
  have own : (cycle.rows.map ScreenedRecommendation.record).filter
      (fun row => row.createdAt = cycle.setup.now) =
        cycle.rows.map ScreenedRecommendation.record := by
    apply List.filter_eq_self.mpr
    intro record mem
    rcases List.mem_map.mp mem with ⟨row, own, rfl⟩
    rw [(record_of_mem_rows own).1, decide_eq_true_eq]
  rw [List.flatMap_append, List.flatMap_cons, List.filter_append, List.filter_append, own,
    others before fun other mem => alone other (List.mem_append_left _ mem),
    others after fun other mem => alone other (List.mem_append_right _ mem), List.nil_append,
    List.append_nil]

/-- The ranks of a cycle order its rows. -/
theorem mergeSort_records (recommends : cycle.rows ≠ []) :
    (cycle.rows.map ScreenedRecommendation.record).mergeSort
        (fun first second => decide (first.rank ≤ second.rank)) =
      cycle.rows.map ScreenedRecommendation.record := by
  apply List.mergeSort_of_pairwise
  have ranks := (ranked recommends).vetoed.ranks
  have increasing : (List.range' 1 cycle.rows.length).Pairwise (· < ·) := List.pairwise_lt_range'
  rw [← ranks, List.pairwise_map] at increasing
  rw [List.pairwise_map]
  exact increasing.imp fun lt => decide_eq_true lt.le

end RecommendRun

/-- Of any number of cycles at different times the dashboard lists the rows of one: the newest that
has any, in the order of its ranks. -/
theorem board_lists_newest_cycle {cycles : List RecommendRun}
    (apart : cycles.Pairwise fun cycle other => cycle.setup.now ≠ other.setup.now) (db : DB) :
    ((∀ cycle ∈ cycles, cycle.rows = []) ∧
        latestRecommendations db (cycles.foldl RecommendRun.post []) = []) ∨
      ∃ before cycle after, cycles = before ++ cycle :: after ∧ cycle.rows ≠ [] ∧
        (∀ other ∈ before ++ after, other.rows ≠ [] → other.setup.now < cycle.setup.now) ∧
        cycle.Ranked ∧
        latestRecommendations db (cycles.foldl RecommendRun.post []) =
          cycle.rows.map fun row => ⟨row.record.rank, db.symbolOrKey row.basis.instrument.id,
            row.record.action, row.record.rationale, cycle.setup.now⟩ := by
  rw [latestRecommendations, listLatestCycle, RecommendRun.foldl_post, List.nil_append]
  cases newest : ((cycles.flatMap fun cycle => cycle.rows.map ScreenedRecommendation.record).map
      Recommendation.createdAt).max? with
  | none =>
      rw [List.max?_eq_none_iff, List.map_eq_nil_iff, List.flatMap_eq_nil_iff] at newest
      exact .inl ⟨fun cycle mem => List.map_eq_nil_iff.mp (newest cycle mem), rfl⟩
  | some latest =>
      rcases List.max?_eq_some_iff.mp newest with ⟨reached, greatest⟩
      rcases List.mem_map.mp reached with ⟨record, stored, rfl⟩
      rcases List.mem_flatMap.mp stored with ⟨cycle, member, made⟩
      rcases List.mem_map.mp made with ⟨row, own, rfl⟩
      rw [(RecommendRun.record_of_mem_rows own).1] at greatest ⊢
      have recommends : cycle.rows ≠ [] := List.ne_nil_of_mem own
      rcases List.append_of_mem member with ⟨before, after, rfl⟩
      have alone : ∀ other ∈ before ++ after, other.setup.now ≠ cycle.setup.now := by
        rcases List.pairwise_append.mp apart with ⟨_, rest, cross⟩
        intro other mem
        rcases List.mem_append.mp mem with earlier | later
        · exact cross other earlier cycle List.mem_cons_self
        · exact (List.rel_of_pairwise_cons rest later).symm
      refine .inr ⟨before, cycle, after, rfl, recommends, ?_, RecommendRun.ranked recommends, ?_⟩
      · intro other mem has
        rcases List.exists_mem_of_ne_nil _ has with ⟨found, within⟩
        have shown : other ∈ before ++ cycle :: after := by
          rcases List.mem_append.mp mem with earlier | later
          · exact List.mem_append_left _ earlier
          · exact List.mem_append_right _ (List.mem_cons_of_mem _ later)
        have stamp := (RecommendRun.record_of_mem_rows within).1
        refine lt_of_le_of_ne (stamp ▸ greatest _ ?_) (alone other mem)
        apply List.mem_map_of_mem
        exact List.mem_flatMap.mpr ⟨other, shown, List.mem_map_of_mem within⟩
      · simp only
        rw [RecommendRun.filter_createdAt alone, RecommendRun.mergeSort_records recommends,
          List.map_map]
        apply List.map_congr_left
        intro shown within
        rcases RecommendRun.record_of_mem_rows within with ⟨time, instrument⟩
        simp only [Function.comp_apply, time, instrument]

/-- A cycle that recommends the exit from a held instrument. -/
def exitCycle : RecommendRun where
  Memory := _
  setup := heldSetup
  strategy := tightStop.construct
  service := noAnalysis
  candlesBySymbol := AList.singleton "BOLT" (rangeBars 12 12)

/-- A later cycle without candles. -/
def idleCycle : RecommendRun where
  Memory := _
  setup := { heldSetup with now := 1 }
  strategy := tightStop.construct
  service := noAnalysis
  candlesBySymbol := ∅

/-- The board still shows the first cycle. -/
theorem board_lists_newest_cycle_sample : exitCycle.rows ≠ [] ∧
    latestRecommendations heldSetup.db ([exitCycle, idleCycle].foldl RecommendRun.post []) =
      exitCycle.rows.map fun row => ⟨row.record.rank,
        heldSetup.db.symbolOrKey row.basis.instrument.id, row.record.action, row.record.rationale,
        exitCycle.setup.now⟩ := by
  have apart : [exitCycle, idleCycle].Pairwise
      fun cycle other => cycle.setup.now ≠ other.setup.now := by
    simp [exitCycle, idleCycle, heldSetup]
  have recommends : exitCycle.rows ≠ [] := by
    have some : exitCycle.rows.isEmpty = false := by decide +kernel
    exact List.isEmpty_eq_false_iff.mp some
  refine ⟨recommends, ?_⟩
  rcases board_lists_newest_cycle apart heldSetup.db with
    ⟨none, _⟩ | ⟨before, cycle, after, split, found, _, _, shown⟩
  · exact absurd (none exitCycle List.mem_cons_self) recommends
  · have member : cycle ∈ [exitCycle, idleCycle] := split ▸ List.mem_append_right _ (.head _)
    rcases List.mem_pair.mp member with rfl | rfl
    · exact shown
    · exact absurd rfl found

end PersonalTrade
