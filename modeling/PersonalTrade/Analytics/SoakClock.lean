import PersonalTrade.Analytics.Soak
import PersonalTrade.Library.Projection

/-!
# The soak clock

The commands `pt soak start`, `end` and `review` in any order. Only a start that meets no active
soak begins one, and only an end finishes it, so that a review measures from the first start since
the last end (`SoaksTracked`), and gives its GO accordingly (`soak_go_iff`).
-/

namespace PersonalTrade

/-- `SoakPeriodRepository.current`: of the records without an end the one started last. -/
def currentSoak (records : List SoakPeriod) : Option SoakPeriod :=
  ((records.filter fun soak => soak.endedAt = none).mergeSort fun first second =>
    second.startedAt ≤ first.startedAt).head?

/-- A call of `pt soak start`, with the configuration and the backtest runs of that time. -/
structure SoakStart where
  cfg : SoakConfig
  targetDays : Option ℤ
  backtestRunId : Option ℕ
  notes : Option String
  known : ℕ → Bool
  time : ℤ

namespace SoakStart

/-- The backtest run that is named, if any, exists. -/
def baselineFound (request : SoakStart) : Bool := request.backtestRunId.all request.known

/-- The record that is added. -/
def record (request : SoakStart) (id : ℕ) : SoakPeriod :=
  soakStart request.cfg request.targetDays request.backtestRunId request.notes id request.time

end SoakStart

inductive SoakCommand where
  | start (request : SoakStart)
  | finish (reason : String) (time : ℤ)
  /-- The commands that only read: `status`, `report` and `review`. -/
  | look

/-- The records after a command; one that exits with code 1 leaves them alone. -/
def soakStep (records : List SoakPeriod) : SoakCommand → List SoakPeriod
  | .start request =>
      if (currentSoak records).isSome then records
      else if request.baselineFound then records ++ [request.record records.length]
      else records
  | .finish reason time =>
      match currentSoak records with
      | none => records
      | some soak => records.map fun other =>
          if other.id = soak.id then soakEnd other reason time else other
  | .look => records

/-- The verdict of `pt soak review`, where `paper` is the summary of the report since an instant;
none without an active soak. -/
def reviewSoak (cfg : SoakConfig) (records : List SoakPeriod)
    (paper : ℤ → PnLSummary EquityStatistics) (now : ℤ) : Option GoNoGoResult :=
  (currentSoak records).map fun soak =>
    evaluateGoNoGo (computeStatus soak now) (paper soak.startedAt) cfg

/-! ## What the commands say -/

def SoakCommand.Starts : SoakCommand → Prop
  | .start request => request.baselineFound = true
  | _ => False

def SoakCommand.Ends : SoakCommand → Prop
  | .finish _ _ => True
  | _ => False

/-- A soak has been started since the last end. -/
def InSoak (commands : List SoakCommand) : Prop :=
  Since (fun _ command => command.Starts) SoakCommand.Ends commands

/-- The first start since the last end. -/
def OpenedBy (request : SoakStart) (commands : List SoakCommand) : Prop :=
  Since (fun before command => command = .start request ∧ command.Starts ∧ ¬ InSoak before)
    SoakCommand.Ends commands

section Commands

variable {commands : List SoakCommand} {request other : SoakStart}

theorem OpenedBy.inSoak (opened : OpenedBy request commands) : InSoak commands := by
  rcases opened with ⟨before, command, after, split, ⟨_, starts, _⟩, lasts⟩
  exact ⟨before, command, after, split, starts, lasts⟩

/-- Only one start is the first. -/
theorem OpenedBy.unique (opened : OpenedBy request commands) (opened' : OpenedBy other commands) :
    request = other := by
  induction commands using List.reverseRecOn with
  | nil => exact absurd opened not_since_nil
  | append_singleton commands command ih =>
      rcases since_concat.mp opened with ⟨same, _, fresh⟩ | ⟨_, earlier⟩
      · rcases since_concat.mp opened' with ⟨same', _, _⟩ | ⟨_, earlier'⟩
        · cases same.symm.trans same'
          rfl
        · exact absurd (OpenedBy.inSoak earlier') fresh
      · rcases since_concat.mp opened' with ⟨_, _, fresh⟩ | ⟨_, earlier'⟩
        · exact absurd (OpenedBy.inSoak earlier) fresh
        · exact ih earlier earlier'

end Commands

/-! ## What is recorded -/

/-- At most one record has no end. -/
def OneActive (records : List SoakPeriod) : Prop :=
  records.Pairwise fun first second => first.endedAt ≠ none ∨ second.endedAt ≠ none

section Records

variable {commands : List SoakCommand} {records : List SoakPeriod} {soak other : SoakPeriod}

theorem OneActive.eq (single : OneActive records) (mem : soak ∈ records) (mem' : other ∈ records)
    (active : soak.endedAt = none) (active' : other.endedAt = none) : soak = other := by
  by_contra different
  have apart := @List.Pairwise.forall _ _ _ ⟨fun _ _ => Or.symm⟩ single _ mem _ mem' different
  rcases apart with ended | ended
  · exact ended active
  · exact ended active'

theorem OneActive.currentSoak_eq_some (single : OneActive records) :
    currentSoak records = some soak ↔ soak ∈ records ∧ soak.endedAt = none := by
  have found {other : SoakPeriod} (first : currentSoak records = some other) :
      other ∈ records ∧ other.endedAt = none := by
    have mem := List.mem_of_mem_head? first
    rw [List.mem_mergeSort, List.mem_filter, decide_eq_true_eq] at mem
    exact mem
  constructor
  · exact found
  · rintro ⟨mem, active⟩
    cases first : currentSoak records with
    | none =>
        rw [currentSoak, List.head?_eq_none_iff] at first
        have listed : soak ∈ (records.filter fun soak => soak.endedAt = none).mergeSort
            fun first second => second.startedAt ≤ first.startedAt := by
          rw [List.mem_mergeSort, List.mem_filter, decide_eq_true_eq]
          exact ⟨mem, active⟩
        rw [first] at listed
        cases listed
    | some other =>
        rcases found first with ⟨mem', active'⟩
        rw [single.eq mem' mem active' active]

theorem OneActive.currentSoak_eq_none (single : OneActive records) :
    currentSoak records = none ↔ ∀ soak ∈ records, soak.endedAt ≠ none := by
  constructor
  · intro absent soak mem active
    rw [single.currentSoak_eq_some.mpr ⟨mem, active⟩] at absent
    cases absent
  · intro ended
    cases found : currentSoak records with
    | none => rfl
    | some soak =>
        rcases single.currentSoak_eq_some.mp found with ⟨mem, active⟩
        exact absurd active (ended soak mem)

/-- The records after some commands: the one without an end is that of the first start since the
last end. -/
structure SoaksTracked (commands : List SoakCommand) (records : List SoakPeriod) : Prop where
  single : OneActive records
  opened : ∀ soak ∈ records, soak.endedAt = none →
    ∃ request id, OpenedBy request commands ∧ soak = request.record id
  active : InSoak commands → ∃ soak ∈ records, soak.endedAt = none

theorem SoaksTracked.start (tracked : SoaksTracked commands records) (request : SoakStart) :
    SoaksTracked (commands ++ [.start request]) (soakStep records (.start request)) := by
  have goesOn : ¬ (SoakCommand.start request).Ends := id
  -- refused, and the records are those before
  have refused (same : soakStep records (.start request) = records)
      (meets : request.baselineFound = true → ∃ soak ∈ records, soak.endedAt = none) :
      SoaksTracked (commands ++ [.start request]) (soakStep records (.start request)) := by
    rw [same]
    refine ⟨tracked.single, ?_, ?_⟩
    · intro soak mem active
      rcases tracked.opened soak mem active with ⟨earlier, id, opened, made⟩
      exact ⟨earlier, id, since_concat.mpr (.inr ⟨goesOn, opened⟩), made⟩
    · intro inSoak
      rcases since_concat.mp inSoak with starts | ⟨_, earlier⟩
      · exact meets starts
      · exact tracked.active earlier
  cases found : currentSoak records with
  | some soak =>
      apply refused
      · simp [soakStep, found]
      · exact fun _ => ⟨soak, tracked.single.currentSoak_eq_some.mp found⟩
  | none =>
      by_cases starts : request.baselineFound = true
      · have ended := tracked.single.currentSoak_eq_none.mp found
        have added : soakStep records (.start request) =
            records ++ [request.record records.length] := by
          simp [soakStep, found, starts]
        rw [added]
        refine ⟨?_, ?_, ?_⟩
        · rw [OneActive, List.pairwise_append]
          refine ⟨tracked.single, List.pairwise_singleton _ _, ?_⟩
          intro soak mem last _
          exact .inl (ended soak mem)
        · intro soak mem active
          rcases List.mem_append.mp mem with old | new
          · exact absurd active (ended soak old)
          · refine ⟨request, records.length, since_concat.mpr (.inl ⟨rfl, starts, ?_⟩),
              List.mem_singleton.mp new⟩
            intro inSoak
            rcases tracked.active inSoak with ⟨soak, mem, active⟩
            exact ended soak mem active
        · intro _
          exact ⟨_, List.mem_append_right _ (.head _), rfl⟩
      · apply refused
        · simp [soakStep, found, starts]
        · exact fun valid => absurd valid starts

theorem SoaksTracked.finish (tracked : SoaksTracked commands records) (reason : String)
    (time : ℤ) :
    SoaksTracked (commands ++ [.finish reason time]) (soakStep records (.finish reason time)) := by
  have finished : ¬ InSoak (commands ++ [.finish reason time]) := by
    intro inSoak
    rcases since_concat.mp inSoak with starts | ⟨goesOn, _⟩
    · exact starts
    · exact goesOn trivial
  cases found : currentSoak records with
  | none =>
      have same : soakStep records (.finish reason time) = records := by simp [soakStep, found]
      rw [same]
      refine ⟨tracked.single, ?_, fun inSoak => absurd inSoak finished⟩
      intro soak mem active
      exact absurd active (tracked.single.currentSoak_eq_none.mp found soak mem)
  | some soak =>
      rcases tracked.single.currentSoak_eq_some.mp found with ⟨soakMem, soakActive⟩
      have changed : soakStep records (.finish reason time) = records.map fun other =>
          if other.id = soak.id then soakEnd other reason time else other := by
        simp [soakStep, found]
      have ends : ∀ other ∈ records,
          (if other.id = soak.id then soakEnd other reason time else other).endedAt ≠ none := by
        intro other mem
        split_ifs with same
        · simp [soakEnd]
        · intro active
          rw [tracked.single.eq mem soakMem active soakActive] at same
          exact same rfl
      rw [changed]
      refine ⟨?_, ?_, fun inSoak => absurd inSoak finished⟩
      · rw [OneActive, List.pairwise_map]
        apply List.Pairwise.imp_of_mem _ tracked.single
        intro first second mem _ _
        exact .inl (ends first mem)
      · intro other mem active
        rcases List.mem_map.mp mem with ⟨before, beforeMem, rfl⟩
        exact absurd active (ends before beforeMem)

/-- One command. -/
theorem SoaksTracked.step (tracked : SoaksTracked commands records) (command : SoakCommand) :
    SoaksTracked (commands ++ [command]) (soakStep records command) := by
  cases command with
  | start request => exact tracked.start request
  | finish reason time => exact tracked.finish reason time
  | look =>
      have goesOn : ¬ SoakCommand.look.Ends := id
      refine ⟨tracked.single, ?_, ?_⟩
      · intro soak mem active
        rcases tracked.opened soak mem active with ⟨request, id, opened, made⟩
        exact ⟨request, id, since_concat.mpr (.inr ⟨goesOn, opened⟩), made⟩
      · intro inSoak
        rcases since_concat.mp inSoak with starts | ⟨_, earlier⟩
        · exact starts.elim
        · exact tracked.active earlier

/-- Some commands on a store without soaks. -/
theorem soaksTracked_run (commands : List SoakCommand) :
    SoaksTracked commands (runSteps soakStep [] commands) := by
  induction commands using List.reverseRecOn with
  | nil => exact ⟨.nil, by simp [runSteps], fun inSoak => absurd inSoak not_since_nil⟩
  | append_singleton commands command ih =>
      rw [runSteps_concat]
      exact ih.step command

end Records

/-! ## The verdict -/

/-- After any commands at most one soak is active, and a review gives its GO exactly if some soak
is, its target of days has passed since the first start after the last end, and the figures since
that start meet the thresholds. -/
theorem soak_go_iff (commands : List SoakCommand) (cfg : SoakConfig)
    (paper : ℤ → PnLSummary EquityStatistics) (now : ℤ) :
    let records := runSteps soakStep [] commands
    OneActive records ∧
      ((reviewSoak cfg records paper now).isSome ↔ InSoak commands) ∧
      ((reviewSoak cfg records paper now).any GoNoGoResult.go ↔
        ∃ request, OpenedBy request commands ∧
          request.cfg.chosenTarget request.targetDays ≤ max 0 ((now - request.time) / dayMs) ∧
          cfg.FiguresMet (paper request.time)) := by
  intro records
  have tracked : SoaksTracked commands records := soaksTracked_run commands
  have go (request : SoakStart) (id : ℕ) :
      (evaluateGoNoGo (computeStatus (request.record id) now) (paper request.time) cfg).go = true ↔
        request.cfg.chosenTarget request.targetDays ≤ max 0 ((now - request.time) / dayMs) ∧
          cfg.FiguresMet (paper request.time) := go_iff
  cases found : currentSoak records with
  | none =>
      have idle : ¬ InSoak commands := by
        intro inSoak
        rcases tracked.active inSoak with ⟨soak, mem, active⟩
        exact tracked.single.currentSoak_eq_none.mp found soak mem active
      refine ⟨tracked.single, by simp [reviewSoak, found, idle], ?_⟩
      simp only [reviewSoak, found, Option.map_none, Option.any_none, Bool.false_eq_true, false_iff]
      rintro ⟨request, opened, _⟩
      exact idle opened.inSoak
  | some soak =>
      rcases tracked.single.currentSoak_eq_some.mp found with ⟨mem, active⟩
      rcases tracked.opened soak mem active with ⟨request, id, opened, rfl⟩
      refine ⟨tracked.single, by simp [reviewSoak, found, opened.inSoak], ?_⟩
      simp only [reviewSoak, found, Option.map_some, Option.any_some]
      constructor
      · intro went
        exact ⟨request, opened, (go request id).mp went⟩
      · rintro ⟨other, opened', passed⟩
        rw [opened'.unique opened] at passed
        exact (go request id).mpr passed

end PersonalTrade
