import PersonalTrade.Library.Run

/-!
# Projections of machines

A machine projects onto another one when every step of the first is a run of the second, seen
through a view of its state. A run of the first machine is then a run of the second, whose labels
are named state by state.

`Since` says of the labels of a run that one of them began something which none after it has ended.
A mode of a machine that some labels enter and others leave is characterised by it.
-/

universe u v w x

variable {S : Type u} {L : Type v} {S' : Type w} {L' : Type x}

/-- The labels of the second machine along a run of the first. -/
def projected (step : S → L → S) (labels : S → L → List L') (start : S) (run : List L) : List L' :=
  (runTrace step start run).flatMap fun made => labels made.1 made.2

/-- Every step is a run of another machine, seen through `view`. -/
def Projects (step : S → L → S) (step' : S' → L' → S') (view : S → S')
    (labels : S → L → List L') : Prop :=
  ∀ state label, view (step state label) = runSteps step' (view state) (labels state label)

/-- What no step changes, no run changes. -/
theorem view_runSteps {step : S → L → S} {view : S → S'}
    (unchanged : ∀ state label, view (step state label) = view state) (start : S) (run : List L) :
    view (runSteps step start run) = view start := by
  induction run using List.reverseRecOn with
  | nil => rfl
  | append_singleton run label ih => rw [runSteps_concat, unchanged, ih]

section Projected

variable (step : S → L → S) (labels : S → L → List L')

@[simp]
theorem projected_nil (start : S) : projected step labels start [] = [] := rfl

@[simp]
theorem projected_cons (start : S) (label : L) (run : List L) :
    projected step labels start (label :: run) =
      labels start label ++ projected step labels (step start label) run := by
  simp only [projected, runTrace, List.flatMap_cons]

theorem projected_concat (start : S) (run : List L) (label : L) :
    projected step labels start (run ++ [label]) =
      projected step labels start run ++ labels (runSteps step start run) label := by
  simp [projected, runTrace_concat]

end Projected

namespace Projects

variable {step : S → L → S} {step' : S' → L' → S'} {view : S → S'} {labels : S → L → List L'}

/-- A run is a run of the machine below it. -/
theorem run (projects : Projects step step' view labels) (start : S) (run : List L) :
    view (runSteps step start run) =
      runSteps step' (view start) (projected step labels start run) := by
  induction run using List.reverseRecOn with
  | nil => rfl
  | append_singleton run label ih =>
      rw [runSteps_concat, projected_concat, runSteps_append, ← ih]
      exact projects _ label

end Projects

/-- A label of the run began something, given the labels before it, that none after it has
ended. -/
def Since (begins : List L → L → Prop) (ends : L → Prop) (run : List L) : Prop :=
  ∃ before label after, run = before ++ label :: after ∧ begins before label ∧
    ∀ later ∈ after, ¬ ends later

section Since

variable {begins : List L → L → Prop} {ends : L → Prop} {run : List L} {label : L}

@[simp]
theorem not_since_nil : ¬ Since begins ends [] := by
  rintro ⟨before, label, after, split, _⟩
  simp at split

theorem since_concat : Since begins ends (run ++ [label]) ↔
    begins run label ∨ (¬ ends label ∧ Since begins ends run) := by
  constructor
  · rintro ⟨before, first, after, split, began, lasts⟩
    rcases List.eq_nil_or_concat after with rfl | ⟨after, last, rfl⟩
    · rcases List.append_inj' split rfl with ⟨rfl, same⟩
      rw [List.singleton_inj.mp same]
      exact .inl began
    · rw [List.concat_eq_append, ← List.cons_append, ← List.append_assoc] at split
      rcases List.append_inj' split rfl with ⟨rfl, same⟩
      rw [List.concat_eq_append, ← List.singleton_inj.mp same] at lasts
      refine .inr ⟨lasts label (by simp), before, first, after, rfl, began, ?_⟩
      exact fun later mem => lasts later (List.mem_append_left _ mem)
  · rintro (began | ⟨goesOn, before, first, after, rfl, began, lasts⟩)
    · exact ⟨run, label, [], rfl, began, by simp⟩
    · refine ⟨before, first, after ++ [label], by simp, began, ?_⟩
      intro later mem
      rcases List.mem_append.mp mem with earlier | last
      · exact lasts later earlier
      · rwa [List.mem_singleton.mp last]

end Since
