import Mathlib.Tactic

/-!
# Runs of a labelled state machine

A machine is a step function: all the nondeterminism of its environment is in
the labels. `Reaches step allowed start` collects the states of the runs from
`start` whose steps all meet `allowed`, a condition on the state before the step
and its label. Safety properties are then an initial fact and a step lemma.
-/

universe u v

variable {S : Type u} {L : Type v}

/-- States of the runs from `start` whose steps all meet `allowed`. -/
inductive Reaches (step : S → L → S) (allowed : S → L → Prop) (start : S) : S → Prop where
  | refl : Reaches step allowed start start
  | tail {state : S} (earlier : Reaches step allowed start state) (label : L)
      (meets : allowed state label) : Reaches step allowed start (step state label)

namespace Reaches

variable {step : S → L → S} {allowed : S → L → Prop} {start state : S}

/-- What holds initially and is preserved by every allowed step holds in every
state of every run. -/
theorem invariant {motive : S → Prop} (initial : motive start)
    (preserved : ∀ state label, motive state → allowed state label → motive (step state label))
    (reached : Reaches step allowed start state) : motive state := by
  induction reached with
  | refl => exact initial
  | tail _ label meets ih => exact preserved _ label ih meets

theorem trans {middle finish : S} (first : Reaches step allowed start middle)
    (second : Reaches step allowed middle finish) : Reaches step allowed start finish := by
  induction second with
  | refl => exact first
  | tail _ label meets ih => exact ih.tail label meets

end Reaches

/-- Run a list of labels. -/
def runSteps (step : S → L → S) (start : S) (labels : List L) : S := labels.foldl step start

/-- Every step of the run meets a condition on its own state and label. -/
def Meets (step : S → L → S) (allowed : S → L → Prop) : S → List L → Prop
  | _, [] => True
  | state, label :: labels => allowed state label ∧ Meets step allowed (step state label) labels

theorem Reaches.of_meets {step : S → L → S} {allowed : S → L → Prop} {start : S}
    (labels : List L) (meets : Meets step allowed start labels) :
    Reaches step allowed start (runSteps step start labels) := by
  induction labels generalizing start with
  | nil => exact .refl
  | cons label labels ih =>
      exact (Reaches.refl.tail label meets.1).trans (ih meets.2)

/-- A run without a condition on its steps. -/
theorem Reaches.of_labels (step : S → L → S) (start : S) (labels : List L) :
    Reaches step (fun _ _ => True) start (runSteps step start labels) := by
  apply Reaches.of_meets
  induction labels generalizing start with
  | nil => trivial
  | cons label labels ih => exact ⟨trivial, ih _⟩

/-- The steps of a run: each label with the state before it. -/
def runTrace (step : S → L → S) : S → List L → List (S × L)
  | _, [] => []
  | state, label :: labels => (state, label) :: runTrace step (step state label) labels

/-- What holds initially and is preserved by every step of a run holds before each of them. -/
theorem runTrace_invariant {step : S → L → S} (allowed : S → L → Prop) {motive : S → Prop}
    {start : S} (initial : motive start)
    (preserved : ∀ state label, motive state → allowed state label → motive (step state label))
    {labels : List L} (meets : ∀ made ∈ runTrace step start labels, allowed made.1 made.2) :
    ∀ made ∈ runTrace step start labels, motive made.1 := by
  induction labels generalizing start with
  | nil => simp [runTrace]
  | cons label labels ih =>
      simp only [runTrace, List.mem_cons, forall_eq_or_imp] at meets ⊢
      exact ⟨initial, ih (preserved start label initial meets.1) meets.2⟩

theorem runSteps_concat (step : S → L → S) (start : S) (labels : List L) (label : L) :
    runSteps step start (labels ++ [label]) = step (runSteps step start labels) label := by
  simp [runSteps]

theorem runTrace_concat (step : S → L → S) (start : S) (labels : List L) (label : L) :
    runTrace step start (labels ++ [label]) =
      runTrace step start labels ++ [(runSteps step start labels, label)] := by
  induction labels generalizing start with
  | nil => rfl
  | cons first labels ih =>
      simp only [List.cons_append, runTrace, ih]
      rfl

/-- A run in two parts. -/
theorem runSteps_append (step : S → L → S) (start : S) (first second : List L) :
    runSteps step start (first ++ second) = runSteps step (runSteps step start first) second :=
  List.foldl_append

theorem runTrace_append (step : S → L → S) (start : S) (first second : List L) :
    runTrace step start (first ++ second) =
      runTrace step start first ++ runTrace step (runSteps step start first) second := by
  induction first generalizing start with
  | nil => rfl
  | cons label first ih =>
      rw [List.cons_append, runTrace, runTrace, ih, List.cons_append]
      rfl

/-- Each step of a run is made in the state after the labels before it. -/
theorem exists_of_mem_runTrace {step : S → L → S} {start : S} {labels : List L} {made : S × L}
    (mem : made ∈ runTrace step start labels) : ∃ before after,
      labels = before ++ made.2 :: after ∧ made.1 = runSteps step start before := by
  induction labels generalizing start with
  | nil => cases mem
  | cons label labels ih =>
      rcases List.mem_cons.mp mem with rfl | later
      · exact ⟨[], labels, rfl, rfl⟩
      · rcases ih later with ⟨before, after, split, state⟩
        exact ⟨label :: before, after, by rw [split]; rfl, state⟩

/-- A label inside a run is made in the state after those before it. -/
theorem mem_runTrace (step : S → L → S) (start : S) (before : List L) (label : L)
    (after : List L) : (runSteps step start before, label) ∈
      runTrace step start (before ++ label :: after) := by
  rw [runTrace_append]
  exact List.mem_append_right _ (.head _)
