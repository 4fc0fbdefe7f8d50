import Mathlib.Tactic

/-!
# Interleaved processes over a shared cell

Processes of one kind take their steps in any order. A step moves the private state of its
process, and some steps write a cell that all of them share. In a run every process stands where
its own steps alone lead to, and the cell holds what was written last.
-/

universe u v w x

variable {ι : Type u} {P : Type v} {L : Type w} {D : Type x}

/-- A process: the state that a label leads to, if it can be taken, and what is then written into
the shared cell. Which labels write is known from the label. -/
structure Process (P : Type v) (L : Type w) (D : Type x) where
  step : P → L → Option P
  Writes : L → Prop
  written : P → L → Option D
  isSome_written {state next : P} {label : L} (taken : step state label = some next) :
    (written state label).isSome = true ↔ Writes label

/-- The states of the processes and the cell. -/
structure Interleaved (ι : Type u) (P : Type v) (D : Type x) where
  states : ι → P
  cell : D

namespace Process

variable [DecidableEq ι] (process : Process P L D)

/-- A run of one process alone. -/
def alone (start : P) (labels : List L) : Option P := labels.foldlM process.step start

/-- A step of one of the processes. -/
def interleave (state : Interleaved ι P D) (label : ι × L) : Option (Interleaved ι P D) :=
  (process.step (state.states label.1) label.2).map fun next =>
    { states := Function.update state.states label.1 next
      cell := (process.written (state.states label.1) label.2).getD state.cell }

/-- An interleaved run. -/
def run (start : Interleaved ι P D) (labels : List (ι × L)) : Option (Interleaved ι P D) :=
  labels.foldlM process.interleave start

end Process

/-- The labels of one process. -/
def ownLabels [DecidableEq ι] (id : ι) (labels : List (ι × L)) : List L :=
  labels.filterMap fun label => if label.1 = id then some label.2 else none

section Labels

variable [DecidableEq ι] {id other : ι} {label : L} {labels : List (ι × L)}

@[simp]
theorem ownLabels_nil : ownLabels id ([] : List (ι × L)) = [] := rfl

@[simp]
theorem ownLabels_concat_self : ownLabels id (labels ++ [(id, label)]) =
    ownLabels id labels ++ [label] := by
  simp [ownLabels]

theorem ownLabels_concat_other (differs : other ≠ id) :
    ownLabels id (labels ++ [(other, label)]) = ownLabels id labels := by
  simp [ownLabels, differs]

end Labels

namespace Process

section Alone

variable {process : Process P L D} {start state : P} {labels : List L} {label : L}

@[simp]
theorem alone_nil : process.alone start [] = some start := rfl

@[simp]
theorem alone_cons : process.alone start (label :: labels) =
    (process.step start label).bind fun next => process.alone next labels := rfl

theorem alone_concat (ran : process.alone start labels = some state) :
    process.alone start (labels ++ [label]) = process.step state label := by
  rw [alone, List.foldlM_append, ← alone, ran]
  exact bind_pure (process.step state label)

end Alone

section Runs

variable [DecidableEq ι] {process : Process P L D} {start final : Interleaved ι P D}
  {labels before after : List (ι × L)} {label : ι × L}

theorem run_concat : process.run start (labels ++ [label]) =
    (process.run start labels).bind fun state => process.interleave state label := by
  rw [run, List.foldlM_append]
  exact Option.bind_congr fun state _ => bind_pure (process.interleave state label)

/-- The last step of a run, and the run before it. -/
theorem run_concat_eq_some (ran : process.run start (labels ++ [label]) = some final) :
    ∃ state next, process.run start labels = some state ∧
      process.step (state.states label.1) label.2 = some next ∧
      final = { states := Function.update state.states label.1 next
                cell := (process.written (state.states label.1) label.2).getD state.cell } := by
  rw [run_concat] at ran
  rcases Option.bind_eq_some_iff.mp ran with ⟨state, earlier, stepped⟩
  rcases Option.map_eq_some_iff.mp stepped with ⟨next, taken, rfl⟩
  exact ⟨state, next, earlier, taken, rfl⟩

/-- Every process stands where its own labels alone lead to. -/
theorem alone_ownLabels (ran : process.run start labels = some final) (id : ι) :
    process.alone (start.states id) (ownLabels id labels) = some (final.states id) := by
  induction labels using List.reverseRecOn generalizing final with
  | nil =>
      rw [← Option.some.inj ran]
      rfl
  | append_singleton labels label ih =>
      rcases run_concat_eq_some ran with ⟨state, next, earlier, taken, rfl⟩
      rcases label with ⟨mover, label⟩
      by_cases mine : mover = id
      · subst mine
        rw [ownLabels_concat_self, alone_concat (ih earlier), taken]
        simp
      · rw [ownLabels_concat_other mine, ih earlier]
        simp [Function.update_of_ne (Ne.symm mine)]

/-- The last label of a run that writes. -/
structure LastWrite (process : Process P L D) (start : Interleaved ι P D)
    (labels : List (ι × L)) (value : D) (id : ι) (own : List L) (label : L) : Prop where
  written : ∃ state, process.alone (start.states id) own = some state ∧
    process.written state label = some value
  last : ∃ before after, labels = before ++ (id, label) :: after ∧ ownLabels id before = own ∧
    ∀ later ∈ after, ¬ process.Writes later.2

/-- The cell holds the last value that was written, if any was. -/
theorem cell_of_run (ran : process.run start labels = some final) :
    (∃ id own label, process.LastWrite start labels final.cell id own label) ∨
      final.cell = start.cell ∧ ∀ label ∈ labels, ¬ process.Writes label.2 := by
  induction labels using List.reverseRecOn generalizing final with
  | nil =>
      rw [← Option.some.inj ran]
      exact .inr ⟨rfl, by simp⟩
  | append_singleton labels label ih =>
      rcases run_concat_eq_some ran with ⟨state, next, earlier, taken, rfl⟩
      have whether := process.isSome_written taken
      cases written : process.written (state.states label.1) label.2 with
      | some value =>
          refine .inl ⟨label.1, ownLabels label.1 labels, label.2, ⟨_, ?_, written⟩, ?_⟩
          · exact alone_ownLabels earlier label.1
          · exact ⟨labels, [], rfl, rfl, by simp⟩
      | none =>
          have silent : ¬ process.Writes label.2 := by
            rw [← whether, written]
            exact Bool.false_ne_true
          rcases ih earlier with ⟨id, own, writer, wrote, before, after, split, mine, quiet⟩ | none
          · refine .inl ⟨id, own, writer, wrote, before, after ++ [label], by simp [split], mine, ?_⟩
            intro later mem
            rcases List.mem_append.mp mem with between | same
            · exact quiet later between
            · rwa [List.mem_singleton.mp same]
          · refine .inr ⟨none.1, fun later mem => ?_⟩
            rcases List.mem_append.mp mem with between | same
            · exact none.2 later between
            · rwa [List.mem_singleton.mp same]

/-- The value that was written last is in the cell. -/
theorem LastWrite.cell_eq {value : D} {id : ι} {own : List L} {label : L}
    (last : process.LastWrite start labels value id own label)
    (ran : process.run start labels = some final) : final.cell = value := by
  rcases last with ⟨⟨state, stands, wrote⟩, before, after, split, rfl, quiet⟩
  induction after using List.reverseRecOn generalizing labels final with
  | nil =>
      subst split
      rcases run_concat_eq_some ran with ⟨reached, next, earlier, taken, rfl⟩
      have same : reached.states id = state :=
        Option.some.inj ((alone_ownLabels earlier id).symm.trans stands)
      simp only [same, wrote, Option.getD_some]
  | append_singleton after later ih =>
      rw [← List.cons_append, ← List.append_assoc] at split
      subst split
      rcases run_concat_eq_some ran with ⟨reached, next, earlier, taken, rfl⟩
      have silent : process.written (reached.states later.1) later.2 = none := by
        apply Option.not_isSome_iff_eq_none.mp
        rw [process.isSome_written taken]
        exact quiet later (by simp)
      simp only [silent, Option.getD_none]
      exact ih earlier rfl fun between mem => quiet between (List.mem_append_left _ mem)

end Runs

end Process
