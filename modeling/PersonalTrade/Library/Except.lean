import Mathlib.Data.List.Forall2

/-!
# Computations that may raise

What a sequence of computations yields when none of them raises.
-/

variable {ε α β : Type}

theorem except_bind_eq_ok {computation : Except ε α} {next : α → Except ε β} {result : β} :
    computation >>= next = .ok result ↔
      ∃ value, computation = .ok value ∧ next value = .ok result := by
  cases computation <;> simp [bind, Except.bind]

theorem except_mapError_eq_ok {ε' : Type*} {computation : Except ε α} {translate : ε → ε'}
    {result : α} : computation.mapError translate = .ok result ↔ computation = .ok result := by
  cases computation <;> simp [Except.mapError]

theorem exists_of_isSome {computation : Except ε α}
    (completes : computation.toOption.isSome = true) : ∃ result, computation = .ok result := by
  cases computation with
  | error raised => cases completes
  | ok result => exact ⟨result, rfl⟩

/-- What is seen of the result of a computation is a result of the computation. -/
theorem exists_of_toOption {computation : Except ε α} (shown : α → β) {expected : β}
    (evaluated : computation.toOption.map shown = some expected) :
    ∃ result, computation = .ok result ∧ shown result = expected := by
  cases computation with
  | error raised => cases evaluated
  | ok result => exact ⟨result, rfl, Option.some.inj evaluated⟩

/-- A traversal yields one result for each source. -/
theorem forall₂_of_mapM {build : α → Except ε β} {sources : List α} {results : List β}
    (built : sources.mapM build = .ok results) :
    List.Forall₂ (fun source result => build source = .ok result) sources results := by
  induction sources generalizing results with
  | nil =>
      cases built
      exact .nil
  | cons source sources ih =>
      rw [List.mapM_cons] at built
      rcases except_bind_eq_ok.mp built with ⟨result, head, rest⟩
      rcases except_bind_eq_ok.mp rest with ⟨results, tail, made⟩
      cases made
      exact .cons head (ih tail)

/-- A traversal completes when every computation does. -/
theorem exists_mapM_some {build : α → Option β} {related : α → β → Prop} {sources : List α}
    (builds : ∀ source ∈ sources, ∃ result, build source = some result ∧ related source result) :
    ∃ results, sources.mapM build = some results ∧ List.Forall₂ related sources results := by
  induction sources with
  | nil => exact ⟨[], rfl, .nil⟩
  | cons source sources ih =>
      rcases builds source List.mem_cons_self with ⟨result, built, own⟩
      rcases ih fun other mem => builds other (List.mem_cons_of_mem _ mem) with ⟨results, rest, all⟩
      exact ⟨result :: results, by simp [List.mapM_cons, built, rest], .cons own all⟩

/-- Related lists have a partner for each of their entries. -/
theorem exists_of_forall₂ {related : α → β → Prop} {sources : List α} {results : List β}
    (all : List.Forall₂ related sources results) :
    (∀ source ∈ sources, ∃ result ∈ results, related source result) ∧
      ∀ result ∈ results, ∃ source ∈ sources, related source result := by
  induction all with
  | nil => simp
  | cons first rest ih =>
      constructor
      · intro source mem
        rcases List.mem_cons.mp mem with rfl | later
        · exact ⟨_, List.mem_cons_self, first⟩
        · rcases ih.1 source later with ⟨result, resultMem, own⟩
          exact ⟨result, List.mem_cons_of_mem _ resultMem, own⟩
      · intro result mem
        rcases List.mem_cons.mp mem with rfl | later
        · exact ⟨_, List.mem_cons_self, first⟩
        · rcases ih.2 result later with ⟨source, sourceMem, own⟩
          exact ⟨source, List.mem_cons_of_mem _ sourceMem, own⟩

/-- Lists related to the same sources are related through them. -/
theorem forall₂_through {γ : Type} {left : α → β → Prop} {right : α → γ → Prop}
    {sources : List α} {results : List β} {others : List γ}
    (first : List.Forall₂ left sources results) (second : List.Forall₂ right sources others) :
    List.Forall₂ (fun result other => ∃ source, left source result ∧ right source other)
      results others := by
  induction first generalizing others with
  | nil =>
      cases second
      exact .nil
  | cons head _ ih =>
      cases second with
      | cons head' rest => exact .cons ⟨_, head, head'⟩ (ih rest)

theorem map_eq_map_of_forall₂ {γ : Type} {related : α → β → Prop} {sources : List α}
    {results : List β} {f : α → γ} {g : β → γ} (all : List.Forall₂ related sources results)
    (same : ∀ source result, related source result → f source = g result) :
    sources.map f = results.map g := by
  rw [← List.forall₂_eq_eq_eq, List.forall₂_map_left_iff, List.forall₂_map_right_iff]
  exact all.imp same
