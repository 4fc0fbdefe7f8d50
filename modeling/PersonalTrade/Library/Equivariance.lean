import PersonalTrade.Library.Scan

/-!
# Computing on renamed data

Transformations of series that commute with a map on their entries, and pairs of computations that
may raise and that are run side by side: they are `Alike` if both raise, or both yield, and then
related results.
-/

universe w

/-! ## Series -/

section Series

variable {α β γ δ : Type w} {f : α → γ} {g : β → δ}

theorem perPrefix_map {value : List α → β} {value' : List γ → δ}
    (commutes : ∀ seen, value' (seen.map f) = g (value seen)) (series : List α) :
    perPrefix value' (series.map f) = (perPrefix value series).map g := by
  simp [perPrefix, ← List.map_take, commutes]

theorem rtake_map (period : ℕ) (series : List α) :
    (series.map f).rtake period = (series.rtake period).map f := by
  simp [List.rtake, List.map_drop]

theorem rolling_map {aggregate : List α → β} {aggregate' : List γ → δ}
    (commutes : ∀ window, aggregate' (window.map f) = g (aggregate window)) (period : ℕ)
    (series : List α) :
    rolling period aggregate' (series.map f) =
      (rolling period aggregate series).map (Option.map g) := by
  apply perPrefix_map
  intro seen
  rw [List.length_map, rtake_map, commutes, apply_ite (Option.map g), Option.map_none,
    Option.map_some]

theorem scanl_commutes {combine : β → α → β} {combine' : δ → γ → δ}
    (combines : ∀ value entry, combine' (g value) (f entry) = g (combine value entry)) (value : β)
    (series : List α) :
    (series.map f).scanl combine' (g value) = (series.scanl combine value).map g := by
  induction series generalizing value with
  | nil => rfl
  | cons entry series ih =>
      rw [List.map_cons, List.scanl_cons, List.scanl_cons, List.map_cons, combines, ih]

theorem seeded_map {seed : List α → β} {seed' : List γ → δ} {combine : β → α → β}
    {combine' : δ → γ → δ} (seeds : ∀ entries, seed' (entries.map f) = g (seed entries))
    (combines : ∀ value entry, combine' (g value) (f entry) = g (combine value entry))
    (period : ℕ) (series : List α) :
    seeded period seed' combine' (series.map f) =
      (seeded period seed combine series).map (Option.map g) := by
  rw [seeded, seeded, List.length_map]
  split_ifs with enough
  · rw [← List.map_take, ← List.map_drop, seeds, scanl_commutes combines, List.map_append,
      List.map_replicate, List.map_map, List.map_map]
    rfl
  · rw [List.map_replicate]
    rfl

end Series

/-! ## Computations side by side -/

/-- Both computations raise, or both yield, related results. -/
inductive Alike {ε α β : Type} (related : α → β → Prop) : Except ε α → Except ε β → Prop where
  | raises (raised raised' : ε) : Alike related (.error raised) (.error raised')
  | yields {result : α} {result' : β} (holds : related result result') :
      Alike related (.ok result) (.ok result')

namespace Alike

variable {ε α β γ δ : Type} {related : α → β → Prop} {related' : γ → δ → Prop}
  {left : Except ε α} {right : Except ε β}

theorem pure {result : α} {result' : β} (holds : related result result') :
    Alike related (Pure.pure result : Except ε α) (Pure.pure result') :=
  .yields holds

theorem bind {next : α → Except ε γ} {next' : β → Except ε δ} (first : Alike related left right)
    (rest : ∀ result result', related result result' →
      Alike related' (next result) (next' result')) :
    Alike related' (left >>= next) (right >>= next') := by
  cases first with
  | raises raised raised' => exact .raises raised raised'
  | yields holds => exact rest _ _ holds

theorem mono {closer : α → β → Prop} (alike : Alike related left right)
    (weaker : ∀ result result', related result result' → closer result result') :
    Alike closer left right := by
  cases alike with
  | raises raised raised' => exact .raises raised raised'
  | yields holds => exact .yields (weaker _ _ holds)

theorem ite {condition condition' : Prop} [Decidable condition] [Decidable condition']
    {other : Except ε α} {other' : Except ε β} (same : condition' ↔ condition)
    (met : condition → Alike related left right)
    (unmet : ¬ condition → Alike related other other') :
    Alike related (if condition then left else other) (if condition' then right else other') := by
  by_cases holds : condition
  · rw [if_pos holds, if_pos (same.mpr holds)]
    exact met holds
  · rw [if_neg holds, if_neg (mt same.mp holds)]
    exact unmet holds

/-- Loops whose turns are alike. -/
theorem foldlM {ι κ : Type} {f : ι → κ} {step : α → ι → Except ε α} {step' : β → κ → Except ε β}
    {items : List ι}
    (turns : ∀ item ∈ items, ∀ state state', related state state' →
      Alike related (step state item) (step' state' (f item)))
    {state : α} {state' : β} (holds : related state state') :
    Alike related (items.foldlM step state) ((items.map f).foldlM step' state') := by
  induction items generalizing state state' with
  | nil => exact .yields holds
  | cons item items ih =>
      rw [List.map_cons, List.foldlM_cons, List.foldlM_cons]
      apply (turns item List.mem_cons_self state state' holds).bind
      intro next next' held
      exact ih (fun later mem => turns later (List.mem_cons_of_mem _ mem)) held

/-- The related results are those of the two computations. -/
theorem attach (alike : Alike related left right) :
    Alike (fun result result' => related result result' ∧ left = .ok result ∧ right = .ok result')
      left right := by
  cases alike with
  | raises raised raised' => exact .raises raised raised'
  | yields holds => exact .yields ⟨holds, rfl, rfl⟩

/-- What is seen of the results. -/
theorem toOption_eq {shown : α → γ} {shown' : β → γ} (alike : Alike related left right)
    (same : ∀ result result', related result result' → shown' result' = shown result) :
    right.toOption.map shown' = left.toOption.map shown := by
  cases alike with
  | raises raised raised' => rfl
  | yields holds => exact congrArg some (same _ _ holds)

end Alike
