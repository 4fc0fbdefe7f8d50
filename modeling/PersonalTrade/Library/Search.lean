import Mathlib.Logic.Function.Iterate
import Mathlib.Tactic

/-!
# Loops that search

A loop that steps from a start until it meets an accepted value. It has no bound of its own; with
a bound on its tests it finds the value exactly when one is within the bound, and the value that it
finds does not depend on the bound.
-/

universe u

variable {α : Type u} {accepts : α → Bool} {step : α → α}

/-- The loop, with at most `fuel` tests. -/
def searchFrom (accepts : α → Bool) (step : α → α) : ℕ → α → Option α
  | 0, _ => none
  | fuel + 1, current =>
      if accepts current then some current else searchFrom accepts step fuel (step current)

/-- The loop ends after some steps, and at no value before. -/
structure EndsAfter (accepts : α → Bool) (step : α → α) (start : α) (count : ℕ) : Prop where
  accepted : accepts (step^[count] start) = true
  first : ∀ earlier < count, accepts (step^[earlier] start) = false

theorem searchFrom_of_endsAfter {fuel count : ℕ} {start : α}
    (ends : EndsAfter accepts step start count) (within : count < fuel) :
    searchFrom accepts step fuel start = some (step^[count] start) := by
  induction count generalizing fuel start with
  | zero =>
      rcases fuel with _ | fuel
      · omega
      · exact if_pos ends.accepted
  | succ count ih =>
      rcases fuel with _ | fuel
      · omega
      · have rejected : accepts start = false := ends.first 0 (Nat.succ_pos count)
        have rest : EndsAfter accepts step (step start) count :=
          ⟨ends.accepted, fun earlier before =>
            ends.first (earlier + 1) (Nat.succ_lt_succ before)⟩
        rw [searchFrom, rejected, if_neg Bool.false_ne_true, ih rest (by omega),
          Function.iterate_succ_apply]

/-- A loop that meets an accepted value ends. -/
theorem exists_endsAfter {start : α} {count : ℕ} (accepted : accepts (step^[count] start) = true) :
    ∃ steps ≤ count, EndsAfter accepts step start steps := by
  have found : ∃ steps, accepts (step^[steps] start) = true := ⟨count, accepted⟩
  refine ⟨Nat.find found, Nat.find_min' found accepted, Nat.find_spec found, ?_⟩
  intro earlier before
  exact Bool.eq_false_iff.mpr (Nat.find_min found before)
