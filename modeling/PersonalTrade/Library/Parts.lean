import Mathlib.Tactic

/-!
# Totals taken in parts

A quantity that grows in steps, and the average over all of it after each step. What the
steps are worth, each at the average that it leads to, falls short of what the whole is
worth by the drift of the average under the quantity that was there before.

A charge at a rate up to a cap, taken on each part of a whole. It stays within the cap of
the whole only when the cap does not matter.

A total over a list whose entries have classes is the sum of the totals over the classes.
-/

universe u v

/-- A quantity so far, and the average over all of it. -/
structure Cumulative (R : Type u) where
  quantity : R
  average : R

namespace Cumulative

variable {R : Type u} [CommRing R]

/-- What the whole quantity is worth. -/
def value (record : Cumulative R) : R := record.quantity * record.average

/-- What the steps of the quantity are worth, each at the average that it leads to. -/
def stepwise : Cumulative R → List (Cumulative R) → R
  | _, [] => 0
  | last, next :: records =>
      (next.quantity - last.quantity) * next.average + stepwise next records

/-- The moves of the average, each under the quantity before it. -/
def drift : Cumulative R → List (Cumulative R) → R
  | _, [] => 0
  | last, next :: records =>
      last.quantity * (next.average - last.average) + drift next records

/-- Summation by parts. -/
theorem stepwise_add_drift (last : Cumulative R) (records : List (Cumulative R)) :
    stepwise last records + drift last records = (records.getLastD last).value - last.value := by
  induction records generalizing last with
  | nil => simp [stepwise, drift]
  | cons next records ih =>
      have later : stepwise next records + drift next records =
          (records.getLastD next).value - next.value := ih next
      rw [List.getLastD_cons]
      simp only [stepwise, drift, value] at later ⊢
      linear_combination later

/-- From nothing, the steps are worth the whole exactly when the moves of the average
cancel out. -/
theorem stepwise_eq_value_iff {start : Cumulative R} (empty : start.quantity = 0)
    (records : List (Cumulative R)) :
    stepwise start records = (records.getLastD start).value ↔ drift start records = 0 := by
  have parts := stepwise_add_drift start records
  have nothing : start.value = 0 := by
    rw [value, empty, zero_mul]
  rw [nothing, sub_zero] at parts
  rw [← parts]
  exact left_eq_add

end Cumulative

section Capped

variable {R : Type u} [Field R]

theorem sum_mul_eq (parts : List R) (rate : R) :
    parts.sum * rate = (parts.map fun part => part * rate).sum := by
  simpa using (List.sum_map_mul_right parts id rate).symm

variable [LinearOrder R] [IsStrictOrderedRing R] {rate cap : R} {parts : List R}

/-- The charges on the parts, each up to the cap. -/
def cappedSum (rate cap : R) (parts : List R) : R :=
  (parts.map fun part => min (part * rate) cap).sum

theorem cappedSum_le_rate (rate cap : R) (parts : List R) :
    cappedSum rate cap parts ≤ parts.sum * rate := by
  rw [sum_mul_eq]
  exact List.sum_le_sum fun part _ => min_le_left _ _

/-- Two parts of which one reaches the cap are charged more than the cap. -/
theorem cap_lt_cappedSum {part : R} (positive : ∀ part ∈ parts, 0 < part) (rated : 0 < rate)
    (capped : 0 < cap) (mem : part ∈ parts) (reaches : cap ≤ part * rate)
    (several : 1 < parts.length) : cap < cappedSum rate cap parts := by
  rcases List.append_of_mem mem with ⟨before, after, rfl⟩
  have others : 0 < cappedSum rate cap (before ++ after) := by
    refine List.sum_pos _ (fun charge chargeMem => ?_) ?_
    · rcases List.mem_map.mp chargeMem with ⟨other, otherMem, rfl⟩
      refine lt_min (mul_pos (positive other ?_) rated) capped
      rcases List.mem_append.mp otherMem with early | late
      · exact List.mem_append_left _ early
      · exact List.mem_append_right _ (List.mem_cons_of_mem _ late)
    · intro none
      rw [List.map_eq_nil_iff] at none
      have length := congrArg List.length none
      simp only [List.length_append, List.length_cons, List.length_nil] at length several
      omega
  have split : cappedSum rate cap (before ++ part :: after) =
      cap + cappedSum rate cap (before ++ after) := by
    simp only [cappedSum, List.map_append, List.map_cons, List.sum_append, List.sum_cons,
      min_eq_right reaches]
    ring
  rw [split]
  exact lt_add_of_pos_right _ others

/-- Charges on positive parts stay within the cap exactly when there is at most one part, the
cap is zero, or the rate on the whole is within the cap. -/
theorem cappedSum_le_iff (rate_nonneg : 0 ≤ rate) (cap_nonneg : 0 ≤ cap)
    (positive : ∀ part ∈ parts, 0 < part) :
    cappedSum rate cap parts ≤ cap ↔
      parts.length ≤ 1 ∨ cap = 0 ∨ parts.sum * rate ≤ cap := by
  constructor
  · intro within
    by_contra! beyond
    rcases beyond with ⟨several, capNe, whole⟩
    have capped : 0 < cap := lt_of_le_of_ne cap_nonneg capNe.symm
    have rated : 0 < rate := by
      refine lt_of_le_of_ne rate_nonneg fun zero => ?_
      rw [← zero, mul_zero] at whole
      exact absurd cap_nonneg (not_le.mpr whole)
    by_cases reached : ∃ part ∈ parts, cap ≤ part * rate
    · rcases reached with ⟨part, mem, reaches⟩
      exact absurd within (not_le.mpr (cap_lt_cappedSum positive rated capped mem reaches several))
    · -- no part reaches the cap, so all are charged at the rate
      push Not at reached
      have charges : cappedSum rate cap parts = parts.sum * rate := by
        rw [sum_mul_eq]
        exact congrArg List.sum (List.map_congr_left fun part mem =>
          min_eq_left (reached part mem).le)
      rw [charges] at within
      exact absurd within (not_le.mpr whole)
  · rintro (single | rfl | whole)
    · rcases parts with _ | ⟨part, _ | ⟨_, _⟩⟩
      · exact cap_nonneg
      · simp [cappedSum]
      · simp at single
    · have charges : cappedSum rate 0 parts ≤ (parts.map fun _ => (0 : R)).sum :=
        List.sum_le_sum fun part _ => min_le_right _ _
      simpa using charges
    · exact (cappedSum_le_rate rate cap parts).trans whole

end Capped

/-! ## Classes -/

/-- The classes of a list, each once. -/
theorem eraseDups_nodup {α : Type u} [BEq α] [LawfulBEq α] (entries : List α) :
    entries.eraseDups.Nodup := by
  induction length : entries.length using Nat.strong_induction_on generalizing entries with
  | _ size ih =>
      cases entries with
      | nil => simp
      | cons entry entries =>
          rw [List.eraseDups_cons, List.nodup_cons]
          refine ⟨by simp, ?_⟩
          refine ih _ ?_ _ rfl
          rw [← length, List.length_cons]
          exact Nat.lt_succ_of_le (List.length_filter_le _ _)

/-- A total over a list is the sum of the totals over its classes. -/
theorem sum_by_class {κ : Type u} {α : Type v} [DecidableEq κ] {M : Type*} [AddCommMonoid M]
    (weight : α → M) {classes : List κ} (nodup : classes.Nodup) {entries : List (κ × α)}
    (complete : ∀ entry ∈ entries, entry.1 ∈ classes) :
    (classes.map fun label =>
        ((entries.filter fun entry => entry.1 = label).map fun entry => weight entry.2).sum).sum =
      (entries.map fun entry => weight entry.2).sum := by
  induction entries with
  | nil => simp
  | cons entry entries ih =>
      rcases List.forall_mem_cons.mp complete with ⟨own, rest⟩
      have split : ∀ label, (((entry :: entries).filter fun entry => entry.1 = label).map
          fun entry => weight entry.2).sum = (if label = entry.1 then weight entry.2 else 0) +
            ((entries.filter fun entry => entry.1 = label).map fun entry => weight entry.2).sum := by
        intro label
        by_cases same : entry.1 = label
        · simp [same]
        · simp [same, Ne.symm same]
      simp only [split, List.sum_map_add, ih rest, List.map_cons, List.sum_cons]
      congr 1
      rw [List.sum_map_eq_nsmul_single entry.1, List.count_eq_one_of_mem nodup own, one_smul,
        if_pos rfl]
      intro label other _
      exact if_neg other

/-- A measure of lists that adds up over them, taken class by class of what a list yields. -/
theorem measure_by_class {κ : Type u} {α : Type v} {β : Type*} [DecidableEq κ] {M : Type*}
    [AddCommMonoid M] (measure : List β → M) (empty : measure [] = 0)
    (append : ∀ first second, measure (first ++ second) = measure first + measure second)
    (yields : α → Option β) {classes : List κ} (nodup : classes.Nodup) {entries : List (κ × α)}
    (complete : ∀ entry ∈ entries, entry.1 ∈ classes) :
    (classes.map fun label => measure
        ((entries.filter fun entry => entry.1 = label).filterMap fun entry => yields entry.2)).sum =
      measure (entries.filterMap fun entry => yields entry.2) := by
  have spread : ∀ entries : List (κ × α), measure (entries.filterMap fun entry => yields entry.2) =
      (entries.map fun entry => measure (yields entry.2).toList).sum := by
    intro entries
    induction entries with
    | nil => exact empty
    | cons entry entries ih =>
        rw [List.map_cons, List.sum_cons, ← ih, ← append, List.filterMap_cons]
        cases yields entry.2 <;> rfl
  simp only [spread]
  exact sum_by_class (fun entry : α => measure (yields entry).toList) nodup complete
