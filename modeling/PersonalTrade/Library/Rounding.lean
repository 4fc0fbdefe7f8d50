import Mathlib.Data.Int.Log
import Mathlib.Tactic

/-!
# Rounding

Rounding to the nearest integer, half way to the even one, the doubles next to rational
numbers, and dividing a count in several stages with a rounding after each.
-/

/-- The nearest integer, half way the even one. -/
def roundHalfEven (x : ℚ) : ℤ :=
  if Int.fract x < 1 / 2 then ⌊x⌋
  else if 1 / 2 < Int.fract x then ⌊x⌋ + 1
  else if Even ⌊x⌋ then ⌊x⌋
  else ⌊x⌋ + 1

/-- An integer is nearest to a number, and even when another one is as near. -/
structure IsNearestEven (x : ℚ) (n : ℤ) : Prop where
  nearest : ∀ other : ℤ, |x - n| ≤ |x - other|
  even : ∀ other : ℤ, other ≠ n → |x - other| = |x - n| → Even n

/-- No two integers are nearest and even. -/
theorem IsNearestEven.unique {x : ℚ} {n m : ℤ} (first : IsNearestEven x n)
    (second : IsNearestEven x m) : n = m := by
  by_contra differ
  have same : |x - n| = |x - m| := le_antisymm (first.nearest m) (second.nearest n)
  have evenFirst := first.even m (Ne.symm differ) same.symm
  have evenSecond := second.even n differ same
  -- the integer between two that are equally near is nearer
  rcases evenFirst with ⟨half, rfl⟩
  rcases evenSecond with ⟨half', rfl⟩
  have middle := first.nearest (half + half')
  rcases abs_eq_abs.mp same with equal | opposite
  · have : ((half + half : ℤ) : ℚ) = ((half' + half' : ℤ) : ℚ) := by linarith
    exact differ (by exact_mod_cast this)
  · push_cast at opposite middle
    have centre : x - (half + half') = 0 := by linarith
    rw [centre, abs_zero] at middle
    have zero := abs_eq_zero.mp (le_antisymm middle (abs_nonneg _))
    have : (half : ℚ) = half' := by linarith
    exact differ (by rw [show half = half' by exact_mod_cast this])

/-- Nothing is moved by more than a half, and by a half only to an even integer. -/
theorem roundHalfEven_moves (x : ℚ) :
    |x - roundHalfEven x| < 1 / 2 ∨ |x - roundHalfEven x| = 1 / 2 ∧ Even (roundHalfEven x) := by
  have nonneg := Int.fract_nonneg x
  have below := Int.fract_lt_one x
  have down : x - ⌊x⌋ = Int.fract x := rfl
  have up : x - (⌊x⌋ + 1 : ℤ) = -(1 - Int.fract x) := by
    push_cast
    rw [← down]
    ring
  rw [roundHalfEven]
  split_ifs with lower upper whole
  · rw [down, abs_of_nonneg nonneg]
    exact .inl lower
  · rw [up, abs_neg, abs_of_pos (by linarith)]
    left
    linarith
  · rw [down, abs_of_nonneg nonneg]
    exact .inr ⟨by linarith, whole⟩
  · rw [up, abs_neg, abs_of_pos (by linarith)]
    exact .inr ⟨by linarith, (Int.not_even_iff_odd.mp whole).add_one⟩

theorem isNearestEven_roundHalfEven (x : ℚ) : IsNearestEven x (roundHalfEven x) := by
  have far : ∀ other : ℤ, other ≠ roundHalfEven x → 1 ≤ |x - roundHalfEven x| + |x - other| := by
    intro other differ
    have apart : 1 ≤ |roundHalfEven x - other| := Int.one_le_abs (sub_ne_zero.mpr differ.symm)
    calc (1 : ℚ) ≤ |(roundHalfEven x : ℚ) - other| := by exact_mod_cast apart
      _ ≤ |(roundHalfEven x : ℚ) - x| + |x - other| := abs_sub_le _ _ _
      _ = |x - roundHalfEven x| + |x - other| := by rw [abs_sub_comm]
  constructor
  · intro other
    by_cases same : other = roundHalfEven x
    · rw [same]
    · have apart := far other same
      rcases roundHalfEven_moves x with little | ⟨half, _⟩
      · linarith
      · linarith
  · intro other differ tie
    have apart := far other differ
    rcases roundHalfEven_moves x with little | ⟨_, even⟩
    · linarith
    · exact even

/-- An integer is not moved. -/
theorem roundHalfEven_intCast (n : ℤ) : roundHalfEven n = n := by
  rw [roundHalfEven, if_pos (by rw [Int.fract_intCast]; norm_num), Int.floor_intCast]

/-- Rounding does not pass an integer. -/
theorem le_roundHalfEven {n : ℤ} {x : ℚ} (le : n ≤ x) : n ≤ roundHalfEven x := by
  have floor := Int.le_floor.mpr le
  rw [roundHalfEven]
  split_ifs <;> omega

theorem roundHalfEven_le {n : ℤ} {x : ℚ} (le : x ≤ n) : roundHalfEven x ≤ n := by
  rcases le.lt_or_eq with below | rfl
  · have floor := Int.floor_lt.mpr below
    rw [roundHalfEven]
    split_ifs <;> omega
  · exact (roundHalfEven_intCast n).le

/-! ## Doubles -/

/-- The distance of the doubles next to a number: their significands have 53 bits. -/
def doubleSpacing (x : ℚ) : ℚ := 2 ^ (Int.log 2 |x| - 52)

/-- The nearest double, half way the one with the even significand. Numbers that are too
great for a double, or so small that it has fewer bits, are not treated apart. -/
def nearestDouble (x : ℚ) : ℚ := roundHalfEven (x / doubleSpacing x) * doubleSpacing x

/-- Small numbers lie between doubles that divide a unit. -/
theorem exists_nearestDouble_eq {x : ℚ} (small : |x| < 2 ^ 53) :
    ∃ k : ℕ, nearestDouble x = roundHalfEven (x * 2 ^ k) / 2 ^ k := by
  have log : Int.log 2 |x| ≤ 52 := by
    rcases (abs_nonneg x).eq_or_lt with zero | pos
    · rw [← zero, Int.log_of_right_le_zero _ le_rfl]
      norm_num
    · apply Int.le_of_lt_add_one
      apply (Int.lt_zpow_iff_log_lt (by norm_num) pos).mp
      exact_mod_cast small
  have spacing : doubleSpacing x = (2 ^ (52 - Int.log 2 |x|).toNat)⁻¹ := by
    rw [doubleSpacing, ← zpow_natCast, ← zpow_neg, Int.toNat_of_nonneg (by omega), neg_sub]
  refine ⟨(52 - Int.log 2 |x|).toNat, ?_⟩
  rw [nearestDouble, spacing, div_inv_eq_mul, div_eq_mul_inv]

/-- The nearest double does not pass an integer. -/
theorem le_nearestDouble {x : ℚ} (small : |x| < 2 ^ 53) {n : ℤ} (le : n ≤ x) :
    n ≤ nearestDouble x := by
  rcases exists_nearestDouble_eq small with ⟨k, double⟩
  have scaled : ((n * 2 ^ k : ℤ) : ℚ) ≤ x * 2 ^ k := by
    push_cast
    gcongr
  rw [double, le_div_iff₀ (by positivity)]
  exact_mod_cast le_roundHalfEven scaled

theorem nearestDouble_le {x : ℚ} (small : |x| < 2 ^ 53) {n : ℤ} (le : x ≤ n) :
    nearestDouble x ≤ n := by
  rcases exists_nearestDouble_eq small with ⟨k, double⟩
  have scaled : x * 2 ^ k ≤ ((n * 2 ^ k : ℤ) : ℚ) := by
    push_cast
    gcongr
  rw [double, div_le_iff₀ (by positivity)]
  exact_mod_cast roundHalfEven_le scaled

/-! ## Division in stages -/

/-- A count divided by one divisor after the other, and rounded after each. -/
def divideInStages (divisors : List ℚ) (count : ℤ) : ℤ :=
  divisors.foldl (fun count divisor => roundHalfEven (count / divisor)) count

/-- Every division but the last one leaves an integer. -/
def DividesExactly (divisors : List ℚ) (count : ℤ) : Prop :=
  ∀ earlier later, earlier ++ later = divisors → later ≠ [] →
    ∃ quotient : ℤ, count / earlier.prod = quotient

/-- Reciprocals of whole numbers leave no fraction. -/
theorem DividesExactly.of_reciprocals {divisors : List ℚ} {count : ℤ}
    (reciprocal : ∀ divisor ∈ divisors, ∃ n : ℕ, divisor = 1 / n) :
    DividesExactly divisors count := by
  have whole : ∀ earlier : List ℚ, (∀ divisor ∈ earlier, ∃ n : ℕ, divisor = 1 / n) →
      ∃ n : ℕ, earlier.prod = 1 / n := by
    intro earlier
    induction earlier with
    | nil => exact fun _ => ⟨1, by simp⟩
    | cons divisor earlier ih =>
        intro all
        rcases all divisor (.head _) with ⟨m, rfl⟩
        rcases ih fun other mem => all other (.tail _ mem) with ⟨n, product⟩
        exact ⟨m * n, by rw [List.prod_cons, product]; push_cast; ring⟩
  rintro earlier later rfl -
  rcases whole earlier fun divisor mem => reciprocal divisor (List.mem_append_left _ mem) with
    ⟨n, product⟩
  exact ⟨count * n, by rw [product]; push_cast; simp⟩

/-- When only the last division leaves a fraction, the stages round as one division by the
product. -/
theorem divideInStages_eq {divisors : List ℚ} {count : ℤ}
    (exact : DividesExactly divisors count) :
    divideInStages divisors count = roundHalfEven (count / divisors.prod) := by
  induction divisors generalizing count with
  | nil =>
      rw [List.prod_nil, div_one, roundHalfEven_intCast]
      rfl
  | cons divisor divisors ih =>
      rcases List.eq_nil_or_concat divisors with rfl | ⟨_, _, more⟩
      · rw [List.prod_singleton]
        rfl
      · have remaining : divisors ≠ [] := by simp [more]
        rcases exact [divisor] divisors rfl remaining with ⟨quotient, whole⟩
        rw [List.prod_singleton] at whole
        have exactLater : DividesExactly divisors quotient := by
          rintro earlier later rfl nonempty
          rcases exact (divisor :: earlier) later rfl nonempty with ⟨next, same⟩
          refine ⟨next, ?_⟩
          rw [← whole, div_div, ← List.prod_cons, same]
        have step : divideInStages (divisor :: divisors) count =
            divideInStages divisors (roundHalfEven (count / divisor)) := rfl
        rw [step, whole, roundHalfEven_intCast, ih exactLater, ← whole, div_div, ← List.prod_cons]
