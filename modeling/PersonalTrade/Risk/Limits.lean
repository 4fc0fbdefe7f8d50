import PersonalTrade.Core.Config
import PersonalTrade.Library.Rounding

/-!
# Limits, sizing and tick rounding

The pure arithmetic of the risk gate: `risk/limits.py`, `risk/sizing.py` and the
rounding of a reference price to the tick size of its instrument.
-/

namespace PersonalTrade

/-- `exceeds_max_open_positions`. -/
def exceedsMaxOpenPositions (openCount maxOpenPositions : ℕ) : Bool :=
  decide (maxOpenPositions ≤ openCount)

/-- `exceeds_max_daily_loss`. -/
def exceedsMaxDailyLoss (dailyRealizedPnl equity maxDailyLossPct : ℚ) : Bool :=
  if 0 ≤ dailyRealizedPnl ∨ equity ≤ 0 then false
  else decide (maxDailyLossPct ≤ -dailyRealizedPnl / equity * 100)

theorem exceedsMaxDailyLoss_iff {dailyRealizedPnl equity maxDailyLossPct : ℚ} :
    exceedsMaxDailyLoss dailyRealizedPnl equity maxDailyLossPct = true ↔
      dailyRealizedPnl < 0 ∧ 0 < equity ∧
        maxDailyLossPct ≤ -dailyRealizedPnl / equity * 100 := by
  unfold exceedsMaxDailyLoss
  split_ifs with slack
  · simp only [false_iff, not_and]
    rcases slack with profit | broke
    · exact fun loss => absurd loss (not_lt.mpr profit)
    · exact fun _ solvent => absurd solvent (not_lt.mpr broke)
  · rw [not_or, not_le, not_le] at slack
    simp [slack]

/-- The `PositionSizer` protocol. -/
abbrev PositionSizer := ℚ → ℚ → ℤ

/-- `FixedFractionalSizer`; the constructor rejects a percentage outside (0, 100]. -/
structure FixedFractionalSizer where
  riskPerTradePct : ℚ
  riskPerTradePct_pos : 0 < riskPerTradePct
  riskPerTradePct_le : riskPerTradePct ≤ 100

/-- `FixedFractionalSizer.size`; the quotient is positive, so `//` is the floor. -/
def FixedFractionalSizer.size (sizer : FixedFractionalSizer) : PositionSizer :=
  fun equity price =>
    if price ≤ 0 ∨ equity ≤ 0 then 0
    else
      let allocation := equity * (sizer.riskPerTradePct / 100)
      max ⌊allocation / price⌋ 0

/-- The sizer yields a positive quantity `q` exactly when `q` is the number of
whole shares the allocation pays for. -/
theorem FixedFractionalSizer.size_eq_iff (sizer : FixedFractionalSizer) {equity price : ℚ}
    {q : ℕ} (positive : 1 ≤ q) :
    sizer.size equity price = q ↔
      0 < equity ∧ 0 < price ∧ q * price ≤ equity * sizer.riskPerTradePct / 100 ∧
        equity * sizer.riskPerTradePct / 100 < (q + 1) * price := by
  have allocationEq : equity * (sizer.riskPerTradePct / 100) =
      equity * sizer.riskPerTradePct / 100 := by ring
  unfold size
  split_ifs with refused
  · constructor
    · intro zero
      omega
    · rintro ⟨solvent, priced, _⟩
      rcases refused with unpriced | broke
      · exact absurd priced (not_lt.mpr unpriced)
      · exact absurd solvent (not_lt.mpr broke)
  · rw [not_or, not_le, not_le] at refused
    rcases refused with ⟨priced, solvent⟩
    have floorIff : ⌊equity * (sizer.riskPerTradePct / 100) / price⌋ = (q : ℤ) ↔
        q * price ≤ equity * sizer.riskPerTradePct / 100 ∧
          equity * sizer.riskPerTradePct / 100 < (q + 1) * price := by
      rw [Int.floor_eq_iff, le_div_iff₀ priced, div_lt_iff₀ priced, allocationEq]
      push_cast
      rfl
    have maxIff : max ⌊equity * (sizer.riskPerTradePct / 100) / price⌋ 0 = (q : ℤ) ↔
        ⌊equity * (sizer.riskPerTradePct / 100) / price⌋ = (q : ℤ) := by
      omega
    simp only [maxIff, floorIff, solvent, priced, true_and]

/-- `_to_tick_decimal`; `to_integral_value` rounds half to even. -/
def toTickDecimal (price tickSize : ℚ) : ℚ :=
  if tickSize ≤ 0 then price else roundHalfEven (price / tickSize) * tickSize

/-- The price of an order: the nearest multiple of the tick, half way the even one, and the
price itself when there is no tick. -/
structure IsTickPrice (price tickSize rounded : ℚ) : Prop where
  untouched : tickSize ≤ 0 → rounded = price
  multiple : 0 < tickSize → ∃ ticks : ℤ, rounded = ticks * tickSize ∧
    (∀ other : ℤ, |price - rounded| ≤ |price - other * tickSize|) ∧
    ∀ other : ℤ, other ≠ ticks → |price - other * tickSize| = |price - rounded| → Even ticks

theorem isTickPrice_iff {price tickSize rounded : ℚ} :
    IsTickPrice price tickSize rounded ↔ rounded = toTickDecimal price tickSize := by
  rcases le_or_gt tickSize 0 with none | positive
  · rw [toTickDecimal, if_pos none]
    constructor
    · intro priced
      exact priced.untouched none
    · rintro rfl
      exact ⟨fun _ => rfl, fun positive => absurd none (not_le.mpr positive)⟩
  · -- distances in money are those in ticks, times the tick
    have distance : ∀ ticks : ℤ,
        |price - ticks * tickSize| = |price / tickSize - ticks| * tickSize := by
      intro ticks
      rw [← abs_of_pos positive, ← abs_mul, abs_of_pos positive, sub_mul,
        div_mul_cancel₀ _ positive.ne']
    have nearest_iff : ∀ ticks : ℤ, IsNearestEven (price / tickSize) ticks ↔
        (∀ other : ℤ, |price - ticks * tickSize| ≤ |price - other * tickSize|) ∧
          ∀ other : ℤ, other ≠ ticks →
            |price - other * tickSize| = |price - ticks * tickSize| → Even ticks := by
      intro ticks
      simp only [distance, mul_le_mul_iff_left₀ positive, mul_left_inj' positive.ne']
      exact ⟨fun ⟨nearest, even⟩ => ⟨nearest, even⟩, fun ⟨nearest, even⟩ => ⟨nearest, even⟩⟩
    rw [toTickDecimal, if_neg (not_le.mpr positive)]
    constructor
    · intro priced
      rcases priced.multiple positive with ⟨ticks, rfl, nearest⟩
      rw [((nearest_iff ticks).mpr nearest).unique (isNearestEven_roundHalfEven _)]
    · rintro rfl
      refine ⟨fun none => absurd positive (not_lt.mpr none), fun _ => ⟨_, rfl, ?_⟩⟩
      exact (nearest_iff _).mp (isNearestEven_roundHalfEven _)

end PersonalTrade
