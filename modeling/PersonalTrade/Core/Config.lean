import PersonalTrade.Core.Enums

/-!
# Configuration and time

The sections of `core/config.py` that the trading core reads, with the bounds of
their pydantic fields as fields of the structures, so that no out-of-range
configuration can be built. Times are milliseconds since the epoch, UTC.
-/

namespace PersonalTrade

-- Shortcuts, so that the bounds below are proved with one instance whatever is imported.
instance isOrderedRing_int : IsOrderedRing ℤ := IsStrictOrderedRing.toIsOrderedRing
instance isOrderedRing_rat : IsOrderedRing ℚ := IsStrictOrderedRing.toIsOrderedRing

structure CostConfig where
  brokeragePct : ℚ := 3 / 10000
  brokerageMax : ℚ := 20
  sttDeliveryPct : ℚ := 1 / 1000
  sttIntradaySellPct : ℚ := 25 / 100000
  exchangeTxnPct : ℚ := 297 / 10000000
  sebiPct : ℚ := 1 / 1000000
  stampDutyBuyDeliveryPct : ℚ := 15 / 100000
  stampDutyBuyIntradayPct : ℚ := 3 / 100000
  gstPct : ℚ := 18 / 100
  brokeragePct_nonneg : 0 ≤ brokeragePct := by norm_num
  brokerageMax_nonneg : 0 ≤ brokerageMax := by norm_num
  sttDeliveryPct_nonneg : 0 ≤ sttDeliveryPct := by norm_num
  sttIntradaySellPct_nonneg : 0 ≤ sttIntradaySellPct := by norm_num
  exchangeTxnPct_nonneg : 0 ≤ exchangeTxnPct := by norm_num
  sebiPct_nonneg : 0 ≤ sebiPct := by norm_num
  stampDutyBuyDeliveryPct_nonneg : 0 ≤ stampDutyBuyDeliveryPct := by norm_num
  stampDutyBuyIntradayPct_nonneg : 0 ≤ stampDutyBuyIntradayPct := by norm_num
  gstPct_nonneg : 0 ≤ gstPct := by norm_num

instance : Inhabited CostConfig := ⟨{}⟩

structure KillSwitchConfig where
  maxConsecutiveErrors : ℕ := 5
  one_le_maxConsecutiveErrors : 1 ≤ maxConsecutiveErrors := by norm_num

/-- `RiskConfig`, without the fields that only the composition root reads. -/
structure RiskConfig where
  maxOpenPositions : ℕ := 5
  maxDailyLossPct : ℚ := 3
  killSwitch : KillSwitchConfig := {}
  one_le_maxOpenPositions : 1 ≤ maxOpenPositions := by norm_num
  maxDailyLossPct_pos : 0 < maxDailyLossPct := by norm_num
  maxDailyLossPct_le : maxDailyLossPct ≤ 100 := by norm_num

instance : Inhabited RiskConfig := ⟨{}⟩

structure BacktestConfig where
  slippageBps : ℚ := 5
  defaultSegment : Segment := .delivery
  slippageBps_nonneg : 0 ≤ slippageBps := by norm_num

instance : Inhabited BacktestConfig := ⟨{}⟩

structure PaperConfig where
  slippageBps : ℚ := 5
  segment : Segment := .delivery
  latencyMs : ℕ := 250
  slippageBps_nonneg : 0 ≤ slippageBps := by norm_num

instance : Inhabited PaperConfig := ⟨{}⟩

/-- `UpstoxConfig`, without the request timeout. -/
structure UpstoxConfig where
  segment : Segment := .delivery
  maxRetries : ℕ := 3
  positionMismatchKillThresholdQty : ℕ := 5

/-- Milliseconds of a day. -/
def dayMs : ℤ := 86400000

/-- The offset of IST from UTC, five and a half hours. -/
def istOffsetMs : ℤ := 19800000

/-- `ist_midnight_utc`: the start of the IST day of a time. -/
def istMidnightUtc (time : ℤ) : ℤ := (time + istOffsetMs) / dayMs * dayMs - istOffsetMs

end PersonalTrade
