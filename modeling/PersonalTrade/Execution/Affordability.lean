import PersonalTrade.Execution.Agreement

/-!
# What the cash affords

`_clamp_to_cash` of the paper broker and of the backtest steps down one share at a time. That it
ends at the threshold between what the cash affords and what it does not rests on the net amount of
a purchase growing with its quantity, the capped brokerage and the GST on it included.
-/

namespace PersonalTrade

/-- A larger purchase costs no less. -/
theorem netAmount_mono {price : ℚ} (priced : 0 ≤ price) (segment : Segment) (rates : CostConfig)
    {qty qty' : ℕ} (ordered : qty ≤ qty') :
    (costStack .buy price qty segment rates).netAmount ≤
      (costStack .buy price qty' segment rates).netAmount := by
  have turnover : price * qty ≤ price * qty' :=
    mul_le_mul_of_nonneg_left (Nat.cast_le.mpr ordered) priced
  have charge : ∀ {rate : ℚ}, 0 ≤ rate → price * qty * rate ≤ price * qty' * rate :=
    mul_le_mul_of_nonneg_right turnover
  have brokerage : min (price * qty * rates.brokeragePct) rates.brokerageMax ≤
      min (price * qty' * rates.brokeragePct) rates.brokerageMax :=
    min_le_min_right _ (charge rates.brokeragePct_nonneg)
  have exchange := charge rates.exchangeTxnPct_nonneg
  have sebi := charge rates.sebiPct_nonneg
  have gst : (min (price * qty * rates.brokeragePct) rates.brokerageMax +
        price * qty * rates.exchangeTxnPct + price * qty * rates.sebiPct) * rates.gstPct ≤
      (min (price * qty' * rates.brokeragePct) rates.brokerageMax +
        price * qty' * rates.exchangeTxnPct + price * qty' * rates.sebiPct) * rates.gstPct :=
    mul_le_mul_of_nonneg_right (by linarith) rates.gstPct_nonneg
  cases segment with
  | delivery =>
      have stt := charge rates.sttDeliveryPct_nonneg
      have stamp := charge rates.stampDutyBuyDeliveryPct_nonneg
      simp only [costStack, if_true, if_false, reduceCtorEq]
      linarith
  | intraday =>
      have stamp := charge rates.stampDutyBuyIntradayPct_nonneg
      simp only [costStack, if_true, if_false, reduceCtorEq]
      linarith

/-- The quantities up to a requested one that the cash buys are those up to a threshold. -/
structure AffordsUpTo (price cash : ℚ) (segment : Segment) (rates : CostConfig)
    (requested threshold : ℕ) : Prop where
  within : threshold ≤ requested
  affords : ∀ qty, 1 ≤ qty → qty ≤ requested →
    ∃ costs, calculateCosts .buy price qty segment rates = .ok costs ∧
      (costs.netAmount ≤ cash ↔ qty ≤ threshold)

theorem affordsUpTo_of_clampToCash {price cash : ℚ} {segment : Segment} {rates : CostConfig}
    {requested threshold : ℕ} (priced : 0 < price)
    (clamped : clampToCash price segment rates cash requested = .ok threshold) :
    AffordsUpTo price cash segment rates requested threshold := by
  rcases clampToCash_eq_ok clamped with ⟨within, paid, tooMany⟩
  refine ⟨within, fun qty positive upTo => ?_⟩
  refine ⟨_, calculateCosts_eq_ok.mpr ⟨priced, positive, rfl⟩, ?_, ?_⟩
  · intro fits
    by_contra above
    exact absurd fits (not_le.mpr (tooMany qty (not_le.mp above) upTo))
  · intro below
    exact (netAmount_mono priced.le segment rates below).trans (paid (positive.trans below))

/-- Both loops end at the affordability threshold. -/
theorem clampToCash_affords (broker : PaperBroker) (segment : Segment) (rates : CostConfig)
    {price : ℚ} (priced : 0 < price) (cash : ℚ) (requested : ℕ) :
    (∃ threshold, broker.clampToCash cash price requested = .ok threshold ∧
      AffordsUpTo price cash broker.segment broker.costRates requested threshold) ∧
    ∃ threshold, clampToCash price segment rates cash requested = .ok threshold ∧
      AffordsUpTo price cash segment rates requested threshold := by
  have ends : ∀ segment rates, ∃ threshold,
      clampToCash price segment rates cash requested = .ok threshold ∧
        AffordsUpTo price cash segment rates requested threshold := by
    intro segment rates
    rcases exists_clampToCash priced segment rates cash requested with ⟨threshold, clamped⟩
    exact ⟨threshold, clamped, affordsUpTo_of_clampToCash priced clamped⟩
  rw [broker.clampToCash_eq]
  exact ⟨ends broker.segment broker.costRates, ends segment rates⟩

/-- A broker with the default rates. -/
def deliveryBroker : PaperBroker := ⟨fun _ => none, default, .delivery, 0, 0⟩

theorem clampToCash_affords_sample :
    (∃ threshold, deliveryBroker.clampToCash 550 100 7 = .ok threshold ∧
      AffordsUpTo 100 550 .delivery default 7 threshold) ∧
    ∃ threshold, clampToCash 100 .intraday default 550 7 = .ok threshold ∧
      AffordsUpTo 100 550 .intraday default 7 threshold :=
  clampToCash_affords deliveryBroker .intraday default (by norm_num) 550 7

end PersonalTrade
