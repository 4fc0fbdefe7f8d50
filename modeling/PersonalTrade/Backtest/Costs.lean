import PersonalTrade.Store.Repos

/-!
# Cost model

`backtest/costs.py`: slippage and the cost stack of one executed leg, shared by
the backtester and both brokers. All arithmetic is exact.
-/

namespace PersonalTrade

structure TradeCosts where
  brokerage : ℚ
  stt : ℚ
  stampDuty : ℚ
  exchangeCharges : ℚ
  sebiCharges : ℚ
  gst : ℚ
  total : ℚ
  netAmount : ℚ
deriving DecidableEq, Repr

/-- `apply_slippage`. -/
def applySlippage (price : ℚ) (side : Side) (slippageBps : ℚ) : ℚ :=
  let factor := slippageBps / 10000
  if side = .buy then price * (1 + factor) else price * (1 - factor)

/-- The cost stack of a leg whose price and quantity are valid. -/
def costStack (side : Side) (price : ℚ) (qty : ℕ) (segment : Segment) (rates : CostConfig) :
    TradeCosts :=
  let turnover := price * qty
  let brokerage := min (turnover * rates.brokeragePct) rates.brokerageMax
  let stt := match segment with
    | .delivery => turnover * rates.sttDeliveryPct
    | .intraday => if side = .sell then turnover * rates.sttIntradaySellPct else 0
  let stampDuty := match segment with
    | .delivery => if side = .buy then turnover * rates.stampDutyBuyDeliveryPct else 0
    | .intraday => if side = .buy then turnover * rates.stampDutyBuyIntradayPct else 0
  let exchangeCharges := turnover * rates.exchangeTxnPct
  let sebiCharges := turnover * rates.sebiPct
  let gst := (brokerage + exchangeCharges + sebiCharges) * rates.gstPct
  let total := brokerage + stt + stampDuty + exchangeCharges + sebiCharges + gst
  { brokerage, stt, stampDuty, exchangeCharges, sebiCharges, gst, total
    netAmount := if side = .sell then turnover - total else turnover + total }

/-- `calculate_costs`. -/
def calculateCosts (side : Side) (price : ℚ) (qty : ℕ) (segment : Segment) (rates : CostConfig) :
    Except PyError TradeCosts :=
  if price ≤ 0 then .error (.valueError "price must be > 0" price)
  else if qty = 0 then .error (.valueError "qty must be > 0" qty)
  else .ok (costStack side price qty segment rates)

theorem calculateCosts_eq_ok {side : Side} {price : ℚ} {qty : ℕ} {segment : Segment}
    {rates : CostConfig} {costs : TradeCosts} :
    calculateCosts side price qty segment rates = .ok costs ↔
      0 < price ∧ 0 < qty ∧ costs = costStack side price qty segment rates := by
  unfold calculateCosts
  split_ifs with nonpositive zero
  · simp [not_lt.mpr nonpositive]
  · simp [zero]
  · simp only [Except.ok.injEq]
    constructor
    · rintro rfl
      exact ⟨not_le.mp nonpositive, Nat.pos_of_ne_zero zero, rfl⟩
    · rintro ⟨_, _, rfl⟩
      rfl

/-! ## What a leg can cost -/

/-- All the rates of a sale, with GST on the charges that bear it. -/
def sellRate (segment : Segment) (rates : CostConfig) : ℚ :=
  rates.brokeragePct +
    (match segment with
      | .delivery => rates.sttDeliveryPct
      | .intraday => rates.sttIntradaySellPct) +
    rates.exchangeTxnPct + rates.sebiPct +
    (rates.brokeragePct + rates.exchangeTxnPct + rates.sebiPct) * rates.gstPct

section Bounds

variable {side : Side} {price : ℚ} {qty : ℕ} {segment : Segment} {rates : CostConfig}

theorem turnover_nonneg (priced : 0 ≤ price) : 0 ≤ price * qty :=
  mul_nonneg priced (Nat.cast_nonneg qty)

theorem costStack_total_nonneg (priced : 0 ≤ price) :
    0 ≤ (costStack side price qty segment rates).total := by
  have turnover : 0 ≤ price * qty := turnover_nonneg priced
  have brokerage : 0 ≤ min (price * qty * rates.brokeragePct) rates.brokerageMax :=
    le_min (mul_nonneg turnover rates.brokeragePct_nonneg) rates.brokerageMax_nonneg
  have exchange : 0 ≤ price * qty * rates.exchangeTxnPct :=
    mul_nonneg turnover rates.exchangeTxnPct_nonneg
  have sebi : 0 ≤ price * qty * rates.sebiPct := mul_nonneg turnover rates.sebiPct_nonneg
  have gst : 0 ≤ (min (price * qty * rates.brokeragePct) rates.brokerageMax +
      price * qty * rates.exchangeTxnPct + price * qty * rates.sebiPct) * rates.gstPct :=
    mul_nonneg (by positivity) rates.gstPct_nonneg
  have delivery : 0 ≤ price * qty * rates.sttDeliveryPct :=
    mul_nonneg turnover rates.sttDeliveryPct_nonneg
  have intraday : 0 ≤ price * qty * rates.sttIntradaySellPct :=
    mul_nonneg turnover rates.sttIntradaySellPct_nonneg
  have stampDelivery : 0 ≤ price * qty * rates.stampDutyBuyDeliveryPct :=
    mul_nonneg turnover rates.stampDutyBuyDeliveryPct_nonneg
  have stampIntraday : 0 ≤ price * qty * rates.stampDutyBuyIntradayPct :=
    mul_nonneg turnover rates.stampDutyBuyIntradayPct_nonneg
  cases segment <;> cases side <;> simp only [costStack, if_true, if_false, reduceCtorEq] <;>
    positivity

theorem turnover_le_netAmount (priced : 0 ≤ price) :
    price * qty ≤ (costStack .buy price qty segment rates).netAmount := by
  have charges : 0 ≤ (costStack .buy price qty segment rates).total :=
    costStack_total_nonneg priced
  have net : (costStack .buy price qty segment rates).netAmount =
      price * qty + (costStack .buy price qty segment rates).total := by
    simp [costStack]
  rw [net]
  exact le_add_of_nonneg_right charges

theorem netAmount_le_turnover (priced : 0 ≤ price) :
    (costStack .sell price qty segment rates).netAmount ≤ price * qty := by
  have charges : 0 ≤ (costStack .sell price qty segment rates).total :=
    costStack_total_nonneg priced
  have net : (costStack .sell price qty segment rates).netAmount =
      price * qty - (costStack .sell price qty segment rates).total := by
    simp [costStack]
  rw [net]
  exact sub_le_self _ charges

/-- The charges of a sale are at most its turnover at all the rates. -/
theorem costStack_total_le :
    (costStack .sell price qty segment rates).total ≤ price * qty * sellRate segment rates := by
  have capped : min (price * qty * rates.brokeragePct) rates.brokerageMax ≤
      price * qty * rates.brokeragePct := min_le_left _ _
  have taxed : min (price * qty * rates.brokeragePct) rates.brokerageMax * rates.gstPct ≤
      price * qty * rates.brokeragePct * rates.gstPct :=
    mul_le_mul_of_nonneg_right capped rates.gstPct_nonneg
  cases segment <;> simp only [costStack, sellRate, if_true, if_false, reduceCtorEq] <;> linarith

/-- A sale whose rates are at most its whole turnover costs nothing on balance. -/
theorem netAmount_nonneg (priced : 0 ≤ price) (within : sellRate segment rates ≤ 1) :
    0 ≤ (costStack .sell price qty segment rates).netAmount := by
  have charges : (costStack .sell price qty segment rates).total ≤
      price * qty * sellRate segment rates := costStack_total_le
  have whole : price * qty * sellRate segment rates ≤ price * qty := by
    calc price * qty * sellRate segment rates ≤ price * qty * 1 :=
          mul_le_mul_of_nonneg_left within (turnover_nonneg priced)
      _ = price * qty := mul_one _
  have net : (costStack .sell price qty segment rates).netAmount =
      price * qty - (costStack .sell price qty segment rates).total := by
    simp [costStack]
  rw [net]
  linarith

end Bounds

end PersonalTrade
