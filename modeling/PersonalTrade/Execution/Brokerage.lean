import PersonalTrade.Execution.PaperTrades
import PersonalTrade.Execution.Reports

/-!
# The brokerage of an order

Every fill is charged on its own, paper and live: a percentage of what the trade is worth,
up to `brokerage_max`. An order that fills in parts is charged for each of them.
-/

namespace PersonalTrade

open Transaction

/-- The brokerage of all trades of an order. -/
def DB.brokerageOf (db : DB) (orderId : ℕ) : ℚ :=
  ((db.tradesOf orderId).map Trade.brokerage).sum

/-- What books fills: a call of a paper broker, or a report that is applied. -/
inductive FillSource where
  | paperCall (broker : PaperBroker) (made : PaperCall)
  | liveReport (broker : UpstoxBroker Unit) (id : ℕ) (report : OrderReport) (time : ℤ)

namespace FillSource

/-- The rate card in use. -/
def costRates : FillSource → CostConfig
  | .paperCall broker _ => broker.costRates
  | .liveReport broker _ _ _ => broker.costRates

/-- The store after a unit of work. -/
def book (db : DB) : FillSource → DB
  | .paperCall broker made => PaperBroker.step db (broker, made)
  | .liveReport broker id report time => ((broker.applyOrderUpdate id report time).commit db ()).2.1

end FillSource

variable {rates : CostConfig} {db db' : DB} {id : ℕ}

/-- A trade of this value does not take its order beyond the cap: it is the first trade of the
order, or the percentage on all of them is within the cap, or there is nothing to charge. -/
def FitsCap (rates : CostConfig) (db : DB) (id : ℕ) (value : ℚ) : Prop :=
  db.tradesOf id = [] ∨ rates.brokerageMax = 0 ∨
    (db.tradedValue id + value) * rates.brokeragePct ≤ rates.brokerageMax

/-- Every trade is charged by the rate card. -/
def Charged (rates : CostConfig) (db : DB) : Prop :=
  ∀ trade ∈ db.trades, 0 < trade.turnover ∧
    trade.brokerage = min (trade.turnover * rates.brokeragePct) rates.brokerageMax

/-- The brokerage of an order is within the cap exactly when it has at most one trade, or
there is nothing to charge, or the percentage on all its trades is within the cap. -/
theorem brokerageOf_le_iff (charged : Charged rates db) (id : ℕ) :
    db.brokerageOf id ≤ rates.brokerageMax ↔
      (db.tradesOf id).length ≤ 1 ∨ rates.brokerageMax = 0 ∨
        db.tradedValue id * rates.brokeragePct ≤ rates.brokerageMax := by
  have own : ∀ trade ∈ db.tradesOf id, trade ∈ db.trades := fun trade mem =>
    (List.mem_filter.mp mem).1
  have sum : db.brokerageOf id = cappedSum rates.brokeragePct rates.brokerageMax
      ((db.tradesOf id).map Trade.turnover) := by
    rw [DB.brokerageOf, cappedSum, List.map_map]
    exact congrArg List.sum (List.map_congr_left fun trade mem => (charged trade (own _ mem)).2)
  rw [sum, cappedSum_le_iff rates.brokeragePct_nonneg rates.brokerageMax_nonneg, List.length_map,
    DB.tradedValue]
  intro value mem
  rcases List.mem_map.mp mem with ⟨trade, tradeMem, rfl⟩
  exact (charged trade (own _ tradeMem)).1

/-- All trades are charged, and every order is within the cap. -/
structure Capped (rates : CostConfig) (db : DB) : Prop where
  charged : Charged rates db
  within : ∀ id, db.brokerageOf id ≤ rates.brokerageMax

theorem capped_of_same (capped : Capped rates db) (trades : db'.trades = db.trades) :
    Capped rates db' := by
  refine ⟨fun trade mem => capped.charged trade (trades ▸ mem), fun id => ?_⟩
  rw [DB.brokerageOf, DB.tradesOf, trades]
  exact capped.within id

/-- One more trade keeps its order within the cap exactly when it fits. -/
theorem capped_append_iff {trade : Trade} (capped : Capped rates db)
    (trades : db'.trades = db.trades ++ [trade]) (positive : 0 < trade.turnover)
    (charge : trade.brokerage = min (trade.turnover * rates.brokeragePct) rates.brokerageMax) :
    Capped rates db' ↔ FitsCap rates db trade.orderId trade.turnover := by
  have charged : Charged rates db' := by
    intro other mem
    rw [trades, List.mem_append, List.mem_singleton] at mem
    rcases mem with old | rfl
    · exact capped.charged other old
    · exact ⟨positive, charge⟩
  have own : db'.tradesOf trade.orderId = db.tradesOf trade.orderId ++ [trade] := by
    simp [DB.tradesOf, trades, List.filter_append]
  have others : ∀ id, id ≠ trade.orderId → db'.tradesOf id = db.tradesOf id := by
    intro id ne
    simp [DB.tradesOf, trades, List.filter_append, ne.symm]
  have value : db'.tradedValue trade.orderId = db.tradedValue trade.orderId + trade.turnover := by
    simp [DB.tradedValue, own]
  have fits : db'.brokerageOf trade.orderId ≤ rates.brokerageMax ↔
      FitsCap rates db trade.orderId trade.turnover := by
    rw [brokerageOf_le_iff charged, own, value, FitsCap]
    simp [List.length_append]
  constructor
  · exact fun after => fits.mp (after.within _)
  · intro fit
    refine ⟨charged, fun id => ?_⟩
    by_cases same : id = trade.orderId
    · rw [same]
      exact fits.mpr fit
    · rw [DB.brokerageOf, others id same]
      exact capped.within id

/-- The rate card is in use, and every fill of an order that has traded before fits its cap. -/
def StaysCapped (rates : CostConfig) (db : DB) (source : FillSource) : Prop :=
  source.costRates = rates ∧
    match source with
    | .paperCall broker made => ∀ before id order instrument qty price,
        broker.Attempts db id before made → before.orders.get? id = some order →
        before.instrument order.instrumentId = some instrument →
        broker.decideFill order instrument before.cash = .ok (.fill qty price) →
        FitsCap rates before id (price * qty)
    | .liveReport _ id report _ => ∀ order price, db.orders.get? id = some order →
        report.fillPrice = some price → 0 < report.newlyFilled order →
        FitsCap rates db id (price * report.newlyFilled order)

theorem capped_call {broker : PaperBroker} {made : PaperCall} {world world' : Unit}
    (capped : Capped rates db) (stays : StaysCapped rates db (.paperCall broker made))
    (yields : (broker.call made).Yields db world () db' world') : Capped rates db' := by
  rcases stays with ⟨card, fits⟩
  refine PaperBroker.call_trades (motive := Capped rates)
    (fun _ _ held keeps => capped_of_same held keeps.trades) ?_ capped yields
  intro before id order instrument qty price costs time held attempts fills
  rcases calculateCosts_eq_ok.mp fills.charged with ⟨positive, some, costsEq⟩
  have turnover : (before.filledTrade id order qty price costs time).turnover = price * qty := rfl
  refine (capped_append_iff held DB.trades_execute ?_ ?_).mpr ?_
  · rw [turnover]
    exact mul_pos positive (Nat.cast_pos.mpr some)
  · rw [turnover, ← card]
    change costs.brokerage = _
    rw [costsEq]
    rfl
  · rw [turnover]
    exact fits before id order instrument qty price attempts fills.found fills.known fills.decided

theorem capped_applyOrderUpdate {broker : UpstoxBroker Unit} {report : OrderReport} {time : ℤ}
    {update : Option OrderUpdate} {world world' : Unit} (capped : Capped rates db)
    (stays : StaysCapped rates db (.liveReport broker id report time))
    (yields : (broker.applyOrderUpdate id report time).Yields db world update db' world') :
    Capped rates db' := by
  rcases stays with ⟨card, fits⟩
  rcases UpstoxBroker.exists_of_applyOrderUpdate yields with ⟨order, found⟩
  rcases UpstoxBroker.trades_applyOrderUpdate found yields with ⟨trades, _⟩ |
    ⟨trade, trades, own, priced, shares, positive, some, charge⟩
  · exact capped_of_same capped trades
  · refine (capped_append_iff capped trades (mul_pos positive (Nat.cast_pos.mpr some)) ?_).mpr ?_
    · rw [charge, ← card]
      rfl
    · have fit := fits order trade.price found priced (by omega)
      rw [shares] at fit
      rw [own]
      exact fit

theorem capped_book {source : FillSource} (capped : Capped rates db)
    (stays : StaysCapped rates db source) : Capped rates (source.book db) := by
  cases source with
  | paperCall broker made =>
      rcases commit_store (broker.call made) db () with same | ⟨_, _, yields⟩
      · have rolledBack : FillSource.book db (.paperCall broker made) = db := same
        rw [rolledBack]
        exact capped
      · exact capped_call capped stays yields
  | liveReport broker id report time =>
      rcases commit_store (broker.applyOrderUpdate id report time) db () with
        same | ⟨_, _, yields⟩
      · have rolledBack : FillSource.book db (.liveReport broker id report time) = db := same
        rw [rolledBack]
        exact capped
      · exact capped_applyOrderUpdate capped stays yields

/-- In a run that stays capped, the brokerage of every order is within the cap. -/
theorem brokerageOf_le_of_reaches {start : DB} (untraded : start.trades = [])
    (reached : Reaches FillSource.book (StaysCapped rates) start db) (id : ℕ) :
    db.brokerageOf id ≤ rates.brokerageMax := by
  have initial : Capped rates start := by
    refine ⟨fun trade mem => ?_, fun id => ?_⟩
    · rw [untraded] at mem
      cases mem
    · rw [DB.brokerageOf, DB.tradesOf, untraded]
      exact rates.brokerageMax_nonneg
  exact (reached.invariant (motive := Capped rates) initial
    fun _ _ held stays => capped_book held stays).within id

/-- A report of this quantity of ten shares, filled at this price each. -/
def ofTenShares (filledQty : ℤ) (averagePrice : ℚ) : OrderReport :=
  ⟨some 10, some filledQty, some "open", some averagePrice⟩

/-- The two halves of a small order are reported one after the other. -/
theorem brokerageOf_le_of_reaches_sample :
    let halves := [.liveReport silentBroker 0 (ofTenShares 5 1000) 0,
      .liveReport silentBroker 0 (ofTenShares 10 1000) 1]
    let traded := runSteps FillSource.book oneSubmitted halves
    (traded.tradesOf 0).length = 2 ∧ traded.brokerageOf 0 ≤ 20 := by
  have second : ∀ order ∈ (FillSource.book oneSubmitted
        (.liveReport silentBroker 0 (ofTenShares 5 1000) 0)).orders.get? 0,
      ((FillSource.book oneSubmitted
          (.liveReport silentBroker 0 (ofTenShares 5 1000) 0)).tradedValue 0 +
        1000 * (ofTenShares 10 1000).newlyFilled order) * silentBroker.costRates.brokeragePct ≤
          silentBroker.costRates.brokerageMax := by
    decide +kernel
  have stays : Meets FillSource.book (StaysCapped silentBroker.costRates) oneSubmitted
      [.liveReport silentBroker 0 (ofTenShares 5 1000) 0,
        .liveReport silentBroker 0 (ofTenShares 10 1000) 1] := by
    refine ⟨⟨rfl, fun _ _ _ _ _ => .inl rfl⟩, ⟨rfl, ?_⟩, trivial⟩
    intro order price found priced _
    have paid : price = 1000 := Option.some.inj (priced.symm.trans rfl)
    rw [paid]
    exact .inr (.inr (second order found))
  exact ⟨by decide +kernel, brokerageOf_le_of_reaches rfl (.of_meets _ stays) 0⟩

/-- Half of an order reported after the other: both trades are charged up to the cap of 20. -/
theorem twoHalves_overcharged :
    (runSteps FillSource.book oneSubmitted
      [.liveReport silentBroker 0 (ofTenShares 5 100000) 0,
        .liveReport silentBroker 0 (ofTenShares 10 100000) 1]).brokerageOf 0 = 40 ∧
      silentBroker.costRates.brokerageMax = 20 := by
  decide +kernel

end PersonalTrade
