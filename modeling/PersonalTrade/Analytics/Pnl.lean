import PersonalTrade.Store.Repos

/-!
# Realized profit and the equity curve

`analytics/pnl.py`: the equity curve rebuilt from the trades. A trade reads its side and
its instrument from the order it belongs to.
-/

namespace PersonalTrade

namespace DB

variable (db : DB)

/-- The trade belongs to a sale. -/
def isSale (trade : Trade) : Bool :=
  (db.orders.get? trade.orderId).any fun order => order.side = .sell

/-- What a trade adds to the cash. -/
def cashFlow (trade : Trade) : ℚ := if db.isSale trade then trade.netAmount else -trade.netAmount

/-- What a trade adds to the position of its instrument. -/
def signedQty (trade : Trade) : ℤ := if db.isSale trade then -trade.qty else trade.qty

/-- The trades of an instrument. -/
def tradesOn (instrumentId : ℕ) : List Trade :=
  db.trades.filter fun trade =>
    (db.orders.get? trade.orderId).any fun order => order.instrumentId = instrumentId

/-- The steps of the curve after its first point. -/
def curveFrom : ℚ → List Trade → List (ℤ × ℚ)
  | _, [] => []
  | cash, trade :: rest =>
      (trade.executedAt, cash + db.cashFlow trade) ::
        curveFrom (cash + db.cashFlow trade) rest

/-- `equity_curve_from_trades`; the sort is stable. -/
def equityCurveFromTrades (initialCash : ℚ) (trades : List Trade) : List (ℤ × ℚ) :=
  match trades.mergeSort fun first second => decide (first.executedAt ≤ second.executedAt) with
  | [] => []
  | first :: rest => (first.executedAt, initialCash) :: db.curveFrom initialCash (first :: rest)

variable {db}

theorem getLast?_curveFrom (cash : ℚ) (trades : List Trade) (nonempty : trades ≠ []) :
    (db.curveFrom cash trades).getLast?.map Prod.snd =
      some (cash + (trades.map db.cashFlow).sum) := by
  induction trades generalizing cash with
  | nil => exact absurd rfl nonempty
  | cons trade rest ih =>
      cases rest with
      | nil => simp [curveFrom]
      | cons next rest =>
          have onward := ih (cash + db.cashFlow trade) (by simp)
          rw [curveFrom, List.getLast?_cons_of_ne_nil (by simp [curveFrom]), onward]
          simp only [List.map_cons, List.sum_cons]
          ring_nf

/-- The last point of the curve holds the cash flows of all trades, in whatever order they
were executed. -/
theorem getLast?_equityCurve (initialCash : ℚ) {trades : List Trade} (nonempty : trades ≠ []) :
    (db.equityCurveFromTrades initialCash trades).getLast?.map Prod.snd =
      some (initialCash + (trades.map db.cashFlow).sum) := by
  have sorted := List.mergeSort_perm trades
    fun first second => decide (first.executedAt ≤ second.executedAt)
  have flows := (sorted.map db.cashFlow).sum_eq
  rw [equityCurveFromTrades]
  split
  · rename_i empty
    rw [empty] at sorted
    exact absurd sorted.symm.eq_nil nonempty
  · rename_i first rest ordered
    rw [List.getLast?_cons_of_ne_nil (by simp [curveFrom]), getLast?_curveFrom _ _ (by simp),
      ← flows, ordered]

end DB

end PersonalTrade
