import PersonalTrade.Analytics.Reports
import PersonalTrade.Data.CandleStore

/-!
# Valuation of the paper account

The equity of an account is computed twice. `get_funds` marks the positions of the broker at the
last quotes, here the ones that `ReplayQuoteSource` reads from the candle store; a report adds up
realized trades and marks the open positions itself. In every state that the paper broker reaches
the two differ by the initial cash alone (`equity_eq_total_pnl`).
-/

namespace PersonalTrade

open Transaction

/-- `ReplayQuoteSource`, with the exchange column of the instruments. -/
structure ReplayQuoteSource where
  candleStore : CandleStore
  interval : Interval
  exchange : Instrument → String

namespace ReplayQuoteSource

/-- `candle_store.read`, without bounds. -/
def frame (source : ReplayQuoteSource) (instrument : Instrument) : List CandleRow :=
  (source.candleStore ⟨instrument.symbol, source.exchange instrument, source.interval⟩).read none none

/-- `get_ltp`: the last close, if there is a candle. -/
def getLtp (source : ReplayQuoteSource) (instrument : Instrument) : Option ℚ :=
  (source.frame instrument).getLast?.map CandleRow.close

end ReplayQuoteSource

/-- The price at which `get_funds` marks a position. -/
def markOf (quote : Instrument → Option ℚ) (instrument : Instrument) (position : Position) : ℚ :=
  match quote instrument with
  | none => position.avgPrice
  | some ltp => if ltp = 0 then position.avgPrice else ltp

namespace DB

/-- The loop of `get_funds`, over any source of quotes. -/
def markPositions (db : DB) (quote : Instrument → Option ℚ) :
    List (ℕ × Position) → ℚ → Except PyError ℚ
  | [], equity => .ok equity
  | (instrumentId, position) :: rest, equity =>
      match db.instrument instrumentId with
      | none => .error (.assertionError "position references a deleted instrument")
      | some instrument =>
          db.markPositions quote rest (equity + position.qty * markOf quote instrument position)

/-- `get_funds`, over any source of quotes. -/
def fundsAt (db : DB) (quote : Instrument → Option ℚ) : Except PyError Funds := do
  let equity ← db.markPositions quote (db.listOpenPositions .paper) db.cash
  pure ⟨db.cash, equity⟩

variable {db : DB} {quote : Instrument → Option ℚ}

theorem markToMarket_eq (broker : PaperBroker) (positions : List (ℕ × Position)) (equity : ℚ) :
    broker.markToMarket db positions equity =
      db.markPositions broker.quotes.getLtp positions equity := by
  induction positions generalizing equity with
  | nil => rfl
  | cons entry positions ih =>
      rcases entry with ⟨instrumentId, position⟩
      simp only [PaperBroker.markToMarket, markPositions]
      cases db.instrument instrumentId with
      | none => rfl
      | some instrument => exact ih _

/-- A broker reports the funds at its own quotes. -/
theorem yields_getFunds_iff (broker : PaperBroker) {db' : DB} {world world' : Unit}
    {funds : Funds} : broker.getFunds.Yields db world funds db' world' ↔
      db.fundsAt broker.quotes.getLtp = .ok funds ∧ db' = db := by
  simp only [PaperBroker.getFunds, yields_bind, yields_read, yields_ofExcept, yields_pure,
    markToMarket_eq, fundsAt]
  constructor
  · rintro ⟨_, _, _, ⟨rfl, rfl, _⟩, equity, _, _, ⟨marked, rfl, _⟩, rfl, rfl, _⟩
    exact ⟨by rw [marked]; rfl, rfl⟩
  · rintro ⟨reported, rfl⟩
    rcases except_bind_eq_ok.mp reported with ⟨equity, marked, ⟨⟩⟩
    exact ⟨_, _, (), ⟨rfl, rfl, trivial⟩, equity, _, (), ⟨marked, rfl, trivial⟩, rfl, rfl,
      trivial⟩

/-- Known positions are marked to the end. -/
theorem markPositions_eq {positions : List (ℕ × Position)}
    (known : ∀ entry ∈ positions, ∃ instrument, db.instrument entry.1 = some instrument)
    (equity : ℚ) : db.markPositions quote positions equity = .ok (equity +
      (positions.map fun entry => match db.instrument entry.1 with
        | none => 0
        | some instrument => entry.2.qty * markOf quote instrument entry.2).sum) := by
  induction positions generalizing equity with
  | nil => simp [markPositions]
  | cons entry positions ih =>
      rcases List.forall_mem_cons.mp known with ⟨⟨instrument, found⟩, rest⟩
      rcases entry with ⟨instrumentId, position⟩
      simp only [markPositions, found, ih rest, List.map_cons, List.sum_cons, add_assoc]

end DB

/-! ## The value of the books -/

/-- The books with the value of their positions: cash plus the cost of the positions moves by the
realized profit alone, which is that of the trades. -/
structure PaperValue (initialCash : ℚ) (db : DB) : Prop extends PaperBooks initialCash db where
  value : db.cash + db.bookValue = initialCash + db.realizedTotal
  realized : db.realizedTotal =
    ((db.tradesWhere fun order => order.mode = .paper).map fun trade => trade.realizedPnl.getD 0).sum

namespace PaperValue

variable {initialCash : ℚ} {db db' : DB}

/-- What leaves trades, positions and account alone keeps the value. -/
theorem untraded (kept : PaperValue initialCash db) (keeps : db.KeepsTerms db')
    (trades : db'.trades = db.trades) (positions : db'.positions = db.positions)
    (account : db'.paperAccount = db.paperAccount)
    (instruments : db'.instruments = db.instruments) : PaperValue initialCash db' := by
  refine ⟨kept.toPaperBooks.untraded keeps trades positions account instruments, ?_, ?_⟩
  · rw [DB.cash, account, DB.bookValue, DB.realizedTotal, positions]
    exact kept.value
  · rw [DB.realizedTotal, DB.tradesWhere, trades, positions, (kept.reads keeps).2.1]
    exact kept.realized

/-- A fill of a paper order keeps the value. -/
theorem execute (kept : PaperValue initialCash db) {id : ℕ} {order : Order}
    {instrument : Instrument} {broker : PaperBroker} {qty : ℕ} {price : ℚ} {costs : TradeCosts}
    {time : ℤ} (fills : broker.Fills db id order instrument qty price costs)
    (positive : 0 < qty) (paper : order.mode = .paper) :
    PaperValue initialCash (db.execute id order qty price costs time fills.within) := by
  have realized :=
    Position.applyFill_realizedPnl (db.positionOf order) order.side qty costs.netAmount
  refine ⟨kept.toPaperBooks.execute fills positive paper, ?_, ?_⟩
  · have value := Position.applyFill_value (db.positionOf order) order.side positive costs.netAmount
    have before := kept.value
    rw [DB.bookValue, DB.realizedTotal] at before ⊢
    rw [DB.total_positions_execute (fun position => position.avgPrice * position.qty) (by simp),
      DB.total_positions_execute Position.realizedPnl rfl, DB.cash_execute]
    simp only [value, realized]
    cases side : order.side <;> simp only [side, reduceCtorEq, if_true, if_false] at * <;> linarith
  · have before := kept.realized
    have trades : (db.execute id order qty price costs time fills.within).tradesWhere
        (fun row => row.mode = .paper) = db.tradesWhere (fun row => row.mode = .paper) ++
          if decide (order.mode = .paper) then [db.filledTrade id order qty price costs time]
          else [] :=
      kept.tradesWhere_execute fills.found fun terms => terms.mode = .paper
    rw [DB.realizedTotal] at before ⊢
    rw [DB.total_positions_execute Position.realizedPnl rfl, before, trades, realized]
    simp only [paper, decide_true, if_true, List.map_append, List.sum_append, List.map_singleton,
      List.sum_singleton, add_sub_cancel_left]
    rfl

end PaperValue

namespace PaperBroker

variable {initialCash : ℚ} {db : DB}

/-- A total over the positions of an account without paper positions. -/
theorem total_of_accountOpened (opened : AccountOpened initialCash db) (weight : Position → ℚ) :
    (db.positions.total fun key position => if key.mode = .paper then weight position else 0) =
      0 := by
  apply List.sum_eq_zero
  intro value mem
  rcases List.mem_map.mp mem with ⟨⟨⟨instrumentId, mode⟩, position⟩, stored, rfl⟩
  by_cases paper : mode = .paper
  · subst paper
    have found := AList.mem_lookup_iff.mpr stored
    exact absurd (found.symm.trans (opened.positions instrumentId)) (by simp)
  · exact if_neg paper

theorem value_of_accountOpened (opened : AccountOpened initialCash db) :
    PaperValue initialCash db := by
  refine ⟨books_of_accountOpened opened, ?_, ?_⟩
  · rw [DB.bookValue, DB.realizedTotal, total_of_accountOpened opened, total_of_accountOpened opened]
    simp [DB.cash, opened.account]
  · have untraded : db.tradesWhere (fun order => order.mode = .paper) = [] := by
      rw [DB.tradesWhere, List.filter_eq_nil_iff]
      intro trade mem paper
      rcases (Option.any_eq_true _ _).mp paper with ⟨order, found, isPaper⟩
      exact opened.orders _ order found (of_decide_eq_true isPaper)
    rw [DB.realizedTotal, total_of_accountOpened opened, untraded]
    rfl

/-- The birth of an order keeps the value. -/
theorem value_openOrder (kept : PaperValue initialCash db) {uuid : String} {request : OrderRequest}
    {id : ℕ} {db' : DB} {world world' : Unit}
    (yields : (openOrder uuid request).Yields db world id db' world') :
    PaperValue initialCash db' := by
  rcases yields_openOrder yields with ⟨_, _, _, opening⟩
  have account : db'.paperAccount = db.paperAccount := by
    clear opening
    simp only [openOrder, yields_bind, yields_recordCreated, yields_transition,
      yields_pure] at yields
    rcases yields with ⟨_, _, _, ⟨_, _, rfl, rfl⟩, _, _, _, ⟨_, _, _, rfl⟩, _, _, _,
      ⟨_, _, _, rfl⟩, _, _, _, ⟨_, _, _, rfl⟩, rfl, rfl, _⟩
    rfl
  refine kept.untraded (fun other row found => ⟨row, ?_, rfl⟩) opening.trades opening.positions
    account (instruments_openOrder yields)
  rw [opening.orders, if_neg (RowTable.lt_nextId_of_get? found).ne, found]

/-- A call keeps the value, whether it is committed or rolled back. -/
theorem value_step (kept : PaperValue initialCash db) (made : PaperBroker × PaperCall) :
    PaperValue initialCash (step db made) := by
  rcases commit_store (made.1.call made.2) db () with same | ⟨_, _, yields⟩
  · have rolledBack : step db made = db := same
    rw [rolledBack]
    exact kept
  · refine call_invariant (motive := PaperValue initialCash)
      (fun _ _ _ _ _ _ _ opened => ?_) (fun _ _ _ _ held found _ => ?_)
      (fun _ _ _ _ _ _ _ _ held attempts fills => ?_) kept yields
    · exact value_openOrder kept opened
    · exact held.untraded (keepsTerms_of_moveOrder found _ _) rfl rfl rfl rfl
    · exact held.execute fills (decideFill_fill fills.decided).1 (attempts.paper fills.found)

/-- In every state that calls reach from a just opened account the value is kept. -/
theorem value_runSteps {start : DB} (opened : AccountOpened initialCash start)
    (calls : List (PaperBroker × PaperCall)) :
    PaperValue initialCash (runSteps step start calls) := by
  induction calls using List.reverseRecOn with
  | nil => exact value_of_accountOpened opened
  | append_singleton calls made ih =>
      rw [runSteps_concat]
      exact value_step ih made

end PaperBroker

namespace DB

variable {db : DB}

/-- The cost of the paper positions is that of the open ones. -/
theorem bookValue_eq (db : DB) : db.bookValue =
    ((db.listOpenPositions .paper).map fun entry =>
      entry.2.avgPrice * (entry.2.qty : ℚ)).sum := by
  rw [bookValue, AList.total, listOpenPositions, List.map_map]
  induction db.positions.entries with
  | nil => rfl
  | cons entry entries ih =>
      rw [List.map_cons, List.sum_cons, ih, List.filter_cons]
      by_cases paper : entry.1.mode = .paper
      · by_cases flat : entry.2.qty = 0
        · simp [paper, flat]
        · simp [paper, flat]
      · simp [paper]

/-- What the open positions are worth beyond their cost, as `get_funds` marks them. -/
theorem marks_eq (source : ReplayQuoteSource)
    (priced : ∀ instrument, source.getLtp instrument ≠ some 0)
    (known : ∀ entry ∈ db.listOpenPositions .paper, ∃ instrument,
      db.instrument entry.1 = some instrument) :
    ((db.listOpenPositions .paper).map fun entry => match db.instrument entry.1 with
      | none => 0
      | some instrument => entry.2.qty * markOf source.getLtp instrument entry.2).sum =
      db.bookValue + db.unrealizedPnl source.getLtp .paper := by
  rw [bookValue_eq, unrealizedPnl, ← List.sum_map_add]
  congr 1
  apply List.map_congr_left
  intro entry mem
  rcases known entry mem with ⟨instrument, found⟩
  simp only [found, Option.bind_some, markOf]
  cases quoted : source.getLtp instrument with
  | none => ring
  | some close =>
      have nonzero : close ≠ 0 := fun zero => priced instrument (zero ▸ quoted)
      simp only [if_neg nonzero]
      ring

end DB

/-- The open positions of kept books belong to instruments of the table. -/
theorem PaperBooks.known_open {initialCash : ℚ} {db : DB} (books : PaperBooks initialCash db) :
    ∀ entry ∈ db.listOpenPositions .paper, ∃ instrument,
      db.instrument entry.1 = some instrument := by
  intro entry mem
  have nonflat := DB.mem_listOpenPositions.mp (List.mem_map_of_mem (f := Prod.fst) mem)
  apply books.known
  intro untraded
  have booked := books.booked entry.1
  rw [untraded] at booked
  rw [← DB.getOrCreatePosition_qty, booked.qty] at nonflat
  simp at nonflat

namespace DB

variable {db : DB}

theorem sum_filterMap_realizedPnl (trades : List Trade) :
    (trades.filterMap Trade.realizedPnl).sum =
      (trades.map fun trade => trade.realizedPnl.getD 0).sum := by
  induction trades with
  | nil => rfl
  | cons trade trades ih =>
      rw [List.filterMap_cons, List.map_cons, List.sum_cons, ← ih]
      cases trade.realizedPnl with
      | none => simp
      | some pnl => simp

/-- A report that reaches back to the first trade realizes what the trades have realized. -/
theorem realized_of_early {since : ℤ} (early : ∀ trade ∈ db.trades, since ≤ trade.executedAt) :
    ((db.listRealizedSince .paper since).filterMap Trade.realizedPnl).sum =
      ((db.tradesWhere fun order => order.mode = .paper).map fun trade =>
        trade.realizedPnl.getD 0).sum := by
  rw [← sum_filterMap_realizedPnl, listRealizedSince, tradesWhere, List.filterMap_filter,
    List.filterMap_filter]
  congr 1
  apply List.filterMap_congr
  intro trade mem
  cases realized : trade.realizedPnl with
  | none => simp
  | some pnl => simp [early trade mem]

end DB

/-- In every state that calls of the paper broker reach from a just opened account, whatever
quotes each call has seen, and over exact rationals: the equity that `get_funds` reports at the
closes of the candle store, none of which is zero, is the initial cash plus the total profit of a
report that reaches back to the first trade, on whatever capital it is made. -/
theorem equity_eq_total_pnl {σ : Type} {initialCash : ℚ} {start : DB}
    (opened : PaperBroker.AccountOpened initialCash start)
    (calls : List (PaperBroker × PaperCall)) (source : ReplayQuoteSource)
    (priced : ∀ instrument, source.getLtp instrument ≠ some 0) (sources : DB.ReportSources)
    (marks : sources.mark = source.getLtp) (statistics : List (ℤ × ℚ) → σ) (capital : ℚ)
    {since : ℤ} (early : ∀ trade ∈ (runSteps PaperBroker.step start calls).trades,
      since ≤ trade.executedAt) :
    let db := runSteps PaperBroker.step start calls
    ∃ funds report, db.fundsAt source.getLtp = .ok funds ∧
      db.generateReport sources statistics .paper capital since = some report ∧
      funds.cash = db.cash ∧ funds.equity = initialCash + report.summary.totalPnl := by
  intro db
  have kept : PaperValue initialCash db := PaperBroker.value_runSteps opened calls
  rcases exists_report kept.toPaperBooks sources statistics capital since with
    ⟨report, made, summary⟩
  have marked := @DB.markPositions_eq db source.getLtp _ kept.known_open db.cash
  rw [DB.marks_eq source priced kept.known_open] at marked
  refine ⟨⟨db.cash, db.cash + (db.bookValue + db.unrealizedPnl source.getLtp .paper)⟩, report, ?_,
    made, rfl, ?_⟩
  · rw [DB.fundsAt, marked]
    rfl
  · have total : report.summary.totalPnl =
        db.realizedTotal + db.unrealizedPnl source.getLtp .paper := by
      rw [summary, kept.realized, ← DB.realized_of_early early, ← marks]
      rfl
    rw [total, ← add_assoc, kept.value, add_assoc]

/-- A candle store that has one candle for every instrument, which closes at 120. -/
def sampleQuotes : ReplayQuoteSource where
  candleStore _ := Dataset.missing.write [⟨0, 120, 120, 120, 120, 1, 0⟩]
  interval := .d1
  exchange _ := "NSE"

theorem equity_eq_total_pnl_sample :
    let db := runSteps PaperBroker.step PaperBroker.sampleAccount sampleTrips
    ∃ funds report, db.fundsAt sampleQuotes.getLtp = .ok funds ∧
      db.generateReport { sampleSources with mark := sampleQuotes.getLtp } id .paper 1000 0 =
        some report ∧
      funds.cash = db.cash ∧ funds.equity = 550 + report.summary.totalPnl := by
  have close : (Dataset.missing.write [⟨0, 120, 120, 120, 120, 1, 0⟩]).read none none =
      [⟨0, 120, 120, 120, 120, 1, 0⟩] := by decide +kernel
  apply equity_eq_total_pnl PaperBroker.sampleAccount_opened sampleTrips sampleQuotes
  · intro instrument
    rw [ReplayQuoteSource.getLtp, ReplayQuoteSource.frame, sampleQuotes, close]
    simp
  · rfl
  · decide +kernel

end PersonalTrade
