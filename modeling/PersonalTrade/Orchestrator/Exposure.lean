import PersonalTrade.Library.Run
import PersonalTrade.Orchestrator.Steps

/-!
# Exposure of a running session

What a session does to positions over whole runs, from the effect of its steps and
the moves of the exposure: how many instruments are open, whether fills cross zero,
whether a tripped kill switch stops growth, and whether an instrument has one
working order.

The risk engine decides on stored positions alone, and orders trade later. Each
property therefore holds in the runs in which no signal is acted on while an
earlier order of the kind that it overlooks is still working; a run without that
condition breaks each of them.
-/

namespace PersonalTrade

namespace Orchestrator

variable {ω : Type}

/-- The signal that a candle's strategy gives for the instrument of its runner. -/
def Signals (orchestrator : Orchestrator ω) (state : SessionState ω) (candle : Candle)
    (decision : Decision) (runner : Instrument) (signal : Signal) : Prop :=
  orchestrator.runners candle.instrumentKey = some runner ∧
    decision (orchestrator.positionView state.db runner) = .ok (some signal)

/-! ## A sample session -/

/-- Two instruments. -/
def sampleInstruments : List Instrument :=
  [⟨1, "INFY", "NSE_EQ|INFY", 1 / 20⟩, ⟨2, "TCS", "NSE_EQ|TCS", 1 / 20⟩]

/-- A server with a margin of 1000 that takes every order under its tag; the world lists
the tags that have been filled, each with ten shares at 100. -/
def sampleUpstox : Transport (List String)
  | .getFunds, filled => (.ok (.funds (some 1000)), filled)
  | .getPositions, filled => (.ok (.positions []), filled)
  | .placeOrder body, filled => (.ok (.orderPlaced body.tag), filled)
  | .getOrderDetails orderId, filled =>
      if filled.contains orderId then
        (.ok (.orderDetails ⟨some 10, some 10, some "complete", some 100⟩), filled)
      else (.ok (.orderDetails ⟨some 10, some 0, some "open", some 0⟩), filled)
  | .cancelOrder _, filled => (.status 400 "not cancellable", filled)

/-- A sizer that spends all of the equity. -/
def sampleSizer : FixedFractionalSizer where
  riskPerTradePct := 100
  riskPerTradePct_pos := by norm_num
  riskPerTradePct_le := le_rfl

/-- A session that allows one open position. -/
def sampleSession (mode : Mode) : Orchestrator (List String) where
  mode := mode
  riskCfg := { (default : RiskConfig) with
    maxOpenPositions := 1
    one_le_maxOpenPositions := le_rfl }
  sizer := sampleSizer.size
  costRates := default
  paperCfg := default
  initialCash := 1000
  liveOrdersEnabled := true
  upstoxClient := some sampleUpstox
  upstoxAccessToken := some "token"
  upstoxCfg := some {}
  strategyRunId := some 1
  runners instrumentKey := sampleInstruments.find? fun instrument =>
    instrument.instrumentKey = instrumentKey

/-- A session before its first candle. -/
def sampleStart : SessionState (List String) where
  db := { instruments := sampleInstruments }
  quotes _ := none
  world := []

/-- A candle whose strategy gives a signal at its close. -/
def signalCandle (instrumentKey : String) (close : ℚ) (direction : SignalDirection)
    (clientOrderId : String) : SessionEvent (List String) :=
  .candle ⟨instrumentKey, close⟩ (fun _ => .ok (some ⟨direction, close, []⟩))
    ⟨0, clientOrderId, clientOrderId, 0⟩

/-- A candle without a signal. -/
def quietCandle (instrumentKey : String) (close : ℚ) : SessionEvent (List String) :=
  .candle ⟨instrumentKey, close⟩ (fun _ => .ok none) ⟨0, "", "", 0⟩

/-- The state of a sample session after some events. -/
def sampleRun (mode : Mode) (events : List (SessionEvent (List String))) :
    SessionState (List String) :=
  runSteps (sampleSession mode).step sampleStart events

/-- The sample strategies signal for the instrument of their candle. -/
theorem sample_signals {mode : Mode} {state : SessionState (List String)} {close : ℚ}
    {signal signal' : Signal} {runner : Instrument}
    (signals : (sampleSession mode).Signals state ⟨"NSE_EQ|INFY", close⟩
      (fun _ => .ok (some signal)) runner signal') : runner.id = 1 ∧ signal' = signal := by
  rcases signals with ⟨runs, decided⟩
  have known : (sampleSession mode).runners "NSE_EQ|INFY" =
      some ⟨1, "INFY", "NSE_EQ|INFY", 1 / 20⟩ := by
    simp only [sampleSession]
    decide +kernel
  rw [known, Option.some.injEq] at runs
  simp only [Except.ok.injEq, Option.some.injEq] at decided
  exact ⟨runs ▸ rfl, decided.symm⟩

/-! ## Open positions -/

/-- An entry signal for an instrument with neither a position nor an open order comes
only while fewer instruments than the limit have a position or an open order. -/
def EntryCounted (orchestrator : Orchestrator ω) (state : SessionState ω) :
    SessionEvent ω → Prop
  | .candle candle decision _ => ∀ runner signal,
      orchestrator.Signals state candle decision runner signal → signal.direction ≠ .exit →
        runner.id ∉ state.db.occupied orchestrator.mode →
          (state.db.occupied orchestrator.mode).card < orchestrator.riskCfg.maxOpenPositions
  | _ => True

theorem card_occupied_step {orchestrator : Orchestrator ω} (session : orchestrator.mode ≠ .backtest)
    {state : SessionState ω} {event : SessionEvent ω}
    (bounded : (state.db.occupied orchestrator.mode).card ≤ orchestrator.riskCfg.maxOpenPositions)
    (counted : orchestrator.EntryCounted state event) :
    ((orchestrator.step state event).db.occupied orchestrator.mode).card ≤
      orchestrator.riskCfg.maxOpenPositions := by
  have effect := step_effect session state event
  generalize (orchestrator.step state event).db = db' at effect ⊢
  cases effect with
  | quiet same =>
      have unmoved : db'.occupied orchestrator.mode = state.db.occupied orchestrator.mode := by
        rw [← Finset.coe_inj, DB.coe_occupied, DB.coe_occupied, same.exposure]
      rwa [unmoved]
  | traded trading =>
      have shrinks : db'.occupied orchestrator.mode ⊆ state.db.occupied orchestrator.mode := by
        rw [← Finset.coe_subset, DB.coe_occupied, DB.coe_occupied]
        exact Exposure.occupied_progresses trading.progresses
      exact (Finset.card_le_card shrinks).trans bounded
  | placed runner call order runs instrument decided placed =>
      have grows : db'.occupied orchestrator.mode ⊆
          insert order.instrumentId (state.db.occupied orchestrator.mode) := by
        rw [← Finset.coe_subset, Finset.coe_insert, DB.coe_occupied, DB.coe_occupied]
        exact (Exposure.occupied_progresses placed.progresses).trans (Exposure.occupied_submit _ _ _)
      by_cases known : order.instrumentId ∈ state.db.occupied orchestrator.mode
      · rw [Finset.insert_eq_of_mem known] at grows
        exact (Finset.card_le_card grows).trans bounded
      · have isRunner : order.instrumentId = runner.id := by
          rw [placed.approves.instrumentId, instrument]
        rw [isRunner] at known grows
        have entry : call.signal.direction ≠ .exit := by
          intro isExit
          rcases placed.approves.purpose with exit | entry
          · refine known (Finset.mem_union_left _ (DB.mem_openInstruments.mpr ?_))
            rw [← isRunner]
            exact exit.nonflat
          · exact entry.direction isExit
        have below := counted runner call.signal ⟨runs, decided⟩ entry known
        calc (db'.occupied orchestrator.mode).card
            ≤ (insert runner.id (state.db.occupied orchestrator.mode)).card :=
              Finset.card_le_card grows
          _ ≤ (state.db.occupied orchestrator.mode).card + 1 := Finset.card_insert_le _ _
          _ ≤ orchestrator.riskCfg.maxOpenPositions := below

/-- The number of open positions stays within the limit in every run whose entry
signals are counted against positions and open orders together. -/
theorem countOpen_le_maxOpenPositions (orchestrator : Orchestrator ω)
    (session : orchestrator.mode ≠ .backtest) {start state : SessionState ω}
    (noPositions : start.db.listOpenPositions orchestrator.mode = [])
    (noOrders : start.db.listOpenOrders orchestrator.mode = [])
    (reached : Reaches orchestrator.step orchestrator.EntryCounted start state) :
    state.db.countOpen orchestrator.mode ≤ orchestrator.riskCfg.maxOpenPositions := by
  have initial : (start.db.occupied orchestrator.mode).card ≤
      orchestrator.riskCfg.maxOpenPositions := by
    have flat : start.db.openInstruments orchestrator.mode = ∅ := by
      rw [← Finset.card_eq_zero, ← DB.countOpen_eq_card, DB.countOpen, noPositions]
      rfl
    simp [DB.occupied, flat, noOrders]
  have bounded : (state.db.occupied orchestrator.mode).card ≤
      orchestrator.riskCfg.maxOpenPositions :=
    reached.invariant (motive := fun later => (later.db.occupied orchestrator.mode).card ≤
      orchestrator.riskCfg.maxOpenPositions) initial
      fun _ _ held counted => card_occupied_step session held counted
  rw [DB.countOpen_eq_card]
  exact (Finset.card_le_card Finset.subset_union_left).trans bounded

/-- With one position allowed, two entries before a poll open two in LIVE mode, and the
rest of an abandoned entry opens a second one in PAPER mode. -/
theorem countOpen_exceeds_maxOpenPositions :
    (sampleStart.db.listOpenPositions .live = [] ∧ sampleStart.db.listOpenOrders .live = [] ∧
      ¬ ∀ state, Reaches (sampleSession .live).step (fun _ _ => True) sampleStart state →
        state.db.countOpen .live ≤ (sampleSession .live).riskCfg.maxOpenPositions) ∧
    (sampleStart.db.listOpenPositions .paper = [] ∧ sampleStart.db.listOpenOrders .paper = [] ∧
      ¬ ∀ state, Reaches (sampleSession .paper).step (fun _ _ => True) sampleStart state →
        state.db.countOpen .paper ≤ (sampleSession .paper).riskCfg.maxOpenPositions) := by
  refine ⟨⟨by decide, by decide, fun claim => ?_⟩, by decide, by decide, fun claim => ?_⟩
  · have bounded := claim _ (Reaches.of_labels _ _
      [signalCandle "NSE_EQ|INFY" 100 .long "a", signalCandle "NSE_EQ|TCS" 100 .long "b",
        .outside fun _ => ["a", "b"], .housekeeping fun _ => 0])
    revert bounded
    decide +kernel
  · have bounded := claim _ (Reaches.of_labels _ _
      [signalCandle "NSE_EQ|INFY" 1 .long "a", signalCandle "NSE_EQ|INFY" 1 .exit "b",
        signalCandle "NSE_EQ|TCS" 400 .long "c", .housekeeping fun _ => 0])
    revert bounded
    decide +kernel

theorem countOpen_le_maxOpenPositions_sample :
    (sampleRun .live [signalCandle "NSE_EQ|INFY" 100 .long "a", .outside fun _ => ["a"],
      .housekeeping fun _ => 0]).db.countOpen .live ≤ 1 :=
  countOpen_le_maxOpenPositions (sampleSession .live) (by decide) (by decide) (by decide)
    (Reaches.of_meets _ ⟨fun _ _ _ _ _ => by decide +kernel, trivial, trivial, trivial⟩)

/-! ## Fills against a position -/

/-- A fill that the paper broker applies during a step: the store at that moment, the
order and the quantity. Fills of a step that is rolled back later count as well. -/
inductive AppliesFill (orchestrator : Orchestrator ω) (state : SessionState ω) :
    SessionEvent ω → DB → Order → ℕ → Prop where
  | resting {clock : ℕ → ℤ} {middle : DB} {id : ℕ} {order : Order} {instrument : Instrument}
      {qty : ℕ} {price : ℚ}
      (retries : (orchestrator.paperBroker state.quotes).Retries clock
        (state.db.openAccount orchestrator.initialCash) id middle)
      (found : middle.orders.get? id = some order)
      (known : middle.instrument order.instrumentId = some instrument)
      (decided : (orchestrator.paperBroker state.quotes).decideFill order instrument middle.cash =
        .ok (.fill qty price)) :
      AppliesFill orchestrator state (.housekeeping clock) middle order qty
  | placed {candle : Candle} {decision : Decision} {draw : Draw} {runner : Instrument}
      {broker : Broker ω} {call : EvaluateCall} {before evaluated middle : DB} {worldBefore : ω}
      {approved : ApprovedOrder} {id : ℕ} {order : Order} {instrument : Instrument} {qty : ℕ}
      {price : ℚ} (runs : orchestrator.runners candle.instrumentKey = some runner)
      (calls : orchestrator.Calls (state.quotes.update candle.instrumentKey candle.close) runner
        decision draw state.db state.world broker call before worldBefore)
      (approves : orchestrator.evaluate call before = (.ok approved, evaluated))
      (opened : (PaperBroker.openOrder draw.brokerUuid approved.request).Yields
        (evaluated.setSignalStatus call.signalId .approved) () id middle ())
      (found : middle.orders.get? id = some order)
      (known : middle.instrument order.instrumentId = some instrument)
      (decided : (orchestrator.paperBroker
        (state.quotes.update candle.instrumentKey candle.close)).decideFill order instrument
          middle.cash = .ok (.fill qty price)) :
      AppliesFill orchestrator state (.candle candle decision draw) middle order qty

/-- Nothing rests where it could later trade against what a signal opens or trade a
second time what it closes. -/
def Unopposed (db : DB) (instrumentId : ℕ) : SignalDirection → Prop
  | .long => db.positionQty instrumentId .paper = 0 → db.resting .paper instrumentId .sell = 0
  | .short => db.positionQty instrumentId .paper = 0 → db.resting .paper instrumentId .buy = 0
  | .exit =>
      (0 < db.positionQty instrumentId .paper → db.resting .paper instrumentId .sell = 0) ∧
        (db.positionQty instrumentId .paper < 0 → db.resting .paper instrumentId .buy = 0)

/-- Signals are acted on only while they are unopposed. -/
def SignalsUnopposed (orchestrator : Orchestrator ω) (state : SessionState ω) :
    SessionEvent ω → Prop
  | .candle candle decision _ => ∀ runner signal,
      orchestrator.Signals state candle decision runner signal →
        Unopposed state.db runner.id signal.direction
  | _ => True

/-- An approved order that is unopposed keeps closing fills within their positions. -/
theorem closingSafe_submitted {orchestrator : Orchestrator ω} {db : DB} {call : EvaluateCall}
    {order : ApprovedOrder} (paper : orchestrator.mode = .paper)
    (approves : RiskEngine.Approves orchestrator.riskEngine call.signal call.instrument
      orchestrator.mode call.equity call.dailyRealizedPnl orchestrator.liveOrdersEnabled
      call.clientOrderId db order)
    (unopposed : Unopposed db call.instrument.id call.signal.direction)
    (safe : (db.exposure .paper).ClosingSafe db.orderIds) :
    ((db.exposure .paper).submit db.orders.nextId
      ⟨order.instrumentId, order.side.direction, order.qty⟩).ClosingSafe
        (Finset.range (db.orders.nextId + 1)) := by
  have supported := DB.supportedBy_orderIds db .paper
  have subset : db.orderIds ⊆ Finset.range (db.orders.nextId + 1) :=
    Finset.range_subset_range.mpr (Nat.le_succ _)
  have mem : db.orders.nextId ∈ Finset.range (db.orders.nextId + 1) :=
    Finset.self_mem_range_succ _
  have safe' := Exposure.closingSafe_of_subset subset supported safe
  have fresh := Opening.fresh db .paper
  have rests : ∀ side : Side, (db.exposure .paper).resting (Finset.range (db.orders.nextId + 1))
      order.instrumentId side.direction = db.resting .paper order.instrumentId side :=
    fun side => Exposure.resting_eq_of_subset subset supported _ _
  rw [← approves.instrumentId] at unopposed
  rcases approves.purpose with ⟨isExit, nonflat, side, qty⟩ | ⟨isEntry, flat, _, side, _, _⟩
  · rw [paper] at nonflat side qty
    rw [isExit] at unopposed
    rcases unopposed with ⟨long, short⟩
    refine Exposure.closingSafe_submit_closing safe' mem fresh ?_ ?_ ?_
    · rw [side, DB.exposure_net]
      split_ifs with positive <;> simp only [Side.direction, Direction.sign] <;> omega
    · simp only [DB.exposure_net, qty]
      exact (Int.natCast_natAbs _).le
    · simp only [rests, side]
      split_ifs with positive
      · exact long positive
      · exact short (by omega)
  · rw [paper] at flat
    refine Exposure.closingSafe_submit_opening safe' mem fresh flat ?_
    cases direction : call.signal.direction with
    | exit => exact absurd direction isEntry
    | long =>
        rw [direction] at unopposed
        simpa [side, direction, Side.direction, Direction.flip] using (rests .sell).trans
          (unopposed flat)
    | short =>
        rw [direction] at unopposed
        simpa [side, direction, Side.direction, Direction.flip] using (rests .buy).trans
          (unopposed flat)

theorem closingSafe_step {orchestrator : Orchestrator ω} (paper : orchestrator.mode = .paper)
    {state : SessionState ω} {event : SessionEvent ω}
    (safe : (state.db.exposure .paper).ClosingSafe state.db.orderIds)
    (unopposed : orchestrator.SignalsUnopposed state event) :
    ((orchestrator.step state event).db.exposure .paper).ClosingSafe
      (orchestrator.step state event).db.orderIds := by
  have session : orchestrator.mode ≠ .backtest := by simp [paper]
  have effect := step_effect session state event
  generalize (orchestrator.step state event).db = db' at effect ⊢
  cases effect with
  | quiet same =>
      rw [same.exposure, DB.orderIds, same.orders]
      exact safe
  | traded trading =>
      rw [paper] at trading
      rw [trading.orderIds]
      exact Exposure.closingSafe_progresses (DB.supportedBy_orderIds _ _) safe trading.progresses
  | placed runner call order runs instrument decided placed =>
      have submitted := closingSafe_submitted paper placed.approves
        (instrument ▸ unopposed runner call.signal ⟨runs, decided⟩) safe
      have progresses := placed.progresses
      rw [paper] at progresses
      rw [DB.orderIds, placed.nextId]
      refine Exposure.closingSafe_progresses (Exposure.supportedBy_submit
        (DB.supportedBy_orderIds _ _) ?_ (Finset.self_mem_range_succ _) _) submitted progresses
      exact Finset.range_subset_range.mpr (Nat.le_succ _)

/-- Under `ClosingSafe` a decided fill against the position is at most the position. -/
theorem fill_le_of_closingSafe {broker : PaperBroker} {db : DB} {id : ℕ} {order : Order}
    {instrument : Instrument} {cash price : ℚ} {qty : ℕ}
    (safe : (db.exposure .paper).ClosingSafe db.orderIds)
    (found : db.orders.get? id = some order) (working : order.isWorking .paper = true)
    (decided : broker.decideFill order instrument cash = .ok (.fill qty price))
    (against : order.side.sign * db.positionQty order.instrumentId .paper < 0) :
    (qty : ℤ) ≤ |db.positionQty order.instrumentId .paper| :=
  safe.fill_le (DB.supportedBy_orderIds db .paper)
    (DB.exposure_working_eq_some.mpr ⟨order, found, working, rfl⟩)
    (PaperBroker.decideFill_fill decided).2 against

/-- The fill of a newly placed order meets a book as safe as the one before. -/
theorem closingSafe_opened {orchestrator : Orchestrator ω} (paper : orchestrator.mode = .paper)
    {quotes : LiveQuoteSource} {runner : Instrument} {decision : Decision} {draw : Draw} {db : DB}
    {world worldBefore : ω} {broker : Broker ω} {call : EvaluateCall}
    {before evaluated middle : DB} {approved : ApprovedOrder} {id : ℕ}
    (calls : orchestrator.Calls quotes runner decision draw db world broker call before worldBefore)
    (approves : orchestrator.evaluate call before = (.ok approved, evaluated))
    (opened : (PaperBroker.openOrder draw.brokerUuid approved.request).Yields
      (evaluated.setSignalStatus call.signalId .approved) () id middle ())
    (unopposed : ∀ signal, decision (orchestrator.positionView db runner) = .ok (some signal) →
      Unopposed db runner.id signal.direction)
    (safe : (db.exposure .paper).ClosingSafe db.orderIds) :
    (middle.exposure .paper).ClosingSafe middle.orderIds ∧
      ∀ order, middle.orders.get? id = some order → order.isWorking .paper = true := by
  rcases yields_prepare calls with ⟨none, _⟩ | ⟨_, _, _, same, _, decided, instrument, _, _, _, _,
    untraded, killSwitch⟩
  · cases none
  simp only [Option.some.injEq, Prod.mk.injEq] at same
  rcases same with ⟨rfl, rfl⟩
  rcases RiskEngine.evaluate_cases orchestrator.riskEngine call.signal call.instrument
    orchestrator.mode call.equity call.dailyRealizedPnl orchestrator.liveOrdersEnabled
    call.clientOrderId before with ⟨order, answer, isApproved⟩ | ⟨_, _, answer⟩
  · rw [evaluate, answer, Prod.mk.injEq, Except.ok.injEq] at approves
    rcases approves with ⟨rfl, rfl⟩
    rcases PaperBroker.yields_openOrder opened with ⟨_, _, rfl, opening⟩
    have markedOrders : ((KillSwitch.touch before).setSignalStatus call.signalId
        .approved).orders = db.orders := untraded.orders
    have markedExposure : ((KillSwitch.touch before).setSignalStatus call.signalId
        .approved).exposure .paper = db.exposure .paper :=
      DB.exposure_congr untraded.orders untraded.positions _
    have submitted := closingSafe_submitted paper
      (isApproved.congr untraded.positions.symm killSwitch.symm)
      (by rw [instrument]; exact unopposed _ decided) safe
    have moved := opening.exposure (PaperBroker.isWorking_openedRow draw.brokerUuid order.request)
    refine ⟨?_, fun row found => ?_⟩
    · rw [moved, DB.orderIds, opening.nextId, markedOrders, markedExposure]
      exact submitted
    · rw [opening.get?_new, Option.some.injEq] at found
      exact found ▸ rfl
  · rw [evaluate, answer] at approves
    cases approves

theorem mul_add_nonneg_of_within {position : ℤ} {side : Side} {qty : ℕ}
    (within : side.sign * position < 0 → (qty : ℤ) ≤ |position|) :
    0 ≤ position * (position + side.sign * qty) := by
  rcases lt_trichotomy position 0 with short | rfl | long
  · rw [abs_of_neg short] at within
    refine mul_nonneg_of_nonpos_of_nonpos short.le ?_
    cases side with
    | buy =>
        simp only [Side.sign_buy, one_mul] at within ⊢
        have := within short
        omega
    | sell =>
        simp only [Side.sign_sell]
        omega
  · simp
  · rw [abs_of_pos long] at within
    refine mul_nonneg long.le ?_
    cases side with
    | buy =>
        simp only [Side.sign_buy]
        omega
    | sell =>
        simp only [Side.sign_sell, neg_mul, one_mul] at within ⊢
        have := within (by omega)
        omega

/-- From no open orders, in every run whose signals are unopposed, each fill on the side
against its position is at most the position, so that no position changes its sign within
one fill. -/
theorem fill_le_position (orchestrator : Orchestrator ω) (paper : orchestrator.mode = .paper)
    {start state : SessionState ω} (noOrders : start.db.listOpenOrders .paper = [])
    (reached : Reaches orchestrator.step orchestrator.SignalsUnopposed start state)
    {event : SessionEvent ω} (unopposed : orchestrator.SignalsUnopposed state event)
    {middle : DB} {order : Order} {qty : ℕ}
    (fill : orchestrator.AppliesFill state event middle order qty) :
    (order.side.sign * middle.positionQty order.instrumentId .paper < 0 →
        (qty : ℤ) ≤ |middle.positionQty order.instrumentId .paper|) ∧
      0 ≤ middle.positionQty order.instrumentId .paper *
        (middle.positionQty order.instrumentId .paper + order.side.sign * qty) := by
  have initial : (start.db.exposure .paper).ClosingSafe start.db.orderIds := by
    have nothing : ∀ instrumentId direction,
        (start.db.exposure .paper).resting start.db.orderIds instrumentId direction = 0 := by
      intro instrumentId direction
      simp [Exposure.resting, DB.exposure_working_eq_none noOrders, Exposure.weight]
    refine fun instrumentId => ⟨fun direction against => ?_, fun _ => .inl (nothing _ _)⟩
    rw [nothing]
    exact_mod_cast abs_nonneg _
  have safe : (state.db.exposure .paper).ClosingSafe state.db.orderIds :=
    reached.invariant (motive := fun later =>
      (later.db.exposure .paper).ClosingSafe later.db.orderIds) initial
      fun _ _ held allowed => closingSafe_step paper held allowed
  have within : order.side.sign * middle.positionQty order.instrumentId .paper < 0 →
      (qty : ℤ) ≤ |middle.positionQty order.instrumentId .paper| := by
    cases fill with
    | resting retries found known decided =>
        rcases retries.trading with ⟨trading, row, rowFound, working⟩
        rw [found, Option.some.injEq] at rowFound
        subst row
        have opened : ((state.db.openAccount orchestrator.initialCash).exposure .paper).ClosingSafe
            (state.db.openAccount orchestrator.initialCash).orderIds := safe
        have safe' := Exposure.closingSafe_progresses (DB.supportedBy_orderIds _ _) opened
          trading.progresses
        rw [← trading.orderIds] at safe'
        exact fill_le_of_closingSafe safe' found working decided
    | placed runs calls approves opened found known decided =>
        rcases closingSafe_opened paper calls approves opened
          (fun signal signalled => unopposed _ signal ⟨runs, signalled⟩) safe with ⟨safe', working⟩
        exact fill_le_of_closingSafe safe' found (working _ found) decided
  exact ⟨within, mul_add_nonneg_of_within within⟩

/-- The rest of an abandoned entry flips a later short position: one share short, the
tick buys two. -/
theorem residual_fill_flips_position :
    sampleStart.db.listOpenPositions .paper = [] ∧ sampleStart.db.orders.nextId = 0 ∧
      ¬ ∀ state event middle order qty,
        Reaches (sampleSession .paper).step (fun _ _ => True) sampleStart state →
        (sampleSession .paper).AppliesFill state event middle order qty →
        order.side.sign * middle.positionQty order.instrumentId .paper < 0 →
          (qty : ℤ) ≤ |middle.positionQty order.instrumentId .paper| := by
  refine ⟨by decide, by decide, fun claim => ?_⟩
  let state := sampleRun .paper [signalCandle "NSE_EQ|INFY" 1 .long "a",
    signalCandle "NSE_EQ|INFY" 1 .exit "b", signalCandle "NSE_EQ|INFY" 500 .short "c"]
  let middle := state.db.openAccount 1000
  let order := (middle.orders.get? 0).get (by decide +kernel)
  have fill : (sampleSession .paper).AppliesFill state (.housekeeping fun _ => 0) middle order 2 :=
    @AppliesFill.resting _ _ _ _ middle 0 order ⟨1, "INFY", "NSE_EQ|INFY", 1 / 20⟩ 2 (2001 / 4)
      ⟨[], [], [], by decide +kernel, Transaction.yields_pure.mpr ⟨rfl, rfl, rfl⟩⟩
      (by decide +kernel) (by decide +kernel) (by decide +kernel)
  have within := claim state _ middle order 2 (Reaches.of_labels _ _ _) fill
  revert within
  decide +kernel

/-- A sample run in which the exit of a short position waits for cash. -/
def sampleCover : List (SessionEvent (List String)) :=
  [signalCandle "NSE_EQ|INFY" 100 .short "a", signalCandle "NSE_EQ|INFY" 250 .exit "b",
    quietCandle "NSE_EQ|INFY" 50]

theorem fill_le_position_sample :
    ∃ order : Order, order.side = .buy ∧
      (3 : ℤ) ≤ |((sampleRun .paper sampleCover).db.openAccount 1000).positionQty
        order.instrumentId .paper| := by
  let state := sampleRun .paper sampleCover
  let middle := state.db.openAccount 1000
  let order := (middle.orders.get? 1).get (by decide +kernel)
  have fill : (sampleSession .paper).AppliesFill state (.housekeeping fun _ => 0) middle order 3 :=
    @AppliesFill.resting _ _ _ _ middle 1 order ⟨1, "INFY", "NSE_EQ|INFY", 1 / 20⟩ 3 (2001 / 40)
      ⟨[], [], [], by decide +kernel, Transaction.yields_pure.mpr ⟨rfl, rfl, rfl⟩⟩
      (by decide +kernel) (by decide +kernel) (by decide +kernel)
  have reached : Reaches (sampleSession .paper).step (sampleSession .paper).SignalsUnopposed
      sampleStart state := Reaches.of_meets sampleCover
    ⟨fun runner signal signals => by
        rcases sample_signals signals with ⟨runnerEq, rfl⟩
        rw [runnerEq]
        exact fun _ => by decide +kernel,
      fun runner signal signals => by
        rcases sample_signals signals with ⟨runnerEq, rfl⟩
        rw [runnerEq]
        exact ⟨fun _ => by decide +kernel, fun _ => by decide +kernel⟩,
      fun _ _ signals => (nomatch signals.2), trivial⟩
  exact ⟨order, by decide +kernel, (fill_le_position (sampleSession .paper) rfl (by decide) reached
    (by trivial) fill).1 (by decide +kernel)⟩

/-! ## Growth under a tripped kill switch -/

/-- Every resting order is on the side against its position, and what rests on that side
fits into the position. -/
def RestsClosing (db : DB) : Prop :=
  ∀ id ∈ db.listOpenOrders .paper, ∀ order ∈ db.orders.get? id, 0 < order.remaining →
    order.side.sign * db.positionQty order.instrumentId .paper < 0 ∧
      (db.resting .paper order.instrumentId order.side : ℤ) ≤
        |db.positionQty order.instrumentId .paper|

instance (db : DB) : Decidable (RestsClosing db) := by
  unfold RestsClosing
  infer_instance

theorem onlyCloses_of_restsClosing {db : DB} (closing : RestsClosing db) :
    (db.exposure .paper).OnlyCloses db.orderIds := by
  intro instrumentId direction rests
  rcases Finset.exists_ne_zero_of_sum_ne_zero rests.ne' with ⟨id, _, weighs⟩
  rcases entry : (db.exposure .paper).working id with _ | working
  · simp [entry, Exposure.weight] at weighs
  · rcases DB.exposure_working_eq_some.mp entry with ⟨order, found, isWorking, rfl⟩
    simp only [entry, Exposure.weight] at weighs
    split_ifs at weighs with onSide
    · rcases onSide with ⟨rfl, rfl⟩
      exact closing id (DB.mem_listOpenOrders.mpr ⟨order, found, isWorking⟩) order found
        (Nat.pos_of_ne_zero weighs)
    · exact absurd rfl weighs

/-- The kill switch is not reset, and while it is tripped resting orders are retried
only when all of them close. -/
def HaltsGrowth (state : SessionState ω) : SessionEvent ω → Prop
  | .housekeeping _ => KillSwitch.isTripped state.db = true → RestsClosing state.db
  | .reset _ => False
  | _ => True

theorem abs_positionQty_step {orchestrator : Orchestrator ω} (paper : orchestrator.mode = .paper)
    {state : SessionState ω} {event : SessionEvent ω}
    (tripped : KillSwitch.isTripped state.db = true) (halts : HaltsGrowth state event)
    (instrumentId : ℕ) :
    |(orchestrator.step state event).db.positionQty instrumentId .paper| ≤
      |state.db.positionQty instrumentId .paper| := by
  have session : orchestrator.mode ≠ .backtest := by simp [paper]
  have effect := step_effect session state event
  generalize (orchestrator.step state event).db = db' at effect ⊢
  cases effect with
  | quiet same => rw [same.positionQty]
  | placed runner call order runs instrument decided placed =>
      have untripped := placed.approves.gates.untripped
      rw [tripped] at untripped
      cases untripped
  | traded trading =>
      rw [paper] at trading
      exact Exposure.OnlyCloses.abs_net_le (DB.supportedBy_orderIds _ _)
        (onlyCloses_of_restsClosing (halts tripped)) trading.progresses instrumentId

/-- From any moment at which the kill switch is tripped, no position has grown in any
state that is reached without a reset while only closing orders are retried. -/
theorem abs_positionQty_le_of_tripped (orchestrator : Orchestrator ω)
    (paper : orchestrator.mode = .paper) {tripping state : SessionState ω}
    (tripped : KillSwitch.isTripped tripping.db = true)
    (reached : Reaches orchestrator.step HaltsGrowth tripping state) (instrumentId : ℕ) :
    |state.db.positionQty instrumentId .paper| ≤ |tripping.db.positionQty instrumentId .paper| := by
  have session : orchestrator.mode ≠ .backtest := by simp [paper]
  have held := reached.invariant (motive := fun later => KillSwitch.isTripped later.db = true ∧
      |later.db.positionQty instrumentId .paper| ≤ |tripping.db.positionQty instrumentId .paper|)
    ⟨tripped, le_rfl⟩ ?_
  · exact held.2
  rintro later event ⟨stillTripped, bounded⟩ halts
  refine ⟨isTripped_step session (fun reason isReset => ?_) stillTripped,
    (abs_positionQty_step paper stillTripped halts instrumentId).trans bounded⟩
  subst event
  exact halts

/-- The rest of an entry that was filled in part grows its position under a tripped kill
switch. -/
theorem resting_entry_grows_while_tripped :
    ¬ ∀ tripping state,
      Reaches (sampleSession .paper).step (fun _ _ => True) sampleStart tripping →
      KillSwitch.isTripped tripping.db = true →
      Reaches (sampleSession .paper).step (fun _ event => ∀ reason, event ≠ .reset reason) tripping
        state →
      |state.db.positionQty 1 .paper| ≤ |tripping.db.positionQty 1 .paper| := by
  intro claim
  have bounded := claim (sampleRun .paper [signalCandle "NSE_EQ|INFY" 100 .long "a",
      .trip "manual" .none 0]) _ (Reaches.of_labels _ _ _) (by decide +kernel)
    (Reaches.of_meets [quietCandle "NSE_EQ|INFY" 50, .housekeeping fun _ => 0]
      ⟨fun _ => by simp [quietCandle], fun _ => by simp, trivial⟩)
  revert bounded
  decide +kernel

/-- A sample run that trips while the rest of an exit of a short position waits for cash. -/
def sampleTripping : SessionState (List String) :=
  sampleRun .paper [signalCandle "NSE_EQ|INFY" 100 .short "a",
    signalCandle "NSE_EQ|INFY" 250 .exit "b", .trip "manual" .none 0]

theorem abs_positionQty_le_of_tripped_sample :
    |(runSteps (sampleSession .paper).step sampleTripping [quietCandle "NSE_EQ|INFY" 100,
        .housekeeping fun _ => 0]).db.positionQty 1 .paper| ≤
      |sampleTripping.db.positionQty 1 .paper| :=
  abs_positionQty_le_of_tripped (sampleSession .paper) rfl (by decide +kernel)
    (Reaches.of_meets [quietCandle "NSE_EQ|INFY" 100, .housekeeping fun _ => 0]
      ⟨trivial, fun _ => by decide +kernel, trivial⟩) 1

/-! ## One working order for each instrument -/

/-- The order under a key was placed for an EXIT signal. -/
def IsExitOrder (db : DB) (id : ℕ) : Prop :=
  ∃ order signalId, db.orders.get? id = some order ∧ order.signalId = some signalId ∧
    db.signalDirection signalId = some .exit

/-- The LIVE orders of an instrument that are not terminal. -/
def outstanding (db : DB) (instrumentId : ℕ) : List ℕ :=
  db.orders.select fun order =>
    order.mode = .live && !order.state.isTerminal && order.instrumentId = instrumentId

/-- The unfilled quantity of the outstanding EXIT orders of an instrument. -/
def unfilledExits (db : DB) (instrumentId : ℕ) : ℕ :=
  ((db.orders.select fun order => order.mode = .live && !order.state.isTerminal &&
      order.instrumentId = instrumentId && order.signalId.bind db.signalDirection = some .exit).map
    fun id => ((db.orders.get? id).map Order.remaining).getD 0).sum

/-- A signal is acted on only while its instrument has no outstanding order: an EXIT
with a position, a LONG or SHORT without one. -/
def OneAtATime (orchestrator : Orchestrator ω) (state : SessionState ω) : SessionEvent ω → Prop
  | .candle candle decision _ => ∀ runner signal,
      orchestrator.Signals state candle decision runner signal →
        (signal.direction = .exit ↔ state.db.positionQty runner.id .live ≠ 0) →
          outstanding state.db runner.id = []
  | _ => True

/-- What keeps one working order for each instrument. -/
structure SingleOrders (db : DB) : Prop where
  single : (db.exposure .live).SingleWorking (IsExitOrder db)
  linked : ∀ id order, db.orders.get? id = some order → order.isWorking .live = true →
    ∃ signalId direction, order.signalId = some signalId ∧
      db.signalDirection signalId = some direction
  born : ∀ id order, db.orders.get? id = some order → order.mode = .live →
    order.state ≠ .pendingRisk

theorem isWorking_of_outstanding {db : DB} (born : ∀ id order, db.orders.get? id = some order →
      order.mode = .live → order.state ≠ .pendingRisk) {id : ℕ} {order : Order}
    (found : db.orders.get? id = some order) (live : order.mode = .live)
    (unfinished : order.state.isTerminal = false) : order.isWorking .live = true := by
  rw [OrderState.isTerminal_or_isOpen (born id order found live)] at unfinished
  simpa [Order.isWorking, live] using unfinished

theorem isTerminal_of_isWorking {order : Order} {mode : Mode}
    (working : order.isWorking mode = true) : order.state.isTerminal = false := by
  simp only [Order.isWorking, Bool.and_eq_true] at working
  have isOpen := working.1
  cases state : order.state <;> rw [state] at isOpen <;> first | rfl | cases isOpen

namespace SingleOrders

variable {db db' : DB}

/-- A row of before that is linked to an EXIT signal was linked to it before. -/
theorem isExit_before (held : SingleOrders db) (kept : KeepsSignals db db') {id signalId : ℕ}
    {order : Order} (found : db.orders.get? id = some order)
    (working : order.isWorking .live = true) (signalled : order.signalId = some signalId)
    (direction : db'.signalDirection signalId = some .exit) : IsExitOrder db id := by
  rcases held.linked id order found working with ⟨known, before, knownEq, beforeEq⟩
  rw [signalled, Option.some.injEq] at knownEq
  subst known
  have later := kept signalId before beforeEq
  rw [direction] at later
  exact ⟨order, signalId, found, signalled, beforeEq.trans later.symm⟩

theorem of_sameBook (held : SingleOrders db) (same : SameBook db db') : SingleOrders db' := by
  refine ⟨?_, fun id order found working => ?_, fun id order found => ?_⟩
  · rw [same.exposure]
    refine held.single.mono fun id working present isExit => ?_
    rcases isExit with ⟨order, signalId, found, signalled, direction⟩
    rcases DB.exposure_working_eq_some.mp present with ⟨row, rowFound, isWorking, _⟩
    rw [same.orders, rowFound, Option.some.injEq] at found
    subst row
    exact held.isExit_before same.signals rowFound isWorking signalled direction
  · rw [same.orders] at found
    rcases held.linked id order found working with ⟨signalId, direction, signalled, known⟩
    exact ⟨signalId, direction, signalled, same.signals signalId direction known⟩
  · rw [same.orders] at found
    exact held.born id order found

theorem of_trading (held : SingleOrders db) (trading : Trading .live db db') :
    SingleOrders db' := by
  have sameDirection : ∀ signalId, db'.signalDirection signalId =
      db.signalDirection signalId := by
    intro signalId
    rw [DB.signalDirection, trading.signals, DB.signalDirection]
  refine ⟨?_, fun id order' found' working => ?_, fun id order' found' isLive isPending => ?_⟩
  · refine (Exposure.singleWorking_progresses held.single trading.progresses).mono
      fun id _ _ isExit => ?_
    rcases isExit with ⟨order', signalId, found', signalled, direction⟩
    rcases trading.exists_before found' with ⟨order, found, termsEq⟩
    have signalEq : order'.signalId = order.signalId := congrArg OrderTerms.signalId termsEq
    exact ⟨order, signalId, found, signalEq ▸ signalled, sameDirection signalId ▸ direction⟩
  · rcases Exposure.exists_working_progresses trading.progresses
      (DB.exposure_working_eq_some.mpr ⟨order', found', working, rfl⟩) with ⟨_, worked⟩
    rcases DB.exposure_working_eq_some.mp worked with ⟨order, found, isWorking, _⟩
    rcases held.linked id order found isWorking with ⟨signalId, direction, signalled, known⟩
    have signalEq : order'.signalId = order.signalId :=
      congrArg OrderTerms.signalId (trading.terms_eq found found')
    exact ⟨signalId, direction, signalEq ▸ signalled, (sameDirection signalId).trans known⟩
  · rcases trading.exists_before found' with ⟨order, found, termsEq⟩
    have wasPending := trading.pending id (by rw [found', Option.map_some, isPending])
    rw [found, Option.map_some, Option.some.injEq] at wasPending
    have modeEq : order'.mode = order.mode := congrArg OrderTerms.mode termsEq
    exact held.born id order found (modeEq ▸ isLive) wasPending

end SingleOrders

namespace Placed

variable {orchestrator : Orchestrator ω} {call : EvaluateCall} {order : ApprovedOrder}
  {db db' : DB}

theorem oldRow (placed : Placed orchestrator call order db db') {id : ℕ} {order' : Order}
    (old : id ≠ db.orders.nextId) (found' : db'.orders.get? id = some order') :
    ∃ row, db.orders.get? id = some row ∧ order'.terms = row.terms := by
  have termsEq := placed.oldTerms id old
  rw [found', Option.map_some, eq_comm, Option.map_eq_some_iff] at termsEq
  rcases termsEq with ⟨row, found, same⟩
  exact ⟨row, found, same.symm⟩

/-- An order is placed for an EXIT with a position, or for an entry without one. -/
theorem actionable (placed : Placed orchestrator call order db db') :
    call.signal.direction = .exit ↔
      db.positionQty order.instrumentId orchestrator.mode ≠ 0 := by
  rcases placed.approves.purpose with exit | entry
  · exact iff_of_true exit.direction exit.nonflat
  · exact iff_of_false entry.direction (not_not.mpr entry.flat)

/-- The placed order, and every exit order after it, is the only one of its instrument. -/
theorem singleWorking (placed : Placed orchestrator call order db db')
    (live : orchestrator.mode = .live) (held : SingleOrders db)
    (free : outstanding db order.instrumentId = []) :
    (db'.exposure .live).SingleWorking (IsExitOrder db') := by
  have progresses := placed.progresses
  rw [live] at progresses
  refine Exposure.singleWorking_progresses (Exposure.singleWorking_submit held.single
    (fun id working present old isExit => ?_) (fun id working present same => ?_)
    (fun isExit => ?_)) progresses
  · rcases isExit with ⟨order', signalId, found', signalled, direction⟩
    rcases placed.oldRow old found' with ⟨row, found, termsEq⟩
    have signalEq : order'.signalId = row.signalId := congrArg OrderTerms.signalId termsEq
    rcases DB.exposure_working_eq_some.mp present with ⟨row', rowFound, isWorking, _⟩
    rw [found, Option.some.injEq] at rowFound
    subst row'
    exact held.isExit_before placed.oldSignals found isWorking (signalEq ▸ signalled) direction
  · rcases DB.exposure_working_eq_some.mp present with ⟨row, found, isWorking, rfl⟩
    have mem : id ∈ outstanding db order.instrumentId := by
      have isLive : row.mode = .live := by
        simp only [Order.isWorking, Bool.and_eq_true, decide_eq_true_eq] at isWorking
        exact isWorking.2
      refine RowTable.mem_select.mpr ⟨row, found, ?_⟩
      simpa [isLive, isTerminal_of_isWorking isWorking, Order.working] using same
    rw [free] at mem
    cases mem
  · rcases placed.newRow with ⟨newRow, newFound, newSignalled, _⟩
    rcases isExit with ⟨order', signalId, found', signalled, direction⟩
    rw [newFound, Option.some.injEq] at found'
    subst order'
    rw [newSignalled, Option.some.injEq] at signalled
    subst signalId
    rw [placed.newSignal, Option.some.injEq] at direction
    rcases placed.approves.purpose with ⟨_, nonflat, side, qty⟩ | entry
    · rw [live] at nonflat side qty
      simp only [side, qty, DB.exposure_net]
      split_ifs <;> simp only [Side.direction, Direction.sign] <;> omega
    · exact absurd direction entry.direction

theorem singleOrders (placed : Placed orchestrator call order db db')
    (live : orchestrator.mode = .live) (held : SingleOrders db)
    (free : outstanding db order.instrumentId = []) : SingleOrders db' := by
  have progresses := placed.progresses
  rw [live] at progresses
  refine ⟨placed.singleWorking live held free, fun id order' found' working => ?_,
    fun id order' found' isLive isPending => ?_⟩
  · by_cases new : id = db.orders.nextId
    · subst id
      rcases placed.newRow with ⟨newRow, newFound, newSignalled, _⟩
      rw [newFound, Option.some.injEq] at found'
      subst order'
      exact ⟨_, _, newSignalled, placed.newSignal⟩
    · rcases Exposure.exists_working_progresses progresses
        (DB.exposure_working_eq_some.mpr ⟨order', found', working, rfl⟩) with ⟨_, worked⟩
      simp only [Exposure.submit, Function.update_of_ne new] at worked
      rcases DB.exposure_working_eq_some.mp worked with ⟨row, found, isWorking, _⟩
      rcases held.linked id row found isWorking with ⟨signalId, direction, signalled, known⟩
      rcases placed.oldRow new found' with ⟨row', rowFound, termsEq⟩
      rw [found, Option.some.injEq] at rowFound
      subst row'
      have signalEq : order'.signalId = row.signalId := congrArg OrderTerms.signalId termsEq
      exact ⟨signalId, direction, signalEq ▸ signalled,
        placed.oldSignals signalId direction known⟩
  · have wasPending := placed.pending id (by rw [found', Option.map_some, isPending])
    rcases Option.map_eq_some_iff.mp wasPending with ⟨row, found, rowPending⟩
    have old : id ≠ db.orders.nextId := by
      rintro rfl
      rw [RowTable.get?_nextId] at found
      cases found
    rcases placed.oldRow old found' with ⟨row', rowFound, termsEq⟩
    rw [found, Option.some.injEq] at rowFound
    subst row'
    have modeEq : order'.mode = row.mode := congrArg OrderTerms.mode termsEq
    exact held.born id row found (modeEq ▸ isLive) rowPending

end Placed

theorem singleOrders_step {orchestrator : Orchestrator ω} (live : orchestrator.mode = .live)
    {state : SessionState ω} {event : SessionEvent ω} (held : SingleOrders state.db)
    (alone : orchestrator.OneAtATime state event) :
    SingleOrders (orchestrator.step state event).db := by
  have session : orchestrator.mode ≠ .backtest := by simp [live]
  have effect := step_effect session state event
  generalize (orchestrator.step state event).db = db' at effect ⊢
  cases effect with
  | quiet same => exact held.of_sameBook same
  | traded trading =>
      rw [live] at trading
      exact held.of_trading trading
  | placed runner call order runs instrument decided placed =>
      have isRunner : order.instrumentId = runner.id := by
        rw [placed.approves.instrumentId, instrument]
      have actionable := placed.actionable
      rw [isRunner, live] at actionable
      have free := alone runner call.signal ⟨runs, decided⟩ actionable
      rw [← isRunner] at free
      exact placed.singleOrders live held free

/-- A list of one key at most sums to at most what that key contributes. -/
theorem sum_map_le_of_unique {keys : List ℕ} (nodup : keys.Nodup)
    (unique : ∀ first ∈ keys, ∀ second ∈ keys, first = second) {weight : ℕ → ℕ} {bound : ℕ}
    (fits : ∀ key ∈ keys, weight key ≤ bound) : (keys.map weight).sum ≤ bound := by
  match keys, nodup with
  | [], _ => simp
  | [key], _ => simpa using fits key List.mem_cons_self
  | first :: second :: rest, nodup =>
      have same := unique first List.mem_cons_self second
        (List.mem_cons_of_mem _ List.mem_cons_self)
      simp [same] at nodup

/-- Nothing is outstanding when all LIVE orders are terminal. -/
theorem singleOrders_of_finished {db : DB} (finished : ∀ id order, db.orders.get? id = some order →
    order.mode = .live → order.state.isTerminal = true) : SingleOrders db := by
  have idle : ∀ id, (db.exposure .live).working id = none := by
    intro id
    rcases entry : (db.exposure .live).working id with _ | working
    · rfl
    · rcases DB.exposure_working_eq_some.mp entry with ⟨order, found, isWorking, _⟩
      have unfinished := isTerminal_of_isWorking isWorking
      simp only [Order.isWorking, Bool.and_eq_true, decide_eq_true_eq] at isWorking
      rw [finished id order found isWorking.2] at unfinished
      cases unfinished
  refine ⟨⟨?_, ?_⟩, fun id order found working => ?_, fun id order found isLive pending => ?_⟩
  · intro id _ _ _ working
    rw [idle id] at working
    cases working
  · intro id _ _ working
    rw [idle id] at working
    cases working
  · have present := DB.exposure_working_eq_some.mpr ⟨order, found, working, rfl⟩
    rw [idle id] at present
    cases present
  · have terminal := finished id order found isLive
    rw [pending] at terminal
    cases terminal

namespace SingleOrders

variable {db : DB}

/-- An outstanding order is working. -/
theorem working (single : SingleOrders db) {id : ℕ} {order : Order}
    (found : db.orders.get? id = some order) (isLive : order.mode = .live)
    (unfinished : order.state.isTerminal = false) :
    (db.exposure .live).working id = some order.working :=
  DB.exposure_working_eq_some.mpr
    ⟨order, found, isWorking_of_outstanding single.born found isLive unfinished, rfl⟩

theorem outstanding_unique (single : SingleOrders db) {instrumentId first second : ℕ}
    (firstMem : first ∈ outstanding db instrumentId)
    (secondMem : second ∈ outstanding db instrumentId) : first = second := by
  rcases RowTable.mem_select.mp firstMem with ⟨firstOrder, firstFound, firstKept⟩
  rcases RowTable.mem_select.mp secondMem with ⟨secondOrder, secondFound, secondKept⟩
  simp only [Bool.and_eq_true, decide_eq_true_eq, Bool.not_eq_eq_eq_not, Bool.not_true]
    at firstKept secondKept
  exact single.single.unique first second _ _
    (single.working firstFound firstKept.1.1 firstKept.1.2)
    (single.working secondFound secondKept.1.1 secondKept.1.2)
    (firstKept.2.trans secondKept.2.symm)

theorem length_outstanding_le (single : SingleOrders db) (instrumentId : ℕ) :
    (outstanding db instrumentId).length ≤ 1 := by
  have nodup : (outstanding db instrumentId).Nodup := RowTable.nodup_select _ _
  rw [← List.toFinset_card_of_nodup nodup, Finset.card_le_one]
  simpa using fun first firstMem second secondMem => single.outstanding_unique firstMem secondMem

/-- The one outstanding EXIT order closes what its position holds. -/
theorem unfilledExits_le (single : SingleOrders db) (instrumentId : ℕ) :
    (unfilledExits db instrumentId : ℤ) ≤ |db.positionQty instrumentId .live| := by
  rw [Int.abs_eq_natAbs]
  refine Int.ofNat_le.mpr (sum_map_le_of_unique (RowTable.nodup_select _ _) ?_ ?_)
  · intro first firstMem second secondMem
    have narrower : ∀ id, id ∈ (db.orders.select fun order => order.mode = .live &&
        !order.state.isTerminal && order.instrumentId = instrumentId &&
          order.signalId.bind db.signalDirection = some .exit) →
        id ∈ outstanding db instrumentId := by
      intro id mem
      rcases RowTable.mem_select.mp mem with ⟨order, found, kept⟩
      simp only [Bool.and_eq_true] at kept
      exact RowTable.mem_select.mpr ⟨order, found, by simpa using kept.1⟩
    exact single.outstanding_unique (narrower first firstMem) (narrower second secondMem)
  · intro id mem
    rcases RowTable.mem_select.mp mem with ⟨order, found, kept⟩
    simp only [Bool.and_eq_true, decide_eq_true_eq, Bool.not_eq_eq_eq_not, Bool.not_true] at kept
    rcases Option.bind_eq_some_iff.mp kept.2 with ⟨signalId, signalled, direction⟩
    have fits := single.single.exit_fits id order.working ⟨order, signalId, found, signalled,
      direction⟩ (single.working found kept.1.1.1 kept.1.1.2)
    simp only [Order.working, DB.exposure_net, kept.1.2] at fits
    simp only [found, Option.map_some, Option.getD_some]
    cases side : order.side <;>
      simp only [side, Side.direction, Direction.sign] at fits <;> omega

end SingleOrders

/-- From a state whose LIVE orders are all terminal, in every run whose signals wait for
the outstanding order of their instrument, each instrument has one outstanding order
at most, and its outstanding EXIT orders do not exceed its position. -/
theorem singleOrder_of_oneAtATime (orchestrator : Orchestrator ω)
    (live : orchestrator.mode = .live) {start state : SessionState ω}
    (finished : ∀ id order, start.db.orders.get? id = some order → order.mode = .live →
      order.state.isTerminal = true)
    (reached : Reaches orchestrator.step orchestrator.OneAtATime start state) (instrumentId : ℕ) :
    (outstanding state.db instrumentId).length ≤ 1 ∧
      (unfilledExits state.db instrumentId : ℤ) ≤ |state.db.positionQty instrumentId .live| := by
  have held : SingleOrders state.db := reached.invariant (motive := fun later =>
    SingleOrders later.db) (singleOrders_of_finished finished)
    fun _ _ held alone => singleOrders_step live held alone
  exact ⟨held.length_outstanding_le instrumentId, held.unfilledExits_le instrumentId⟩

/-- Signals between submission and poll pile up: two EXIT orders of ten shares are
outstanding for a position of ten. -/
theorem exits_pile_up_before_poll :
    sampleStart.db.orders.nextId = 0 ∧
      ¬ (∀ state, Reaches (sampleSession .live).step (fun _ _ => True) sampleStart state →
        (outstanding state.db 1).length ≤ 1) ∧
      ¬ (∀ state, Reaches (sampleSession .live).step (fun _ _ => True) sampleStart state →
        (unfilledExits state.db 1 : ℤ) ≤ |state.db.positionQty 1 .live|) := by
  have reached := Reaches.of_labels (sampleSession .live).step sampleStart
    [signalCandle "NSE_EQ|INFY" 100 .long "a", .outside fun _ => ["a"], .housekeeping fun _ => 0,
      signalCandle "NSE_EQ|INFY" 100 .exit "b", signalCandle "NSE_EQ|INFY" 100 .exit "c"]
  refine ⟨by decide, fun claim => ?_, fun claim => ?_⟩
  · have single := claim _ reached
    revert single
    decide +kernel
  · have fits := claim _ reached
    revert fits
    decide +kernel

/-- A sample run that exits its position after the entry was polled. -/
def sampleExit : List (SessionEvent (List String)) :=
  [signalCandle "NSE_EQ|INFY" 100 .long "a", .outside fun _ => ["a"], .housekeeping fun _ => 0,
    signalCandle "NSE_EQ|INFY" 100 .exit "b"]

theorem singleOrder_of_oneAtATime_sample :
    (outstanding (sampleRun .live sampleExit).db 1).length ≤ 1 ∧
      (unfilledExits (sampleRun .live sampleExit).db 1 : ℤ) ≤
        |(sampleRun .live sampleExit).db.positionQty 1 .live| :=
  singleOrder_of_oneAtATime (sampleSession .live) rfl
    (by simp [sampleStart, RowTable.get?, RowTable.empty])
    (Reaches.of_meets sampleExit ⟨fun runner _ signals _ => by
        rw [(sample_signals signals).1]
        decide +kernel,
      trivial, trivial, fun runner _ signals _ => by
        rw [(sample_signals signals).1]
        decide +kernel, trivial⟩) 1

end Orchestrator

end PersonalTrade
