import PersonalTrade.Orchestrator.Exposure
import PersonalTrade.Orchestrator.LiveContext

/-!
# The stop of an open position

A session in which a runner drives `ema_atr_stop`. The strategy forgets its stop when it emits an
exit, while the gate, the broker and the outside decide whether the position is closed. A watch
beside the run keeps the level that belongs to the open position.
-/

namespace PersonalTrade

variable {ω : Type}

/-- A candle of an instrument. -/
def SessionEvent.isCandleOf (instrumentKey : String) : SessionEvent ω → Bool
  | .candle delivered _ _ => delivered.instrumentKey = instrumentKey
  | _ => false

/-- An orchestrator with a runner of `ema_atr_stop`. -/
structure StopSession (ω : Type) where
  orchestrator : Orchestrator ω
  sqrt : ℚ → ℚ
  params : EMAAtrStopParams
  instrumentKey : String
  instrument : Instrument
  drives : orchestrator.runners instrumentKey = some instrument

/-- What happens to it: a candle of the instrument, or anything else. -/
inductive StopEvent (ω : Type) (instrumentKey : String) where
  | candle (candle : CandleReceived) (draw : Draw)
  | other (event : SessionEvent ω) (apart : event.isCandleOf instrumentKey = false)

/-- The session and its runner, whose memory is `_stop`. -/
structure StopState (ω : Type) where
  session : SessionState ω
  runner : LiveStrategyRunner (Option ℚ)

/-- What the strategy last saw of the position of its instrument. -/
inductive StopWatch where
  /-- No position, or one that was closed after its exit was due. -/
  | unseen
  /-- A position, first seen with this level. -/
  | holding (level : ℚ)
  /-- A position, first seen with this level, whose exit was due at the last bar. -/
  | exiting (level : ℚ)
  /-- A position with this level that was closed though no exit was due. -/
  | closed (level : ℚ)
deriving DecidableEq

namespace StopWatch

/-- The level of the open position, given the one that its first bar anchors. -/
def expected (anchor : ℚ) : StopWatch → ℚ
  | .holding level | .exiting level => level
  | .unseen | .closed _ => anchor

/-- A bar at which the strategy reads its indicators. -/
def look (watch : StopWatch) (params : EMAAtrStopParams) (position : PositionView)
    (reading : EMAAtrReading) : StopWatch :=
  let level := watch.expected (params.anchor position reading)
  if position.qty = 0 then .unseen
  else if reading.exitSignal level = none then .holding level
  else .exiting level

/-- The position is closed. -/
def close : StopWatch → StopWatch
  | .holding level => .closed level
  | .exiting _ => .unseen
  | watch => watch

/-- The stop that the strategy remembers, as long as it was anchored once. -/
def remembered : StopWatch → Option ℚ
  | .unseen | .exiting _ => none
  | .holding level | .closed level => some level

/-- The level of a position whose exit was due and which is still there, or of one that is gone
though no exit was due. -/
def pending : StopWatch → Option ℚ
  | .unseen | .holding _ => none
  | .exiting level | .closed level => some level

@[simp]
theorem remembered_close (watch : StopWatch) : watch.close.remembered = watch.remembered := by
  cases watch <;> rfl

end StopWatch

/-- A bar of an open position at which the strategy compares the close with its stop. -/
structure StopLook where
  position : PositionView
  reading : EMAAtrReading
  stop : Option ℚ
  watch : StopWatch

namespace StopLook

variable (params : EMAAtrStopParams) (look : StopLook)

/-- The level that is compared with the close. -/
def compared : ℚ := look.stop.getD (params.anchor look.position look.reading)

/-- It is the level of the first bar on which the strategy saw the position. -/
def AnchoredOnce : Prop :=
  look.compared params = look.watch.expected (params.anchor look.position look.reading)

/-- No exit was due at the last bar of the open position and no other position was closed unseen,
or the bar would anchor the same level as before. -/
def Undisturbed : Prop :=
  ∀ level ∈ look.watch.pending, params.anchor look.position look.reading = level

instance : Decidable (look.AnchoredOnce params) := inferInstanceAs (Decidable (_ = _))

instance : Decidable (look.Undisturbed params) := inferInstanceAs (Decidable (∀ _ ∈ _, _ = _))

end StopLook

namespace StopSession

variable (setup : StopSession ω)

/-- The position that the runner is given. -/
def position (state : StopState ω) : PositionView :=
  setup.orchestrator.positionView state.session.db setup.instrument

/-- One event. The runner goes on with its candle whatever becomes of the transaction. -/
def step (state : StopState ω) : StopEvent ω setup.instrumentKey → StopState ω
  | .candle candle draw =>
      { session := setup.orchestrator.onCandle ⟨setup.instrumentKey, candle.close⟩
          (fun position => (state.runner.onCandle setup.sqrt candle position).map Prod.fst) draw
          state.session
        runner := state.runner.deliver setup.sqrt (candle, setup.position state) }
  | .other event _ => { state with session := setup.orchestrator.step state.session event }

/-- What the strategy reads at a candle, if it is called and its indicators are available. -/
def reading (state : StopState ω) (candle : CandleReceived) : Option EMAAtrReading :=
  (state.runner.presented setup.sqrt candle (setup.position state)).bind fun context =>
    (EMAAtrReading.ofContext context).toOption.join

/-- A state with the watch beside it. -/
structure Watched (ω : Type) extends StopState ω where
  watch : StopWatch := .unseen

/-- The watch sees what the strategy sees at a candle. -/
def seen (watched : Watched ω) : StopEvent ω setup.instrumentKey → StopWatch
  | .candle candle _ => (setup.reading watched.toStopState candle).elim watched.watch
      (watched.watch.look setup.params (setup.position watched.toStopState))
  | .other _ _ => watched.watch

/-- An event, and whether the committed store still has the position after it. -/
def watchedStep (watched : Watched ω) (event : StopEvent ω setup.instrumentKey) : Watched ω :=
  let after := setup.step watched.toStopState event
  { after with watch :=
      if after.session.db.positionQty setup.instrument.id setup.orchestrator.mode = 0 then
        (setup.seen watched event).close
      else setup.seen watched event }

/-- The look of an event, if there is one. -/
def lookOf (made : Watched ω × StopEvent ω setup.instrumentKey) : Option StopLook :=
  let position := setup.position made.1.toStopState
  match made.2 with
  | .candle candle _ =>
      if position.qty = 0 then none
      else (setup.reading made.1.toStopState candle).map fun reading =>
        ⟨position, reading, made.1.runner.memory, made.1.watch⟩
  | .other _ _ => none

/-- The bars of a run at which the strategy compares the close of an open position with its stop. -/
def looks (start : StopState ω) (events : List (StopEvent ω setup.instrumentKey)) :
    List StopLook :=
  (runTrace setup.watchedStep { start with } events).filterMap setup.lookOf

end StopSession

/-! ## What the strategy does at a look -/

namespace LiveStrategyRunner

variable {sqrt : ℚ → ℚ} {runner : LiveStrategyRunner (Option ℚ)} {candle : CandleReceived}
  {position : PositionView} {params : EMAAtrStopParams}

theorem position_of_presented {context : StrategyContext}
    (presents : runner.presented sqrt candle position = some context) :
    context.position = position := by
  simp only [presented] at presents
  split_ifs at presents
  rw [← Option.some.inj presents]
  rfl

/-- What becomes of the stop at a candle. -/
theorem memory_deliver (drives : runner.strategy = emaAtrStop params) :
    (runner.deliver sqrt (candle, position)).memory =
      ((runner.presented sqrt candle position).bind fun context =>
        (EMAAtrReading.ofContext context).toOption.join).elim runner.memory
          fun reading => (params.decide position reading runner.memory).2 := by
  rw [deliver, onCandle_eq, drives]
  cases presents : runner.presented sqrt candle position with
  | none => rfl
  | some context =>
      have same := position_of_presented presents
      rw [Option.bind_some]
      cases read : EMAAtrReading.ofContext context with
      | error raised =>
          have raises : (emaAtrStop params).onCandle context runner.memory = .error raised := by
            simp only [emaAtrStop, read]
            rfl
          simp only [raises]
          rfl
      | ok reading =>
          cases reading with
          | none =>
              simp only [emaAtrStop_of_none read]
              rfl
          | some reading =>
              simp only [emaAtrStop_of_reading read, same]
              rfl

theorem strategy_deliver (delivery : CandleReceived × PositionView) :
    (runner.deliver sqrt delivery).strategy = runner.strategy := by
  rcases exists_deliver_eq sqrt runner delivery with ⟨memory, after⟩
  rw [after]
  rfl

end LiveStrategyRunner

/-- The strategy remembers what the watch says, where it compares with the level of the watch. -/
theorem StopWatch.remembered_look {params : EMAAtrStopParams} {position : PositionView}
    {reading : EMAAtrReading} {stop : Option ℚ} {watch : StopWatch}
    (same : position.qty ≠ 0 → stop.getD (params.anchor position reading) =
      watch.expected (params.anchor position reading)) :
    (params.decide position reading stop).2 = (watch.look params position reading).remembered := by
  rw [StopWatch.look]
  by_cases flat : position.qty = 0
  · rw [EMAAtrStopParams.decide_of_flat flat, if_pos flat]
    rfl
  · rw [EMAAtrStopParams.decide_of_held flat, same flat, if_neg flat]
    by_cases stays : reading.exitSignal (watch.expected (params.anchor position reading)) = none
    · rw [if_pos stays, if_pos stays]
      rfl
    · rw [if_neg stays, if_neg stays]
      rfl

/-- With a stop that was anchored once so far, the comparison is right where nothing disturbs
it, and only there. -/
theorem StopLook.anchoredOnce_iff {params : EMAAtrStopParams} {look : StopLook}
    (remembers : look.stop = look.watch.remembered) :
    look.AnchoredOnce params ↔ look.Undisturbed params := by
  rw [AnchoredOnce, compared, Undisturbed, remembers]
  cases look.watch with
  | unseen => simp [StopWatch.remembered, StopWatch.expected, StopWatch.pending]
  | holding level => simp [StopWatch.remembered, StopWatch.expected, StopWatch.pending]
  | exiting level => simp [StopWatch.remembered, StopWatch.expected, StopWatch.pending]
  | closed level => simp [StopWatch.remembered, StopWatch.expected, StopWatch.pending, eq_comm]

namespace StopSession

variable {setup : StopSession ω} {watched : Watched ω} {event : StopEvent ω setup.instrumentKey}

/-- The decision at a look is taken by the compared level. -/
theorem onCandle_of_lookOf {candle : CandleReceived} {draw : Draw} {look : StopLook}
    (drives : watched.runner.strategy = emaAtrStop setup.params)
    (looks : setup.lookOf (watched, .candle candle draw) = some look) :
    (watched.runner.onCandle setup.sqrt candle (setup.position watched.toStopState)).map Prod.fst =
      .ok (look.reading.exitSignal (look.compared setup.params)) := by
  simp only [lookOf] at looks
  split_ifs at looks with flat
  rcases Option.map_eq_some_iff.mp looks with ⟨reading, read, rfl⟩
  rcases Option.bind_eq_some_iff.mp read with ⟨context, presents, available⟩
  have reads : EMAAtrReading.ofContext context = .ok (some reading) := by
    cases result : EMAAtrReading.ofContext context with
    | error raised => simp [result, Except.toOption] at available
    | ok found => simpa [result, Except.toOption] using available
  rw [LiveStrategyRunner.onCandle_eq, drives, presents]
  simp only [emaAtrStop_of_reading reads]
  rw [LiveStrategyRunner.position_of_presented presents, EMAAtrStopParams.decide_of_held flat]
  rfl

/-- The stop of the runner is the one that the watch says. -/
structure Watches (setup : StopSession ω) (watched : Watched ω) : Prop where
  drives : watched.runner.strategy = emaAtrStop setup.params
  stop : watched.runner.memory = watched.watch.remembered

theorem lookOf_candle {candle : CandleReceived} {draw : Draw} {reading : EMAAtrReading}
    (held : (setup.position watched.toStopState).qty ≠ 0)
    (read : setup.reading watched.toStopState candle = some reading) :
    setup.lookOf (watched, .candle candle draw) = some ⟨setup.position watched.toStopState, reading,
      watched.runner.memory, watched.watch⟩ := by
  simp only [lookOf, if_neg held, read, Option.map_some]

theorem remembered_watchedStep (setup : StopSession ω) (watched : Watched ω)
    (event : StopEvent ω setup.instrumentKey) :
    (setup.watchedStep watched event).watch.remembered = (setup.seen watched event).remembered := by
  rw [watchedStep]
  split_ifs
  · exact StopWatch.remembered_close _
  · rfl

theorem Watches.step (watches : setup.Watches watched)
    (anchored : ∀ look, setup.lookOf (watched, event) = some look →
      look.AnchoredOnce setup.params) : setup.Watches (setup.watchedStep watched event) := by
  cases event with
  | other event apart =>
      refine ⟨watches.drives, ?_⟩
      rw [remembered_watchedStep]
      exact watches.stop
  | candle candle draw =>
      refine ⟨(LiveStrategyRunner.strategy_deliver _).trans watches.drives, ?_⟩
      rw [remembered_watchedStep, seen]
      refine (LiveStrategyRunner.memory_deliver watches.drives).trans ?_
      change (setup.reading watched.toStopState candle).elim _ _ = _
      cases read : setup.reading watched.toStopState candle with
      | none => exact watches.stop
      | some reading =>
          refine StopWatch.remembered_look fun held => ?_
          exact anchored _ (lookOf_candle held read)

theorem Watches.stop_eq (watches : setup.Watches watched) {look : StopLook}
    (looked : setup.lookOf (watched, event) = some look) : look.stop = look.watch.remembered := by
  cases event with
  | other event apart => cases looked
  | candle candle draw =>
      simp only [lookOf] at looked
      split_ifs at looked
      rcases Option.map_eq_some_iff.mp looked with ⟨reading, _, rfl⟩
      exact watches.stop

/-- Along a run every comparison is right if and only if nothing disturbs one. -/
theorem Watches.looks_iff (watches : setup.Watches watched)
    (events : List (StopEvent ω setup.instrumentKey)) :
    (∀ look ∈ (runTrace setup.watchedStep watched events).filterMap setup.lookOf,
      look.AnchoredOnce setup.params) ↔
      ∀ look ∈ (runTrace setup.watchedStep watched events).filterMap setup.lookOf,
        look.Undisturbed setup.params := by
  induction events generalizing watched with
  | nil => simp [runTrace]
  | cons event events ih =>
      rw [runTrace, List.filterMap_cons]
      cases found : setup.lookOf (watched, event) with
      | none => exact ih (watches.step fun look looked => by rw [found] at looked; cases looked)
      | some look =>
          have remembers := watches.stop_eq found
          have here : look.AnchoredOnce setup.params ↔ look.Undisturbed setup.params :=
            StopLook.anchoredOnce_iff remembers
          simp only [List.forall_mem_cons, here]
          refine and_congr_right fun undisturbed => ih (watches.step fun other looked => ?_)
          rw [found, Option.some.injEq] at looked
          exact looked ▸ here.mpr undisturbed

end StopSession

namespace StopSession

/-- A paper session with short averages. -/
def sample : StopSession (List String) where
  orchestrator := Orchestrator.sampleSession .paper
  sqrt := id
  params := .shortest
  instrumentKey := "NSE_EQ|INFY"
  instrument := ⟨1, "INFY", "NSE_EQ|INFY", 1 / 20⟩
  drives := by decide +kernel

/-- Five shares at 100 behind a kill switch that refuses every order. -/
def heldStore : DB where
  instruments := Orchestrator.sampleInstruments
  positions := AList.insert ⟨1, .paper⟩ ⟨5, 100, 0⟩ ∅
  killSwitchState := some { tripped := true }

/-- Bars of the sample instrument with these closes. -/
def sampleBars (closes : List ℚ) : List (StopEvent (List String) sample.instrumentKey) :=
  closes.zipIdx.map fun bar =>
    .candle ((flatBar bar.2 bar.1).received "NSE_EQ|INFY" .m1) ⟨0, "", "", 0⟩

/-- The sample session before its first bar. -/
def sampleState (runner : LiveStrategyRunner (Option ℚ)) : StopState (List String) :=
  ⟨{ Orchestrator.sampleStart with db := heldStore }, runner⟩

/-- The looks of the sample session at some bars. -/
def sampleLooks (closes : List ℚ) : Option (List StopLook) :=
  (LiveStrategyRunner.new (emaAtrStop sample.params) none).toOption.map fun runner =>
    sample.looks (sampleState runner) (sampleBars closes)

end StopSession

end PersonalTrade
