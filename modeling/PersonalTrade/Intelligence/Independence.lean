import PersonalTrade.Intelligence.ScreenerAgreement
import PersonalTrade.Intelligence.Totality
import PersonalTrade.Intelligence.VetoOnly

/-!
# Independence of the recommendations

A cycle calls one strategy object for all instruments. What it remembers of one
instrument reaches the next ones: a stop level left by a held instrument decides over
the position in another one.
-/

namespace PersonalTrade

variable {σ : Type}

/-- The object that the command constructs for a cycle. -/
def RegisteredStrategy.construct (registered : RegisteredStrategy) :
    FreshStrategy registered.Memory := ⟨registered.strategy, registered.fresh⟩

namespace CycleSetup

variable {setup : CycleSetup}

/-- The basis on which a cycle recommends a symbol, if it does. -/
def basisFor (setup : CycleSetup) (strategy : FreshStrategy σ) (service : AIService)
    (candlesBySymbol : CandlesBySymbol) (symbol : String) : Except PyError (Option Basis) :=
  (setup.run strategy service candlesBySymbol).map fun rows =>
    (rows.map ScreenedRecommendation.basis).find? fun basis => basis.instrument.symbol = symbol

/-- In lists whose entries have different keys, an entry is found by its key. -/
theorem find?_eq_some_iff_mem {α β : Type} [DecidableEq β] {key : α → β} {entries : List α}
    (distinct : (entries.map key).Nodup) {wanted : β} {entry : α} :
    entries.find? (fun entry => key entry = wanted) = some entry ↔
      entry ∈ entries ∧ key entry = wanted := by
  constructor
  · intro found
    exact ⟨List.mem_of_find?_eq_some found, by simpa using List.find?_some found⟩
  · rintro ⟨mem, own⟩
    cases found : entries.find? fun entry => key entry = wanted with
    | none =>
        have other := List.find?_eq_none.mp found entry mem
        simp [own] at other
    | some other =>
        have otherOwn : key other = wanted := by simpa using List.find?_some found
        have same := List.inj_on_of_nodup_map distinct (List.mem_of_find?_eq_some found) mem
          (otherOwn.trans own.symm)
        rw [same]

/-- The basis for a symbol does not depend on the analyses. -/
theorem basisFor_eq (setup : CycleSetup) (strategy : FreshStrategy σ) (service : AIService)
    (candlesBySymbol : CandlesBySymbol) (symbol : String) :
    setup.basisFor strategy service candlesBySymbol symbol =
      (setup.bases strategy candlesBySymbol).map fun bases =>
        bases.find? fun basis => basis.instrument.symbol = symbol := by
  rw [basisFor]
  cases ran : setup.run strategy service candlesBySymbol with
  | error raised =>
      rw [bases_of_raised ran]
      rfl
  | ok rows =>
      rcases bases_of_ran ran with ⟨bases, screened, perm, _⟩
      have distinct := nodup_symbols screened
      have distinct' := (perm.map fun basis => basis.instrument.symbol).nodup_iff.mpr distinct
      rw [screened, Except.map, Except.map, Except.ok.injEq]
      apply Option.ext
      intro basis
      rw [find?_eq_some_iff_mem distinct, find?_eq_some_iff_mem distinct', perm.mem_iff]

/-- The basis of an instrument with a new strategy object. -/
def ownBasis (setup : CycleSetup) (strategy : FreshStrategy σ)
    (entry : Sigma fun _ : String => List CandleRow) : Option Basis :=
  (setup.basisOf strategy.strategy entry.1 entry.2 strategy.fresh).toOption.bind Prod.fst

theorem symbol_of_ownBasis {strategy : FreshStrategy σ}
    {entry : Sigma fun _ : String => List CandleRow} {basis : Basis}
    (own : setup.ownBasis strategy entry = some basis) : basis.instrument.symbol = entry.1 := by
  rw [ownBasis] at own
  cases screened : setup.basisOf strategy.strategy entry.1 entry.2 strategy.fresh with
  | error raised =>
      rw [screened] at own
      cases own
  | ok decision =>
      rw [screened] at own
      rcases decision with ⟨found, after⟩
      simp only [Except.toOption, Option.bind_some] at own
      subst found
      exact symbol_of_basisOf screened

/-- A turn of the loop decides as a new object would, and keeps what is known of the memory. -/
def DecidesAlone (setup : CycleSetup) (strategy : FreshStrategy σ) (known : σ → Prop)
    (entry : Sigma fun _ : String => List CandleRow) : Prop :=
  ∀ memory, known memory → ∃ after, known after ∧
    setup.basisOf strategy.strategy entry.1 entry.2 memory =
      .ok (setup.ownBasis strategy entry, after)

theorem foldlM_screenBasis {strategy : FreshStrategy σ} {known : σ → Prop}
    {entries : List (Sigma fun _ : String => List CandleRow)}
    (alone : ∀ entry ∈ entries, setup.DecidesAlone strategy known entry) {memory : σ}
    (start : known memory) (found : List Basis) :
    ∃ after, entries.foldlM (setup.screenBasis strategy.strategy) (memory, found) =
      .ok (after, found ++ entries.filterMap (setup.ownBasis strategy)) := by
  induction entries generalizing memory found with
  | nil => exact ⟨memory, by rw [List.filterMap_nil, List.append_nil]; rfl⟩
  | cons entry entries ih =>
      rcases alone entry List.mem_cons_self memory start with ⟨next, known, turned⟩
      rcases ih (fun later mem => alone later (List.mem_cons_of_mem _ mem)) known
        (found ++ (setup.ownBasis strategy entry).toList) with ⟨after, rest⟩
      refine ⟨after, ?_⟩
      rw [List.foldlM_cons, screenBasis]
      simp only [turned, bind, Except.bind, pure, Except.pure]
      rw [rest, List.append_assoc]
      cases own : setup.ownBasis strategy entry <;> simp [own]

/-- Where every turn decides as a new object would, so does the cycle. -/
theorem basisFor_of_alone {strategy : FreshStrategy σ} {known : σ → Prop}
    {candlesBySymbol : CandlesBySymbol}
    (alone : ∀ entry ∈ candlesBySymbol.entries, setup.DecidesAlone strategy known entry)
    (start : known strategy.fresh) (service : AIService) {symbol : String}
    {candles : List CandleRow} (watched : candlesBySymbol.lookup symbol = some candles) :
    setup.basisFor strategy service candlesBySymbol symbol =
      .ok (setup.ownBasis strategy ⟨symbol, candles⟩) := by
  rcases foldlM_screenBasis alone start [] with ⟨after, looped⟩
  have screened : setup.bases strategy candlesBySymbol =
      .ok (candlesBySymbol.entries.filterMap (setup.ownBasis strategy)) := by
    rw [bases, looped]
    rfl
  rw [basisFor_eq, screened, Except.map, Except.ok.injEq]
  apply Option.ext
  intro basis
  rw [find?_eq_some_iff_mem (nodup_symbols screened), List.mem_filterMap]
  constructor
  · rintro ⟨⟨⟨other, otherCandles⟩, entry, own⟩, same⟩
    have otherSymbol := symbol_of_ownBasis own
    rw [same] at otherSymbol
    change symbol = other at otherSymbol
    subst other
    rw [AList.mem_lookup_iff.mpr entry, Option.some.injEq] at watched
    rw [← watched]
    exact own
  · intro own
    exact ⟨⟨⟨symbol, candles⟩, AList.mem_lookup_iff.mp watched, own⟩, symbol_of_ownBasis own⟩

/-! ## The stop that is carried over -/

/-- A held instrument with what the stop strategy reads of it. -/
def Held (setup : CycleSetup) (params : EMAAtrStopParams)
    (entry : Sigma fun _ : String => List CandleRow) (position : PositionView)
    (reading : EMAAtrReading) : Prop :=
  ∃ instrument context, getBySymbol setup.instruments entry.1 setup.exchange = some instrument ∧
    setup.position instrument = position ∧ position.qty ≠ 0 ∧
    latestContext setup.sqrt (emaAtrStop params) entry.2 position = .ok (some context) ∧
    EMAAtrReading.ofContext context = .ok (some reading)

theorem basisOf_of_context {strategy : Strategy σ} {symbol : String} {candles : List CandleRow}
    {instrument : ListedInstrument} {context : StrategyContext} {memory : σ}
    {decision : Option Signal × σ}
    (listed : getBySymbol setup.instruments symbol setup.exchange = some instrument)
    (found : latestContext setup.sqrt strategy candles (setup.position instrument) =
      .ok (some context))
    (decided : strategy.onCandle context memory = .ok decision) :
    setup.basisOf strategy symbol candles memory =
      .ok (decision.1.map (Basis.mk instrument (setup.position instrument).qty), decision.2) := by
  rw [basisOf, listed]
  simp only [latestSignal, found, bind, Except.bind, decided]
  rfl

/-- The context of the screener has the position it was asked for. -/
theorem position_of_latestContext {sqrt : ℚ → ℚ} {strategy : Strategy σ}
    {candles : List CandleRow} {position : PositionView} {context : StrategyContext}
    (found : latestContext sqrt strategy candles position = .ok (some context)) :
    context.position = position := by
  rw [latestContext] at found
  split at found
  · cases found
  · rcases except_bind_eq_ok.mp found with ⟨series, _, made⟩
    split at made <;> cases made
    rfl

/-- A turn with a held instrument follows the stop that is remembered, or else its own. -/
theorem Held.basisOf {params : EMAAtrStopParams} {entry : Sigma fun _ : String => List CandleRow}
    {position : PositionView} {reading : EMAAtrReading}
    (held : setup.Held params entry position reading) :
    ∃ instrument : ListedInstrument, ∀ memory : Option ℚ,
      setup.basisOf (emaAtrStop params) entry.1 entry.2 memory =
        .ok ((reading.exitSignal (memory.getD (params.anchor position reading))).map
            (Basis.mk instrument position.qty),
          if reading.exitSignal (memory.getD (params.anchor position reading)) = none then
            some (memory.getD (params.anchor position reading))
          else none) := by
  rcases held with ⟨instrument, context, listed, rfl, nonflat, found, read⟩
  refine ⟨instrument, fun memory => ?_⟩
  have turned := basisOf_of_context listed found (emaAtrStop_of_reading read memory)
  rw [turned, position_of_latestContext found, EMAAtrStopParams.decide_of_held nonflat]

/-- A turn of the loop with the stop strategy: it leaves the memory alone, or clears it, or the
instrument is held. -/
theorem basisOf_emaAtrStop (setup : CycleSetup) (params : EMAAtrStopParams)
    (entry : Sigma fun _ : String => List CandleRow) :
    (∃ basis, ∀ memory, setup.basisOf (emaAtrStop params) entry.1 entry.2 memory =
      .ok (basis, memory)) ∨
    (∃ basis, ∀ memory, setup.basisOf (emaAtrStop params) entry.1 entry.2 memory =
      .ok (basis, none)) ∨
    ∃ position reading, setup.Held params entry position reading := by
  cases listed : getBySymbol setup.instruments entry.1 setup.exchange with
  | none =>
      left
      refine ⟨none, fun memory => ?_⟩
      rw [basisOf, listed]
      rfl
  | some instrument =>
      rcases (RegisteredStrategy.emaAtrStop params).latestContext_ok setup.sqrt entry.2
        (setup.position instrument) with ⟨context, found, supplied⟩
      change latestContext setup.sqrt (emaAtrStop params) _ _ = _ at found
      cases context with
      | none =>
          left
          refine ⟨none, fun memory => ?_⟩
          rw [basisOf, listed]
          simp only [latestSignal, found, bind, Except.bind]
          rfl
      | some context =>
          rcases supplied context rfl with ⟨own, supplies⟩
          rcases EMAAtrReading.ofContext_ok supplies with ⟨reading, read⟩
          cases reading with
          | none =>
              left
              exact ⟨none, fun memory =>
                basisOf_of_context listed found (emaAtrStop_of_none read memory)⟩
          | some reading =>
              by_cases flat : (setup.position instrument).qty = 0
              · right; left
                refine ⟨reading.entrySignal.map
                  (Basis.mk instrument (setup.position instrument).qty), fun memory => ?_⟩
                have turned := basisOf_of_context listed found (emaAtrStop_of_reading read memory)
                rw [turned, own, EMAAtrStopParams.decide_of_flat flat]
              · right; right
                exact ⟨_, reading, instrument, context, listed, rfl, flat, found, read⟩

/-- No held instrument that keeps its position has a stop that would decide over another held
instrument otherwise than its own stop. -/
def UnsharedStops (setup : CycleSetup) (params : EMAAtrStopParams) (market : CandlesBySymbol) :
    Prop :=
  ∀ entry ∈ market.entries, ∀ entry' ∈ market.entries, ∀ position reading position' reading',
    setup.Held params entry position reading → setup.Held params entry' position' reading' →
    reading.exitSignal (params.anchor position reading) = none →
    (reading'.close ≤ params.anchor position reading ↔
      reading'.close ≤ params.anchor position' reading')

/-- The memory holds the stop of a held instrument that keeps its position, or none. -/
def StopOf (setup : CycleSetup) (params : EMAAtrStopParams) (market : CandlesBySymbol)
    (memory : Option ℚ) : Prop :=
  ∀ stop ∈ memory, ∃ entry ∈ market.entries, ∃ position reading,
    setup.Held params entry position reading ∧ stop = params.anchor position reading ∧
    reading.exitSignal stop = none

theorem stopOf_none {params : EMAAtrStopParams} {market : CandlesBySymbol} :
    setup.StopOf params market none := nofun

theorem decidesAlone_of_unsharedStops {params : EMAAtrStopParams} {market : CandlesBySymbol}
    (unshared : setup.UnsharedStops params market)
    {entry : Sigma fun _ : String => List CandleRow} (mem : entry ∈ market.entries) :
    setup.DecidesAlone (RegisteredStrategy.emaAtrStop params).construct
      (setup.StopOf params market) entry := by
  intro memory known
  change ∃ after, _ ∧ setup.basisOf (emaAtrStop params) entry.1 entry.2 memory =
    .ok ((setup.basisOf (emaAtrStop params) entry.1 entry.2 none).toOption.bind Prod.fst, after)
  rcases setup.basisOf_emaAtrStop params entry with ⟨basis, keeps⟩ | ⟨basis, clears⟩ |
    ⟨position, reading, held⟩
  · exact ⟨memory, known, by rw [keeps, keeps]; rfl⟩
  · exact ⟨none, stopOf_none, by rw [clears, clears]; rfl⟩
  · rcases held.basisOf with ⟨instrument, decides⟩
    rw [decides, decides, Option.getD_none]
    cases memory with
    | none =>
        refine ⟨_, ?_, rfl⟩
        rw [Option.getD_none]
        split
        · rename_i keeps
          intro stop own
          rw [Option.mem_some_iff] at own
          subst stop
          exact ⟨entry, mem, position, reading, held, rfl, keeps⟩
        · exact stopOf_none
    | some stop =>
        rcases known stop rfl with ⟨other, otherMem, otherPosition, otherReading, otherHeld, rfl,
          kept⟩
        have same := unshared other otherMem entry mem _ _ _ _ otherHeld held kept
        rw [Option.getD_some, EMAAtrReading.exitSignal_eq_iff.mpr same]
        refine ⟨_, ?_, rfl⟩
        split
        · exact known
        · exact stopOf_none

theorem decidesAlone_of_unit {strategy : FreshStrategy Unit}
    {entry : Sigma fun _ : String => List CandleRow}
    (total : ∃ decision, setup.basisOf strategy.strategy entry.1 entry.2 () = .ok decision) :
    setup.DecidesAlone strategy (fun _ => True) entry := by
  rcases total with ⟨decision, ok⟩
  intro memory _
  refine ⟨(), trivial, ?_⟩
  rw [ownBasis]
  change setup.basisOf strategy.strategy entry.1 entry.2 () =
    .ok ((setup.basisOf strategy.strategy entry.1 entry.2 ()).toOption.bind Prod.fst, ())
  rw [ok]
  rfl

theorem basisOf_ok (setup : CycleSetup) (registered : RegisteredStrategy) (symbol : String)
    (candles : List CandleRow) (memory : registered.Memory) :
    ∃ decision, setup.basisOf registered.strategy symbol candles memory = .ok decision := by
  rw [basisOf]
  split
  · exact ⟨_, rfl⟩
  · rename_i instrument _
    rcases registered.latestSignal_ok setup.sqrt candles (setup.position instrument)
      memory with ⟨decision, ok⟩
    simp only [ok, bind, Except.bind]
    exact ⟨_, rfl⟩

/-- The readings of a held instrument are determined. -/
theorem Held.unique {params : EMAAtrStopParams} {entry : Sigma fun _ : String => List CandleRow}
    {position position' : PositionView} {reading reading' : EMAAtrReading}
    (held : setup.Held params entry position reading)
    (held' : setup.Held params entry position' reading') :
    position = position' ∧ reading = reading' := by
  rcases held with ⟨instrument, context, listed, rfl, _, found, read⟩
  rcases held' with ⟨instrument', context', listed', rfl, _, found', read'⟩
  rw [listed, Option.some.injEq] at listed'
  subst instrument'
  rw [found, Except.ok.injEq, Option.some.injEq] at found'
  subst context'
  rw [read, Except.ok.injEq, Option.some.injEq] at read'
  exact ⟨rfl, read'⟩

end CycleSetup

/-- The condition under which the recommendations of a strategy are independent. -/
def RegisteredStrategy.Unshared (setup : CycleSetup) (market : CandlesBySymbol) :
    RegisteredStrategy → Prop
  | .emaAtrStop params => setup.UnsharedStops params market
  | .smaCrossover _ | .rsiMeanReversion _ => True

/-- The recommendations on a part of the market are those on each of its instruments alone. -/
def RegisteredStrategy.Independent (setup : CycleSetup) (service service' : AIService)
    (market : CandlesBySymbol) (registered : RegisteredStrategy) : Prop :=
  ∀ watched : CandlesBySymbol, (∀ entry ∈ watched.entries, entry ∈ market.entries) →
    ∀ symbol candles, watched.lookup symbol = some candles →
      setup.basisFor registered.construct service watched symbol =
        setup.basisFor registered.construct service' (AList.singleton symbol candles) symbol

/-- Where every instrument of the market decides alone, the recommendations are independent. -/
theorem RegisteredStrategy.independent_of_alone {setup : CycleSetup} {market : CandlesBySymbol}
    {registered : RegisteredStrategy} (known : registered.Memory → Prop)
    (start : known registered.fresh)
    (alone : ∀ entry ∈ market.entries, setup.DecidesAlone registered.construct known entry)
    (service service' : AIService) :
    registered.Independent setup service service' market := by
  intro watched part symbol candles found
  have own := CycleSetup.basisFor_of_alone (fun entry mem => alone entry (part entry mem)) start
    service found
  have singleton : ∀ entry ∈ (AList.singleton symbol candles : CandlesBySymbol).entries,
      entry ∈ market.entries := by
    intro entry mem
    rw [List.mem_singleton.mp mem]
    exact part _ (AList.mem_lookup_iff.mp found)
  have single := CycleSetup.basisFor_of_alone
    (fun entry mem => alone entry (singleton entry mem)) start service'
    (AList.mem_lookup_iff.mpr List.mem_cons_self)
  rw [own, single]

namespace CycleSetup

variable {setup : CycleSetup} {params : EMAAtrStopParams}

/-- The basis of a held instrument at the end of a cycle. -/
theorem basisFor_of_held {service : AIService} {candlesBySymbol : CandlesBySymbol}
    {entry : Sigma fun _ : String => List CandleRow} {earlier : List _} {position : PositionView}
    {reading : EMAAtrReading} {instrument : ListedInstrument} {memory : Option ℚ}
    (last : candlesBySymbol.entries = earlier ++ [entry])
    (before : earlier.foldlM (setup.screenBasis (emaAtrStop params)) (none, []) =
      .ok (memory, []))
    (decides : ∀ memory, setup.basisOf (emaAtrStop params) entry.1 entry.2 memory =
      .ok ((reading.exitSignal (memory.getD (params.anchor position reading))).map
          (Basis.mk instrument position.qty),
        if reading.exitSignal (memory.getD (params.anchor position reading)) = none then
          some (memory.getD (params.anchor position reading))
        else none)) :
    setup.basisFor (RegisteredStrategy.emaAtrStop params).construct service candlesBySymbol
        entry.1 =
      .ok ((reading.exitSignal (memory.getD (params.anchor position reading))).map
        (Basis.mk instrument position.qty)) := by
  rw [basisFor_eq, bases, last, List.foldlM_append]
  change Except.map _ ((earlier.foldlM (setup.screenBasis (emaAtrStop params)) (none, []) >>=
    fun state => [entry].foldlM (setup.screenBasis (emaAtrStop params)) state) >>= _) = _
  rw [before]
  simp only [List.foldlM_cons, List.foldlM_nil, screenBasis, decides, bind, Except.bind, pure,
    Except.pure, Except.map, List.nil_append, Except.ok.injEq]
  have own := decides memory
  cases signal : reading.exitSignal (memory.getD (params.anchor position reading)) with
  | none => rfl
  | some signal' =>
      rw [signal] at own
      have symbol := symbol_of_basisOf own
      simpa using symbol

end CycleSetup

/-- Two instruments, both held at an average price of 12. -/
def heldSetup : CycleSetup where
  sqrt := id
  instruments := [⟨⟨1, "ACME", "A", 1⟩, "NSE"⟩, ⟨⟨2, "BOLT", "B", 1⟩, "NSE"⟩]
  db :=
    { instruments := []
      positions := (AList.singleton ⟨1, .paper⟩ ⟨10, 12, 0⟩).insert ⟨2, .paper⟩ ⟨10, 12, 0⟩ }
  recCfg := {}
  now := 0

/-- Four daily bars at 12, the last one with a range. -/
def rangeBars (high low : ℚ) : List CandleRow :=
  [flatBar 0 12, flatBar 86400000 12, flatBar 172800000 12, ⟨259200000, 12, high, low, 12, 1, 0⟩]

/-- The stop strategy on the averages of one and two closes. -/
def tightStop : RegisteredStrategy := stopBelowRange

/-- No provider. -/
def noAnalysis : AIService := ⟨none, default, ⟨.empty, 0⟩⟩

end PersonalTrade
