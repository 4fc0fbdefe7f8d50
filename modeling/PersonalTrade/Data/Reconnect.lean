import PersonalTrade.Core.Enums
import PersonalTrade.Library.Run

/-!
# Reconnecting

`data/providers/reconnect.py`, and the loop of `stream_quotes` in `data/providers/upstox.py` as a
machine whose labels are what happens on a connection. The delay after a failure is a capped power,
but the power is computed before it is capped: without a limit on its attempts the stream survives
exactly while that power stays within the floats (`stream_survives_iff`).
-/

namespace PersonalTrade

/-- `ReconnectPolicy`, with the checks of its constructor. -/
structure ReconnectPolicy where
  baseDelay : ℚ
  maxDelay : ℚ
  factor : ℚ
  baseDelay_pos : 0 < baseDelay
  baseDelay_le : baseDelay ≤ maxDelay
  one_lt_factor : 1 < factor

/-- `delay_for`; the power is a float power, which overflows from `2 ^ 1024` on. -/
def ReconnectPolicy.delayFor (policy : ReconnectPolicy) (attempt : ℕ) : Except PyError ℚ :=
  if 2 ^ 1024 ≤ policy.factor ^ attempt then .error .overflowError
  else .ok (min (policy.baseDelay * policy.factor ^ attempt) policy.maxDelay)

namespace ReconnectPolicy

variable (policy : ReconnectPolicy)

/-- The power of an attempt is a float. -/
def InRange (attempt : ℕ) : Prop := policy.factor ^ attempt < 2 ^ 1024

theorem delayFor_eq_ok {attempt : ℕ} {delay : ℚ} : policy.delayFor attempt = .ok delay ↔
    policy.InRange attempt ∧
      delay = min (policy.baseDelay * policy.factor ^ attempt) policy.maxDelay := by
  rw [delayFor, InRange]
  split_ifs with overflows
  · simp [not_lt.mpr overflows]
  · simp [not_le.mp overflows, eq_comm]

theorem one_le_power (attempt : ℕ) : 1 ≤ policy.factor ^ attempt :=
  one_le_pow₀ policy.one_lt_factor.le

/-- A delay lies between the base delay and the cap. -/
theorem delay_bounds {attempt : ℕ} {delay : ℚ} (waits : policy.delayFor attempt = .ok delay) :
    policy.baseDelay ≤ delay ∧ delay ≤ policy.maxDelay := by
  rcases (policy.delayFor_eq_ok).mp waits with ⟨_, rfl⟩
  refine ⟨le_min ?_ policy.baseDelay_le, min_le_right _ _⟩
  exact le_mul_of_one_le_right policy.baseDelay_pos.le (policy.one_le_power attempt)

/-- A later delay is not shorter. -/
theorem delay_mono {attempt later : ℕ} {delay delay' : ℚ} (ordered : attempt ≤ later)
    (waits : policy.delayFor attempt = .ok delay) (waits' : policy.delayFor later = .ok delay') :
    delay ≤ delay' := by
  rcases (policy.delayFor_eq_ok).mp waits with ⟨_, rfl⟩
  rcases (policy.delayFor_eq_ok).mp waits' with ⟨_, rfl⟩
  apply min_le_min_right
  exact mul_le_mul_of_nonneg_left (pow_le_pow_right₀ policy.one_lt_factor.le ordered)
    policy.baseDelay_pos.le

theorem delays_iff {attempt : ℕ} : (∃ delay, policy.delayFor attempt = .ok delay ∧
    policy.baseDelay ≤ delay ∧ delay ≤ policy.maxDelay) ↔ policy.InRange attempt := by
  constructor
  · rintro ⟨delay, waits, _⟩
    exact ((policy.delayFor_eq_ok).mp waits).1
  · intro inRange
    have waits := (policy.delayFor_eq_ok).mpr ⟨inRange, rfl⟩
    exact ⟨_, waits, policy.delay_bounds waits⟩

end ReconnectPolicy

/-! ## The stream -/

/-- The exceptions of a connection that `stream_quotes` catches. -/
inductive StreamFailure where
  | osError (message : String)
  | webSocketException (message : String)
  | marketDataError (message : String)
  | missingAccessToken
deriving DecidableEq, Repr

/-- What happens on a connection: a message, decoded or not, a normal close, or a failure. -/
inductive ConnectionEvent (Quote : Type) where
  | message (decoded : Except String (List Quote))
  | closed
  | failed (failure : StreamFailure)

/-- What `stream_quotes` raises. -/
inductive StreamError where
  | missingAccessToken
  | exceededAttempts (limit : ℤ) (failure : StreamFailure)
  | delay (raised : PyError)
deriving DecidableEq, Repr

/-- The attempt counter, the delays that were slept, the quotes that were yielded, and the
exception that ended the generator. -/
structure QuoteStream (Quote : Type) where
  attempt : ℕ := 0
  slept : List ℚ := []
  yielded : List Quote := []
  raised : Option StreamError := none

namespace QuoteStream

variable {Quote : Type}

/-- The handler of a failure that may be retried. -/
def retry (policy : ReconnectPolicy) (maxAttempts : Option ℤ) (stream : QuoteStream Quote)
    (failure : StreamFailure) : QuoteStream Quote :=
  let attempt := stream.attempt + 1
  match maxAttempts.filter (· < (attempt : ℤ)) with
  | some limit => { stream with attempt, raised := some (.exceededAttempts limit failure) }
  | none =>
      match policy.delayFor (attempt - 1) with
      | .error raised => { stream with attempt, raised := some (.delay raised) }
      | .ok delay => { stream with attempt, slept := stream.slept ++ [delay] }

/-- One event on a connection of `stream_quotes`. -/
def step (policy : ReconnectPolicy) (maxAttempts : Option ℤ) (stream : QuoteStream Quote)
    (event : ConnectionEvent Quote) : QuoteStream Quote :=
  if stream.raised.isSome then stream
  else
    match event with
    | .message decoded =>
        { stream with attempt := 0, yielded := stream.yielded ++ decoded.toOption.getD [] }
    | .closed => stream
    | .failed failure =>
        if failure = .missingAccessToken then { stream with raised := some .missingAccessToken }
        else stream.retry policy maxAttempts failure

end QuoteStream

/-- The failures in a row at the end of a run: those since the last message. -/
def failureStreak {Quote : Type} (events : List (ConnectionEvent Quote)) : ℕ :=
  events.foldl (fun streak event =>
    match event with
    | .message _ => 0
    | .closed => streak
    | .failed _ => streak + 1) 0

/-- No failure comes after so many others in a row that the power of the delay overflows. -/
def ReconnectPolicy.Endures {Quote : Type} (policy : ReconnectPolicy)
    (events : List (ConnectionEvent Quote)) : Prop :=
  ∀ before failure, before ++ [.failed failure] <+: events → policy.InRange (failureStreak before)

section Runs

variable {Quote : Type} {policy : ReconnectPolicy} {events : List (ConnectionEvent Quote)}

theorem failureStreak_concat (event : ConnectionEvent Quote) : failureStreak (events ++ [event]) =
    match event with
    | .message _ => 0
    | .closed => failureStreak events
    | .failed _ => failureStreak events + 1 := by
  rw [failureStreak, List.foldl_concat]
  rfl

theorem failureStreak_le_length : failureStreak events ≤ events.length := by
  induction events using List.reverseRecOn with
  | nil => exact le_rfl
  | append_singleton events event ih =>
      rw [failureStreak_concat, List.length_append, List.length_singleton]
      cases event with
      | message decoded => exact Nat.zero_le _
      | closed => exact ih.trans (Nat.le_succ _)
      | failed failure => exact Nat.succ_le_succ ih

theorem endures_concat (event : ConnectionEvent Quote) : policy.Endures (events ++ [event]) ↔
    policy.Endures events ∧
      ∀ failure, event = .failed failure → policy.InRange (failureStreak events) := by
  simp only [ReconnectPolicy.Endures, List.prefix_concat_iff]
  constructor
  · intro endures
    refine ⟨fun before failure earlier => endures before failure (.inr earlier), ?_⟩
    rintro failure rfl
    exact endures events failure (.inl rfl)
  · rintro ⟨endures, last⟩ before failure (whole | earlier)
    · rcases List.append_inj' whole rfl with ⟨rfl, same⟩
      exact last failure (List.singleton_inj.mp same).symm
    · exact endures before failure earlier

/-- What the stream is after some events without a missing token. -/
structure QuoteStream.Follows (policy : ReconnectPolicy) (events : List (ConnectionEvent Quote))
    (stream : QuoteStream Quote) : Prop where
  survives : stream.raised = none ↔ policy.Endures events
  attempt : stream.raised = none → stream.attempt = failureStreak events
  slept : ∀ delay ∈ stream.slept, policy.baseDelay ≤ delay ∧ delay ≤ policy.maxDelay

/-- A failure keeps the stream alive exactly if its delay does not overflow. -/
theorem QuoteStream.Follows.retry {stream : QuoteStream Quote}
    (follows : stream.Follows policy events) (alive : stream.raised = none)
    (failure : StreamFailure) :
    (stream.retry policy none failure).Follows policy (events ++ [.failed failure]) := by
  have streak := follows.attempt alive
  have endured := follows.survives.mp alive
  have retried : stream.retry policy none failure =
      match policy.delayFor (failureStreak events) with
      | .error raised =>
          { stream with attempt := failureStreak events + 1, raised := some (.delay raised) }
      | .ok delay =>
          { stream with attempt := failureStreak events + 1, slept := stream.slept ++ [delay] } := by
    rw [← streak]
    rfl
  rw [retried]
  cases waits : policy.delayFor (failureStreak events) with
  | error raised =>
      have overflows : ¬ policy.InRange (failureStreak events) := by
        intro inRange
        have same := waits.symm.trans ((policy.delayFor_eq_ok).mpr ⟨inRange, rfl⟩)
        cases same
      refine ⟨iff_of_false (Option.some_ne_none _) ?_, (nomatch ·), follows.slept⟩
      rw [endures_concat]
      exact fun endures => overflows (endures.2 failure rfl)
  | ok delay =>
      have inRange := ((policy.delayFor_eq_ok).mp waits).1
      have counted : failureStreak (events ++ [.failed failure]) = failureStreak events + 1 :=
        failureStreak_concat _
      refine ⟨iff_of_true alive ?_, fun _ => counted.symm, ?_⟩
      · exact (endures_concat _).mpr ⟨endured, fun _ _ => inRange⟩
      · intro slept mem
        rcases List.mem_append.mp mem with earlier | last
        · exact follows.slept slept earlier
        · rw [List.mem_singleton.mp last]
          exact policy.delay_bounds waits

theorem QuoteStream.Follows.step {stream : QuoteStream Quote}
    (follows : stream.Follows policy events) {event : ConnectionEvent Quote}
    (token : event ≠ .failed .missingAccessToken) :
    (stream.step policy none event).Follows policy (events ++ [event]) := by
  by_cases alive : stream.raised = none
  · have going : ¬ stream.raised.isSome = true := by rw [alive, Option.isSome_none, Bool.not_eq_true]
    have endured := follows.survives.mp alive
    unfold QuoteStream.step
    rw [if_neg going]
    cases event with
    | message decoded =>
        have counted : failureStreak (events ++ [.message decoded]) = 0 := failureStreak_concat _
        have endures : policy.Endures (events ++ [.message decoded]) :=
          (endures_concat _).mpr ⟨endured, fun _ same => nomatch same⟩
        exact ⟨iff_of_true alive endures, fun _ => counted.symm, follows.slept⟩
    | closed =>
        have counted : failureStreak (events ++ [.closed]) = failureStreak events :=
          failureStreak_concat _
        have endures : policy.Endures (events ++ [.closed]) :=
          (endures_concat _).mpr ⟨endured, fun _ same => nomatch same⟩
        exact ⟨iff_of_true alive endures, fun _ => (follows.attempt alive).trans counted.symm,
          follows.slept⟩
    | failed failure =>
        have retried : failure ≠ .missingAccessToken := fun same => token (by rw [same])
        simp only [if_neg retried]
        exact follows.retry alive failure
  · have ended : stream.raised.isSome = true := Option.isSome_iff_ne_none.mpr alive
    unfold QuoteStream.step
    rw [if_pos ended]
    refine ⟨iff_of_false alive ?_, fun none => absurd none alive, follows.slept⟩
    rw [endures_concat]
    exact fun endures => alive (follows.survives.mpr endures.1)

/-- A whole run without a missing token. -/
theorem QuoteStream.follows_runSteps (policy : ReconnectPolicy)
    (token : ∀ event ∈ events, event ≠ .failed .missingAccessToken) :
    (runSteps (QuoteStream.step policy none) {} events).Follows policy events := by
  induction events using List.reverseRecOn with
  | nil =>
      refine ⟨iff_of_true rfl ?_, fun _ => rfl, fun _ mem => nomatch mem⟩
      intro before failure earlier
      simp at earlier
  | append_singleton events event ih =>
      rw [runSteps_concat]
      have before := ih fun other mem => token other (List.mem_append_left _ mem)
      exact before.step (token event (by simp))

end Runs

/-- Where the power of an attempt is a float the delay lies between its bounds, and no later delay
is shorter. A stream without a limit on its attempts raises nothing exactly if every failure comes
after so few others in a row that this is the case. -/
theorem stream_survives_iff {Quote : Type} (policy : ReconnectPolicy) :
    (∀ attempt, (∃ delay, policy.delayFor attempt = .ok delay ∧ policy.baseDelay ≤ delay ∧
        delay ≤ policy.maxDelay) ↔ policy.InRange attempt) ∧
      (∀ attempt later delay delay', attempt ≤ later → policy.delayFor attempt = .ok delay →
        policy.delayFor later = .ok delay' → delay ≤ delay') ∧
      ∀ events : List (ConnectionEvent Quote),
        (∀ event ∈ events, event ≠ .failed .missingAccessToken) →
        let stream := runSteps (QuoteStream.step policy none) {} events
        (stream.raised = none ↔ policy.Endures events) ∧
          ∀ delay ∈ stream.slept, policy.baseDelay ≤ delay ∧ delay ≤ policy.maxDelay := by
  refine ⟨fun _ => policy.delays_iff, fun _ _ _ _ => policy.delay_mono, fun events token => ?_⟩
  have follows := QuoteStream.follows_runSteps policy token
  exact ⟨follows.survives, follows.slept⟩

/-! ## The default policy -/

/-- The default factor passes its check. -/
theorem one_lt_defaultFactor : (1 : ℚ) < 2 := one_lt_two

/-- `ReconnectPolicy()`. -/
def defaultReconnect : ReconnectPolicy where
  baseDelay := 1
  maxDelay := 30
  factor := 2
  baseDelay_pos := by norm_num
  baseDelay_le := by norm_num
  one_lt_factor := one_lt_defaultFactor

theorem inRange_defaultReconnect {attempt : ℕ} :
    defaultReconnect.InRange attempt ↔ attempt < 1024 :=
  pow_lt_pow_iff_right₀ one_lt_defaultFactor

/-- Failures before and after a message. -/
def flakyStream : List (ConnectionEvent Unit) :=
  [.failed (.osError "Connection refused"), .failed (.webSocketException "closed"),
    .message (.ok [()]), .closed, .failed (.marketDataError "decode")]

/-- The stream lives through the three failures and sleeps after each. -/
theorem stream_survives_iff_sample :
    let stream := runSteps (QuoteStream.step defaultReconnect none) {} flakyStream
    stream.raised = none ∧ stream.slept.length = 3 ∧
      ∀ delay ∈ stream.slept, 1 ≤ delay ∧ delay ≤ 30 := by
  have token : ∀ event ∈ flakyStream, event ≠ .failed .missingAccessToken := by
    simp [flakyStream]
  rcases (stream_survives_iff defaultReconnect).2.2 flakyStream token with ⟨survives, slept⟩
  refine ⟨survives.mpr ?_, by decide +kernel, slept⟩
  intro before failure earlier
  rw [inRange_defaultReconnect]
  have streak : failureStreak before ≤ before.length := failureStreak_le_length
  have within := earlier.length_le
  simp only [List.length_append, flakyStream, List.length_cons, List.length_nil] at within
  omega

/-- Refused connections. -/
def outage (count : ℕ) : List (ConnectionEvent Unit) :=
  List.replicate count (.failed (.osError "Connection refused"))

theorem failureStreak_outage (count : ℕ) : failureStreak (outage count) = count := by
  induction count with
  | zero => rfl
  | succ count ih =>
      rw [outage, List.replicate_succ', failureStreak_concat]
      exact congrArg (· + 1) ih

/-- After 1024 failures in a row the next one ends the stream. -/
theorem longOutage_ends_stream :
    defaultReconnect.delayFor 1024 = .error .overflowError ∧
      (runSteps (QuoteStream.step defaultReconnect none) {} (outage 1025)).raised ≠ none := by
  refine ⟨if_pos le_rfl, fun alive => ?_⟩
  have token : ∀ event ∈ outage 1025, event ≠ .failed .missingAccessToken := by
    intro event mem
    rw [List.eq_of_mem_replicate mem]
    simp
  have endures := (QuoteStream.follows_runSteps defaultReconnect token).survives.mp alive
  have last := endures (outage 1024) (.osError "Connection refused")
    (by rw [outage, outage, ← List.replicate_succ'])
  rw [failureStreak_outage, inRange_defaultReconnect] at last
  exact lt_irrefl _ last

end PersonalTrade
