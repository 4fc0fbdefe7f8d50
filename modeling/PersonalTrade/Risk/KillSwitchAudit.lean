import PersonalTrade.Library.Run
import PersonalTrade.Risk.KillSwitch

/-!
# The audit trail of the kill switch

Runs of the four calls of `KillSwitch`. The singleton row and the audit events are two
records of one history: `Audited` says that they agree, each call keeps it, and the
count of consecutive errors is a count over the calls made.
-/

namespace PersonalTrade

namespace KillSwitch

/-- A call of the kill switch. -/
inductive Call where
  | trip (reason : String) (detail : TripDetail) (now : ℤ)
  | reset (reason : String)
  | recordError (maxConsecutiveErrors : ℕ) (now : ℤ)
  | recordSuccess
deriving DecidableEq

/-- Make a call; a refused reset is rolled back. -/
def call (db : DB) : Call → DB
  | .trip reason detail now => trip reason detail now db
  | .reset reason =>
      match reset reason db with
      | .ok db' => db'
      | .error _ => db
  | .recordError maxConsecutiveErrors now => recordError maxConsecutiveErrors now db
  | .recordSuccess => recordSuccess db

/-- The audit events of the switch, in insertion order. -/
def auditLog (db : DB) : List RiskEvent :=
  db.riskEvents.filter fun event => event.kind = .killSwitch || event.kind = .killSwitchReset

/-- The call breaks an error streak: a success, or a reset that is not refused. -/
def breaksStreak : DB × Call → Bool
  | (_, .recordSuccess) => true
  | (db, .reset _) => isTripped db
  | _ => false

/-- The call records an error. -/
def isError : DB × Call → Bool
  | (_, .recordError _ _) => true
  | _ => false

/-- The errors recorded since the last call that broke the streak. -/
def errorStreak (trace : List (DB × Call)) : ℕ :=
  (trace.reverse.takeWhile fun made => !breaksStreak made).countP isError

/-- A store whose switch was never used. -/
structure Unused (db : DB) : Prop where
  state : db.killSwitch = {}
  log : auditLog db = []

/-- The singleton row agrees with the audit events, after `streak` errors in a row. -/
structure Audited (db : DB) (streak : ℕ) : Prop where
  alternates : ∀ (i : ℕ) (event : RiskEvent), (auditLog db)[i]? = some event →
    event.kind = if Even i then .killSwitch else .killSwitchReset
  tripped : isTripped db = true ↔ ¬ Even (auditLog db).length
  reason : isTripped db = true → ∃ reason detail, db.killSwitch.reason = some reason ∧
    (auditLog db).getLast? = some ⟨.killSwitch, .killSwitch reason detail⟩
  noReason : isTripped db = false → db.killSwitch.reason = none
  streak : db.killSwitch.consecutiveErrors = streak

theorem errorStreak_concat (trace : List (DB × Call)) (made : DB × Call) :
    errorStreak (trace ++ [made]) =
      if breaksStreak made then 0 else errorStreak trace + if isError made then 1 else 0 := by
  simp only [errorStreak, List.reverse_append, List.reverse_singleton, List.singleton_append,
    List.takeWhile_cons]
  cases breaks : breaksStreak made <;> simp [List.countP_cons]

theorem auditLog_addRiskEvent (db : DB) (event : RiskEvent)
    (audits : event.kind = .killSwitch ∨ event.kind = .killSwitchReset) :
    auditLog (db.addRiskEvent event) = auditLog db ++ [event] := by
  simp [auditLog, DB.addRiskEvent, List.filter_append, audits]

theorem alternates_append {log : List RiskEvent}
    (alternates : ∀ (i : ℕ) (event : RiskEvent), log[i]? = some event →
      event.kind = if Even i then .killSwitch else .killSwitchReset) {appended : RiskEvent}
    (turn : appended.kind = if Even log.length then .killSwitch else .killSwitchReset) :
    ∀ (i : ℕ) (event : RiskEvent), (log ++ [appended])[i]? = some event →
      event.kind = if Even i then .killSwitch else .killSwitchReset := by
  intro i event found
  rcases lt_or_ge i log.length with below | beyond
  · rw [List.getElem?_append_left below] at found
    exact alternates i event found
  · rw [List.getElem?_append_right beyond] at found
    have last : i = log.length := by
      have within := (List.getElem?_eq_some_iff.mp found).1
      simp only [List.length_singleton] at within
      omega
    subst last
    simp only [Nat.sub_self, List.getElem?_cons_zero, Option.some.injEq] at found
    rw [← found]
    exact turn

namespace Audited

variable {db : DB} {streak : ℕ}

theorem setErrors (audited : Audited db streak) (errors : ℕ) :
    Audited (store db { db.killSwitch with consecutiveErrors := errors }) errors :=
  ⟨audited.alternates, audited.tripped, audited.reason, audited.noReason, rfl⟩

theorem touch (audited : Audited db streak) : Audited (KillSwitch.touch db) streak :=
  ⟨audited.alternates, audited.tripped, audited.reason, audited.noReason, audited.streak⟩

theorem trip (audited : Audited db streak) (reason : String) (detail : TripDetail) (now : ℤ) :
    Audited (KillSwitch.trip reason detail now db) streak := by
  unfold KillSwitch.trip
  split_ifs with tripped
  · exact audited.touch
  · have even : Even (auditLog db).length := by
      by_contra odd
      exact tripped (audited.tripped.mpr odd)
    have appended : auditLog ((store db { db.killSwitch with
        tripped := true, reason := some reason, trippedAt := some now }).addRiskEvent
        ⟨.killSwitch, .killSwitch reason detail⟩) =
          auditLog db ++ [⟨.killSwitch, .killSwitch reason detail⟩] :=
      auditLog_addRiskEvent _ _ (.inl rfl)
    refine ⟨?_, ?_, fun _ => ⟨reason, detail, rfl, ?_⟩, fun untripped => ?_, audited.streak⟩
    · rw [appended]
      exact alternates_append audited.alternates (by rw [if_pos even])
    · rw [appended]
      refine iff_of_true rfl ?_
      simpa [Nat.even_add_one] using even
    · rw [appended, List.getLast?_concat]
    · cases untripped

theorem reset (audited : Audited db streak) {reason : String} {db' : DB}
    (accepted : KillSwitch.reset reason db = .ok db') : Audited db' 0 := by
  unfold KillSwitch.reset at accepted
  split_ifs at accepted with tripped
  have odd : ¬ Even (auditLog db).length := audited.tripped.mp tripped
  have appended : auditLog ((store db {}).addRiskEvent
      ⟨.killSwitchReset, .killSwitchReset reason⟩) =
        auditLog db ++ [⟨.killSwitchReset, .killSwitchReset reason⟩] :=
    auditLog_addRiskEvent _ _ (.inr rfl)
  rw [← Except.ok.inj accepted]
  refine ⟨?_, ?_, fun tripped => ?_, fun _ => rfl, rfl⟩
  · rw [appended]
    exact alternates_append audited.alternates (by rw [if_neg odd])
  · rw [appended]
    refine iff_of_false (fun tripped => by cases tripped) ?_
    simpa [Nat.even_add_one] using odd
  · cases tripped

theorem recordError (audited : Audited db streak) (maxConsecutiveErrors : ℕ) (now : ℤ) :
    Audited (KillSwitch.recordError maxConsecutiveErrors now db) (streak + 1) := by
  have counted : Audited (store db { db.killSwitch with
      consecutiveErrors := db.killSwitch.consecutiveErrors + 1 }) (streak + 1) := by
    rw [audited.streak]
    exact audited.setErrors (streak + 1)
  simp only [KillSwitch.recordError]
  split_ifs
  · exact counted.trip _ _ _
  · exact counted

theorem recordSuccess (audited : Audited db streak) :
    Audited (KillSwitch.recordSuccess db) 0 := by
  unfold KillSwitch.recordSuccess
  split_ifs with zero
  · rw [audited.streak] at zero
    rw [← zero]
    exact audited.touch
  · exact audited.setErrors 0

/-- Each call keeps the trail and continues or breaks the streak. -/
theorem call {trace : List (DB × Call)} (audited : Audited db (errorStreak trace))
    (made : Call) : Audited (KillSwitch.call db made) (errorStreak (trace ++ [(db, made)])) := by
  rw [errorStreak_concat]
  cases made with
  | trip reason detail now => exact audited.trip reason detail now
  | recordError maxConsecutiveErrors now => exact audited.recordError maxConsecutiveErrors now
  | recordSuccess => exact audited.recordSuccess
  | reset reason =>
      have breaks : breaksStreak (db, .reset reason) = isTripped db := rfl
      rw [breaks]
      simp only [KillSwitch.call, isError]
      split
      · rename_i accepted
        have tripped : isTripped db = true := by
          by_contra untripped
          simp only [isTripped, Bool.not_eq_true] at untripped
          simp [KillSwitch.reset, untripped] at accepted
        rw [if_pos tripped]
        exact audited.reset accepted
      · rename_i refused
        have untripped : isTripped db = false := by
          by_contra tripped
          simp only [isTripped, Bool.not_eq_false] at tripped
          simp [KillSwitch.reset, tripped] at refused
        simpa [untripped] using audited

end Audited

theorem audited_of_unused {db : DB} (unused : Unused db) : Audited db (errorStreak []) := by
  have untripped : isTripped db = false := by
    rw [isTripped, unused.state]
  refine ⟨?_, ?_, ?_, ?_, by rw [unused.state]; rfl⟩
  · simp [unused.log]
  · simp [unused.log, untripped]
  · simp [untripped]
  · simp [unused.state]

/-- The singleton row agrees with the audit events after any calls. -/
theorem audited_runSteps {start : DB} (unused : Unused start) (calls : List Call) :
    Audited (runSteps call start calls) (errorStreak (runTrace call start calls)) := by
  induction calls using List.reverseRecOn with
  | nil => exact audited_of_unused unused
  | append_singleton calls made ih =>
      rw [runSteps_concat, runTrace_concat]
      exact ih.call made

/-- After any calls on an unused switch: it is tripped exactly when the last audit event is a
trip, the events alternate, the stored reason is that of the last trip, the error count is
the streak, an error trips exactly when the streak gets too long, and an untripped switch
refuses a reset. -/
theorem audit_consistent {start : DB} (unused : Unused start) (calls : List Call) :
    let db := runSteps call start calls
    let streak := errorStreak (runTrace call start calls)
    (isTripped db = true ↔ ∃ event, (auditLog db).getLast? = some event ∧
        event.kind = .killSwitch) ∧
      (∀ (i : ℕ) (event : RiskEvent), (auditLog db)[i]? = some event →
        event.kind = if Even i then .killSwitch else .killSwitchReset) ∧
      (db.killSwitch.reason.isSome ↔ isTripped db = true) ∧
      (∀ reason, db.killSwitch.reason = some reason → ∃ detail,
        (auditLog db).getLast? = some ⟨.killSwitch, .killSwitch reason detail⟩) ∧
      db.killSwitch.consecutiveErrors = streak ∧
      (∀ maxConsecutiveErrors now,
        isTripped db = false ∧ isTripped (recordError maxConsecutiveErrors now db) = true ↔
          isTripped db = false ∧ maxConsecutiveErrors ≤ streak + 1) ∧
      (isTripped db = false → ∀ reason,
        reset reason db = .error .killSwitchNotTripped ∧ call db (.reset reason) = db) := by
  intro db streak
  have audited : Audited db streak := audited_runSteps unused calls
  refine ⟨⟨fun tripped => ?_, ?_⟩, audited.alternates, ⟨fun present => ?_, fun tripped => ?_⟩,
    fun reason stored => ?_, audited.streak, fun maxConsecutiveErrors now => ?_,
    fun untripped reason => ?_⟩
  · rcases audited.reason tripped with ⟨reason, detail, _, last⟩
    exact ⟨_, last, rfl⟩
  · rintro ⟨event, last, kind⟩
    rw [List.getLast?_eq_getElem?] at last
    have turn := audited.alternates _ _ last
    rw [kind] at turn
    refine audited.tripped.mpr fun even => ?_
    have nonempty : (auditLog db).length ≠ 0 := by
      intro empty
      simp [List.length_eq_zero_iff.mp empty] at last
    have odd : ¬ Even ((auditLog db).length - 1) := by
      rcases even with ⟨half, double⟩
      rintro ⟨other, otherDouble⟩
      omega
    simp [odd] at turn
  · by_contra untripped
    simp [audited.noReason (by simpa using untripped)] at present
  · rcases audited.reason tripped with ⟨reason, _, stored, _⟩
    simp [stored]
  · have tripped : isTripped db = true := by
      by_contra untripped
      simp [audited.noReason (by simpa using untripped)] at stored
    rcases audited.reason tripped with ⟨other, detail, otherStored, last⟩
    rw [stored, Option.some.injEq] at otherStored
    exact ⟨detail, otherStored ▸ last⟩
  · rw [isTripped_recordError_iff, audited.streak]
    exact and_congr_right fun untripped => by simp [untripped]
  · have refused : reset reason db = .error .killSwitchNotTripped := by
      simp only [isTripped] at untripped
      simp [reset, untripped]
    exact ⟨refused, by simp [call, refused]⟩

/-- Two errors trip a switch that allows two, and a reset clears it. -/
def sampleCalls : List Call :=
  [.recordError 2 0, .recordError 2 1, .trip "again" .none 2, .reset "checked", .recordError 2 3]

theorem audit_consistent_sample :
    (runSteps call { instruments := [] } sampleCalls).killSwitch.consecutiveErrors = 1 := by
  have unused : Unused { instruments := [] } := ⟨rfl, rfl⟩
  have consistent := audit_consistent unused sampleCalls
  rw [consistent.2.2.2.2.1]
  decide +kernel

end KillSwitch

end PersonalTrade
