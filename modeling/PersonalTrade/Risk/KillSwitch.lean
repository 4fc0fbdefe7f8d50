import PersonalTrade.Store.Repos

/-!
# Kill switch

`risk/kill_switch.py`: the persisted singleton row and its audit events. Only
`reset` can raise.
-/

namespace PersonalTrade

namespace KillSwitch

/-- Store the singleton row. -/
def store (db : DB) (state : KillSwitchState) : DB := { db with killSwitchState := some state }

/-- `state`: read the row, creating it when it is missing. -/
def touch (db : DB) : DB := store db db.killSwitch

/-- `is_tripped`. -/
def isTripped (db : DB) : Bool := db.killSwitch.tripped

/-- `trip`: tripping a tripped switch logs nothing further. -/
def trip (reason : String) (detail : TripDetail) (now : ℤ) (db : DB) : DB :=
  if db.killSwitch.tripped then touch db
  else
    (store db { db.killSwitch with tripped := true, reason := some reason
                                   trippedAt := some now }).addRiskEvent
      ⟨.killSwitch, .killSwitch reason detail⟩

def reset (reason : String) (db : DB) : Except PyError DB :=
  if db.killSwitch.tripped then
    .ok ((store db {}).addRiskEvent ⟨.killSwitchReset, .killSwitchReset reason⟩)
  else .error .killSwitchNotTripped

/-- `record_error`: counts the error and trips once the streak reaches the limit. -/
def recordError (maxConsecutiveErrors : ℕ) (now : ℤ) (db : DB) : DB :=
  let errors := db.killSwitch.consecutiveErrors + 1
  let counted := store db { db.killSwitch with consecutiveErrors := errors }
  if maxConsecutiveErrors ≤ errors ∧ db.killSwitch.tripped = false then
    trip (toString errors ++ " consecutive errors (limit " ++ toString maxConsecutiveErrors ++ ")")
      (.consecutiveErrors errors) now counted
  else counted

/-- `record_success`: breaks an error streak. -/
def recordSuccess (db : DB) : DB :=
  if db.killSwitch.consecutiveErrors = 0 then touch db
  else store db { db.killSwitch with consecutiveErrors := 0 }

@[simp]
theorem killSwitch_store (db : DB) (state : KillSwitchState) :
    (store db state).killSwitch = state := rfl

@[simp]
theorem isTripped_trip (reason : String) (detail : TripDetail) (now : ℤ) (db : DB) :
    isTripped (trip reason detail now db) = true := by
  unfold trip
  split_ifs with tripped
  · exact tripped
  · rfl

theorem isTripped_recordError {maxConsecutiveErrors : ℕ} {now : ℤ} {db : DB}
    (tripped : isTripped db = true) :
    isTripped (recordError maxConsecutiveErrors now db) = true := by
  simp only [recordError]
  split_ifs
  · exact isTripped_trip ..
  · exact tripped

/-- A recorded error leaves the switch tripped if it was, or if the new streak is long
enough. -/
theorem isTripped_recordError_iff (maxConsecutiveErrors : ℕ) (now : ℤ) (db : DB) :
    isTripped (recordError maxConsecutiveErrors now db) = true ↔
      isTripped db = true ∨ maxConsecutiveErrors ≤ db.killSwitch.consecutiveErrors + 1 := by
  simp only [recordError, isTripped]
  split_ifs with trips
  · exact iff_of_true (isTripped_trip ..) (.inr trips.1)
  · rw [not_and] at trips
    constructor
    · exact .inl
    · rintro (tripped | long)
      · exact tripped
      · simpa using trips long

@[simp]
theorem isTripped_recordSuccess (db : DB) : isTripped (recordSuccess db) = isTripped db := by
  unfold recordSuccess
  split_ifs <;> rfl

/-- A trip writes nothing but the singleton row and its audit event. -/
theorem trip_frame (reason : String) (detail : TripDetail) (now : ℤ) (db : DB) :
    (trip reason detail now db).orders = db.orders ∧
      (trip reason detail now db).positions = db.positions ∧
      (trip reason detail now db).trades = db.trades ∧
      (trip reason detail now db).signals = db.signals := by
  unfold trip
  split_ifs <;> exact ⟨rfl, rfl, rfl, rfl⟩

theorem instruments_trip (reason : String) (detail : TripDetail) (now : ℤ) (db : DB) :
    (trip reason detail now db).instruments = db.instruments := by
  unfold trip
  split_ifs <;> rfl

theorem recordError_frame (maxConsecutiveErrors : ℕ) (now : ℤ) (db : DB) :
    (recordError maxConsecutiveErrors now db).orders = db.orders ∧
      (recordError maxConsecutiveErrors now db).positions = db.positions ∧
      (recordError maxConsecutiveErrors now db).trades = db.trades ∧
      (recordError maxConsecutiveErrors now db).signals = db.signals := by
  simp only [recordError]
  split_ifs
  · exact trip_frame ..
  · exact ⟨rfl, rfl, rfl, rfl⟩

end KillSwitch

end PersonalTrade
