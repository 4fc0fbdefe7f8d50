import PersonalTrade.Core.Enums

/-!
# Event bus

`EventBus` of `core/events.py`. Handlers run in the order of their subscription, on the call stack
of the publisher: what a handler raises ends the call of `publish`, and the handlers after it are
not called.
-/

namespace PersonalTrade

/-- A handler acts on a state and can raise. -/
abbrev Handler (E S : Type) := E → S → Except PyError Unit × S

/-- `EventBus`. The dictionary of handler lists is the list of its handlers, each with the class
it was registered for. -/
structure EventBus (κ E S : Type) where
  handlers : List (κ × Handler E S) := []

namespace EventBus

variable {κ E S : Type} [DecidableEq κ]

def subscribe (bus : EventBus κ E S) (eventType : κ) (handler : Handler E S) : EventBus κ E S :=
  ⟨bus.handlers ++ [(eventType, handler)]⟩

/-- The loop of `publish`. -/
def callAll (event : E) : List (Handler E S) → S → Except PyError Unit × S
  | [], state => (.ok (), state)
  | handler :: handlers, state =>
      match handler event state with
      | (.ok (), state) => callAll event handlers state
      | (.error raised, state) => (.error raised, state)

/-- `publish`, of an event of the class `eventType`. -/
def publish (bus : EventBus κ E S) (eventType : κ) (event : E) (state : S) :
    Except PyError Unit × S :=
  callAll event ((bus.handlers.filter (·.1 = eventType)).map Prod.snd) state

/-- Publish events one after another, as far as no handler raises. -/
def publishAll (bus : EventBus κ E S) (typeOf : E → κ) : List E → S → Except PyError Unit × S
  | [], state => (.ok (), state)
  | event :: events, state =>
      match bus.publish (typeOf event) event state with
      | (.ok (), state) => publishAll bus typeOf events state
      | (.error raised, state) => (.error raised, state)

/-- A bus that contains what its handlers raise publishes every event to the end. -/
theorem publishAll_of_contained {bus : EventBus κ E S} {typeOf : E → κ} {act : S → E → S}
    (contained : ∀ event state, bus.publish (typeOf event) event state = (.ok (), act state event))
    (events : List E) (state : S) :
    bus.publishAll typeOf events state = (.ok (), events.foldl act state) := by
  induction events generalizing state with
  | nil => rfl
  | cons event events ih =>
      rw [publishAll, contained]
      exact ih _

end EventBus

end PersonalTrade
