import Std.Data.HashMap

/-! Events by name, and the handlers that run when one is emitted. -/
namespace TileClient

/-- A handler under its id. It keeps a state of its own from run to run, and every run may leave
outputs. -/
structure Subscription (α σ ω : Type) where
  id : Nat
  state : σ
  react : σ → α → σ × List ω

/-- One run of a handler: the subscription for the next run, and what this run left. -/
def Subscription.run {α σ ω : Type} (s : Subscription α σ ω) (data : α) :
    Subscription α σ ω × List ω :=
  let (state, outputs) := s.react s.state data
  ({ s with state }, outputs)

/-- The handlers of every event, each event's in the order of registration. A name without
handlers has no entry. -/
structure EventBus (α σ ω : Type) where
  topics : Std.HashMap String (List (Subscription α σ ω))
  nextId : Nat

namespace EventBus

variable {α σ ω : Type}

def empty : EventBus α σ ω := ⟨∅, 0⟩

def handlers (bus : EventBus α σ ω) (event : String) : List (Subscription α σ ω) :=
  (bus.topics[event]?).getD []

/-- Registers a handler behind the others of its event, under a new id. -/
def on (bus : EventBus α σ ω) (event : String) (state : σ) (react : σ → α → σ × List ω) :
    EventBus α σ ω × Nat :=
  (⟨bus.topics.insert event (bus.handlers event ++ [⟨bus.nextId, state, react⟩]), bus.nextId + 1⟩,
    bus.nextId)

/-- Removes the handler with an id from an event, and tells whether it was there. -/
def off (bus : EventBus α σ ω) (event : String) (id : Nat) : EventBus α σ ω × Bool :=
  match bus.topics[event]? with
  | none => (bus, false)
  | some subscriptions =>
    let kept := subscriptions.filter (·.id != id)
    ({ bus with
        topics := if kept.isEmpty then bus.topics.erase event else bus.topics.insert event kept },
      kept.length != subscriptions.length)

/-- Removes every handler. Ids are not given out again. -/
def clear (bus : EventBus α σ ω) : EventBus α σ ω := { bus with topics := ∅ }

/-- Runs the handlers of an event in the order of registration and collects what they leave. -/
def emit (bus : EventBus α σ ω) (event : String) (data : α) : EventBus α σ ω × List ω :=
  match bus.topics[event]? with
  | none => (bus, [])
  | some subscriptions =>
    let runs := subscriptions.map (·.run data)
    ({ bus with topics := bus.topics.insert event (runs.map (·.1)) }, runs.flatMap (·.2))

def handlerCount (bus : EventBus α σ ω) (event : String) : Nat := (bus.handlers event).length

end EventBus

end TileClient
