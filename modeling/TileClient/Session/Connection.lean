import TileClient.EventBus
import TileClient.Session.Basic

/-! A session together with the handlers of its events. -/
namespace TileClient

/-- A session and its event bus. Handlers leave outputs of type `ω` and keep nothing else. -/
structure Connection (ω : Type) where
  session : Session
  bus : EventBus SessionEvent Unit ω

namespace Connection

variable {ω : Type}

def fresh : Connection ω := ⟨.fresh, .empty⟩

def on (c : Connection ω) (event : String) (react : SessionEvent → List ω) : Connection ω × Nat :=
  let (bus, id) := c.bus.on event () fun _ data => ((), react data)
  ({ c with bus }, id)

def off (c : Connection ω) (event : String) (id : Nat) : Connection ω × Bool :=
  let (bus, removed) := c.bus.off event id
  ({ c with bus }, removed)

/-- Runs the handlers of the events among some effects, in their order. -/
def tell (c : Connection ω) : List Effect → Connection ω × List ω
  | [] => (c, [])
  | .publish event :: rest =>
    let (bus, outputs) := c.bus.emit event.name event
    let (c, more) := tell { c with bus } rest
    (c, outputs ++ more)
  | _ :: rest => tell c rest

/-- Takes over a new state of the session and tells its events. -/
def settle (c : Connection ω) (step : Session × List Effect) :
    Connection ω × List Effect × List ω :=
  let (c, outputs) := tell { c with session := step.1 } step.2
  (c, step.2, outputs)

def start (c : Connection ω) (available : Bool) :
    Except Fault (Connection ω × List Effect × List ω) :=
  (c.session.start available).map c.settle

def connect (c : Connection ω) (available : Bool) (endpoint : Endpoint) :
    Except Fault (Connection ω × List Effect × List ω) :=
  (c.session.connect available endpoint).map c.settle

def handle (c : Connection ω) (available : Bool) (m : Message) :
    Connection ω × List Effect × List ω :=
  c.settle (c.session.handle available m)

def shutdown (c : Connection ω) : Connection ω × List Effect × List ω :=
  c.settle c.session.shutdown

end Connection

end TileClient
