import TileClient.Play
import TileClient.Rehearsal.Stage

/-! What can be put on stage: a discovery alone, a connection, or a whole client and its runs. -/
namespace TileClient.Rehearsal

/-- A discovery with the reports it has taken, newest first: when, what, and the server that it
named on them. -/
structure DiscoveryAct where
  discovery : Discovery
  handled : List (Nat × DiscoveryMessage × Option Endpoint)

namespace DiscoveryAct

def part : Part DiscoveryAct
  | now, act, .discovery m =>
    let (discovery, effects, found) := act.discovery.handle m
    (⟨discovery, (now, m, found) :: act.handled⟩, effects)
  | _, act, _ => (act, [])

def fresh : DiscoveryAct := ⟨.idle, []⟩

/-- Changes the discovery by one of its own steps. -/
def step (stage : Stage DiscoveryAct) (f : Discovery → Discovery × List Effect) :
    Stage DiscoveryAct :=
  let (discovery, effects) := f stage.actor.discovery
  ⟨stage.back.performAll effects, { stage.actor with discovery }⟩

end DiscoveryAct

/-- A connection whose handlers write down tags, with the reports it has taken and what its
handlers have written, newest first. -/
structure ConnectionAct (ω : Type) where
  connection : Connection ω
  available : Bool
  handled : List Message
  heard : List ω

namespace ConnectionAct

variable {ω : Type}

def fresh (available : Bool) : ConnectionAct ω := ⟨.fresh, available, [], []⟩

def part : Part (ConnectionAct ω) := fun _ act m =>
  let (connection, effects, outputs) := act.connection.handle act.available m
  ({ act with connection, handled := m :: act.handled, heard := outputs.reverse ++ act.heard },
    effects)

def follow (stage : Stage (ConnectionAct ω)) (step : Connection ω × List Effect × List ω) :
    Stage (ConnectionAct ω) :=
  ⟨stage.back.performAll step.2.1,
    { stage.actor with connection := step.1, heard := step.2.2.reverse ++ stage.actor.heard }⟩

/-- Takes over a step that may have failed; a failure changes nothing. -/
def attempt (stage : Stage (ConnectionAct ω))
    (step : Except Fault (Connection ω × List Effect × List ω)) :
    Stage (ConnectionAct ω) × Except Fault Unit :=
  match step with
  | .ok step => (follow stage step, .ok ())
  | .error fault => (stage, .error fault)

def start (stage : Stage (ConnectionAct ω)) : Stage (ConnectionAct ω) × Except Fault Unit :=
  attempt stage (stage.actor.connection.start stage.actor.available)

def connect (stage : Stage (ConnectionAct ω)) (endpoint : Endpoint) :
    Stage (ConnectionAct ω) × Except Fault Unit :=
  attempt stage (stage.actor.connection.connect stage.actor.available endpoint)

def shutdown (stage : Stage (ConnectionAct ω)) : Stage (ConnectionAct ω) :=
  follow stage stage.actor.connection.shutdown

def send (stage : Stage (ConnectionAct ω)) (m : Wire.Move) :
    Stage (ConnectionAct ω) × Except Fault Unit :=
  match stage.actor.connection.session.send stage.back.listening m with
  | .ok effect => ({ stage with back := stage.back.perform effect }, .ok ())
  | .error fault => (stage, .error fault)

/-- A link that no dial made is reported open. -/
def openUncalled (stage : Stage (ConnectionAct ω)) (epoch : Nat) : Stage (ConnectionAct ω) :=
  let (back, link) := stage.back.newLink
  Stage.hand part { stage with back } (.opened epoch link)

end ConnectionAct

/-- A run of a client: whether its loop has begun, and what it has been given and has not taken,
oldest first. -/
structure Run where
  begun : Bool
  given : List Play.Input

/-- A client, with the run that is going on and the outcomes of the earlier ones, newest first.
Without a run nobody takes reports. -/
structure PlayAct where
  play : Play
  available : Bool
  run? : Option Run
  outcomes : List (Except Fault Unit)

namespace PlayAct

def fresh (play : Play) (available : Bool) : PlayAct := ⟨play, available, none, []⟩

def running (act : PlayAct) : Bool := act.run?.isSome

/-- Calls for a run, and tells whether there was none. The loop begins when tasks run next. -/
def call (act : PlayAct) : PlayAct × Bool :=
  if act.running then (act, false) else ({ act with run? := some ⟨false, []⟩ }, true)

/-- Gives the loop of a run something to take, and tells whether it was accepted: there is a run,
and its input has not been closed. -/
def give (act : PlayAct) (input : Play.Input) : PlayAct × Bool :=
  match act.run? with
  | none => (act, false)
  | some run =>
    if run.given.any fun | .inputClosed => true | _ => false then (act, false)
    else ({ act with run? := some { run with given := run.given ++ [input] } }, true)

/-- Ends the run that is going on. What it has not taken is lost. -/
def finish (act : PlayAct) (outcome : Except Fault Unit) : PlayAct :=
  { act with run? := none, outcomes := outcome :: act.outcomes }

def part : Part PlayAct := fun _ act m =>
  let (play, effects) := act.play.handle act.available m
  ({ act with play }, effects)

/-- The loop of a run begins, or the run ends at once. -/
def begin (stage : Stage PlayAct) : Stage PlayAct :=
  match stage.actor.play.begin stage.actor.available with
  | .ok (play, effects) => ⟨stage.back.performAll effects, { stage.actor with play }⟩
  | .error fault =>
    { stage with
      actor := { stage.actor with play := stage.actor.play.excused fault }.finish (.error fault) }

/-- The loop of a run takes one thing that it was given. Nothing is taken after the end. -/
def take (stage : Stage PlayAct) (input : Play.Input) : Stage PlayAct :=
  if stage.actor.running then
    let (play, effects, goesOn) :=
      stage.actor.play.turn stage.actor.available stage.back.listening input
    let actor := { stage.actor with play }
    ⟨stage.back.performAll effects, if goesOn then actor else actor.finish (.ok ())⟩
  else stage

/-- The loop of a run begins, if it has not, and takes what it was given. -/
def catchUp (stage : Stage PlayAct) : Stage PlayAct :=
  match stage.actor.run? with
  | none => stage
  | some run =>
    let stage := if run.begun then stage else begin stage
    let stage := run.given.foldl take stage
    if stage.actor.running then
      { stage with actor := { stage.actor with run? := some ⟨true, []⟩ } }
    else stage

/-- Lets all become quiet: a run takes what it was given and then every report, and between runs
the reports stay. -/
def quiet (stage : Stage PlayAct) : Stage PlayAct :=
  let stage := catchUp stage
  if stage.actor.running then stage.serve part else stage.settle

end PlayAct

end TileClient.Rehearsal
