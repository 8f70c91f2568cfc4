import TileClient.Game.Controller
import TileClient.Input.Command
import TileClient.Session.Connection
import TileClient.Settings

/-! Play: the loop that joins a connection to the game and to the player's commands. -/
namespace TileClient

/-- What the handlers of a connection want done to the game. -/
inductive Reaction where
  | setup
  | update (u : Wire.Update)
  deriving DecidableEq, Repr

/-- The state of a client. `server` is dialled first in every run, if it is given. -/
structure Play where
  connection : Connection Reaction
  controller : Game.Controller
  server : Option Endpoint

/-- One thing that the loop is woken for. The input is closed when no command can come any
more. -/
inductive Play.Input where
  | message (m : Message)
  | command (c : Command)
  | inputClosed
  | interrupt

namespace Play

/-- What a person is told if no connection can be opened at all. -/
def transportNotice : String :=
  "This environment cannot open WebSocket connections, so the game server is unreachable."

/-- A connection whose events reach the game: a round begins with each connection, and every
update is passed on. Errors and losses need nothing done. -/
def wired : Connection Reaction :=
  let c := (Connection.fresh.on "connectionMade" fun _ => [.setup]).1
  let c := (c.on "update" fun | .update u => [.update u] | _ => []).1
  let c := (c.on "connectionError" fun _ => []).1
  (c.on "connectionClosed" fun _ => []).1

def fresh (gridSize : Nat) (server : Option Endpoint) : Play :=
  ⟨wired, .fresh gridSize, server⟩

/-- Does to the game what a handler wants. -/
def react (controller : Game.Controller) : Reaction → Game.Controller
  | .setup => controller.setup
  | .update u => controller.applyUpdate u

/-- Takes over a step of the connection, with the reactions of its handlers. -/
def follow (p : Play) (step : Connection Reaction × List Effect × List Reaction) :
    Play × List Effect :=
  ({ p with connection := step.1, controller := step.2.2.foldl react p.controller }, step.2.1)

/-- Begins a run: dials the given server, or looks for one. -/
def begin (p : Play) (available : Bool) : Except Fault (Play × List Effect) :=
  match p.server with
  | some endpoint => (p.connection.connect available endpoint).map p.follow
  | none => (p.connection.start available).map p.follow

/-- The state after a run that could not begin: a person is told if the failure is one to be
seen. -/
def excused (p : Play) (fault : Fault) : Play :=
  if fault.isUserVisible then { p with controller := p.controller.notify transportNotice } else p

def handle (p : Play) (available : Bool) (m : Message) : Play × List Effect :=
  p.follow (p.connection.handle available m)

/-- Does what the player asks. A move that cannot be sent is dropped; a restart only brings the
notice. -/
def command (p : Play) (listening : Nat → Bool) : Command → Play × List Effect
  | .move d =>
    match p.controller.move d (p.connection.session.send listening) with
    | .ok effect => (p, [effect])
    | .error _ => (p, [])
  | .restart => ({ p with controller := p.controller.restart.1 }, [])
  | .quit => (p, [])

def leave (p : Play) : Play × List Effect := p.follow p.connection.shutdown

/-- One turn of the loop, and whether the run goes on. -/
def turn (p : Play) (available : Bool) (listening : Nat → Bool) :
    Input → Play × List Effect × Bool
  | .message m =>
    let (p, effects) := p.handle available m
    (p, effects, true)
  | .command .quit | .inputClosed | .interrupt =>
    let (p, effects) := p.leave
    (p, effects, false)
  | .command c =>
    let (p, effects) := p.command listening c
    (p, effects, true)

end Play

end TileClient
