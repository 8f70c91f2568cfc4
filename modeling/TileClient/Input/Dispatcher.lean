import TileClient.Input.Command
import TileClient.Input.Pending

/-! The dispatcher: moves may come at any time, and at most one leaves with each tick. -/
namespace TileClient.Input
open Board

/-- The state of a dispatcher. Moves wait in `arrived` until it looks at them, and in `pending`
until the next tick, which is due at `due`. A command for which there is no room is `held`, and
while it is, the dispatcher does nothing else. -/
structure Dispatcher where
  period : Nat
  begun : Bool
  due : Nat
  arrived : List Direction
  /-- How many handles there are through which moves may still be queued. -/
  handles : Nat
  /-- It has been seen that no more moves can come. -/
  drained : Bool
  pending : Pending
  held : Option Command
  ended : Bool
  deriving DecidableEq, Repr

namespace Dispatcher

/-- How late a tick may be taken, in milliseconds, before the later ticks move with it. -/
def tolerance : Nat := 5

def fresh (period : Nat) : Dispatcher where
  period
  begun := false
  due := 0
  arrived := []
  handles := 1
  drained := false
  pending := .empty
  held := none
  ended := false

/-- Queues a move, and tells whether the dispatcher can still take it. -/
def queue (d : Dispatcher) (move : Direction) : Dispatcher × Bool :=
  if d.ended then (d, false) else ({ d with arrived := d.arrived ++ [move] }, true)

def addHandle (d : Dispatcher) : Dispatcher := { d with handles := d.handles + 1 }

/-- One handle less; without any, no more moves can come. -/
def dropHandle (d : Dispatcher) : Dispatcher := { d with handles := d.handles - 1 }

/-- Looks at the moves that have arrived, and then whether more can come. -/
def collect (d : Dispatcher) : Dispatcher :=
  { d with
    pending := d.arrived.foldl Pending.queue d.pending
    arrived := []
    drained := d.drained || d.handles == 0 }

/-- Sends a command, or holds it for lack of room. After the last command, or with nobody to
receive, the dispatcher has ended. -/
def send (d : Dispatcher) (o : Outlet) (c : Command) : Dispatcher × Outlet :=
  if o.closed then ({ d with held := none, ended := true }, o)
  else if o.hasRoom then ({ d with held := none, ended := c = .quit }, o.push c)
  else ({ d with held := some c }, o)

/-- Takes a tick: the latest move leaves, or without one the farewell if no move can come. A
tick taken too late is followed by a whole period. -/
def tick (d : Dispatcher) (now : Nat) (o : Outlet) : Dispatcher × Outlet :=
  let d := { d with due := (if d.due + tolerance < now then now else d.due) + d.period }
  match d.pending.takeLatest with
  | (some move, pending) => { d with pending }.send o (.move move)
  | (none, _) => if d.drained then d.send o .quit else (d, o)

/-- Collects moves and takes the ticks that are due, at most so many. -/
def runTicks (now : Nat) : (limit : Nat) → Dispatcher → Outlet → Dispatcher × Outlet
  | 0, d, o => (if d.ended || d.held.isSome then d else d.collect, o)
  | limit + 1, d, o =>
    if d.ended || d.held.isSome then (d, o)
    else if now < d.due then (d.collect, o)
    else
      let (d, o) := d.collect.tick now o
      runTicks now limit d o

/-- Runs until there is nothing to do at this time. The time of the first run counts as a tick;
a dispatcher without a period ends at once. Every tick moves the next one, so that no more are
due than milliseconds have passed. -/
def run (d : Dispatcher) (now : Nat) (o : Outlet) : Dispatcher × Outlet :=
  if d.ended then (d, o)
  else if d.period = 0 then ({ d with ended := true }, o)
  else
    let d := if d.begun then d else { d with begun := true, due := now + d.period }
    let (d, o) := match d.held with
      | some c => d.send o c
      | none => (d, o)
    runTicks now (now + 2 - d.due) d o

/-- The time of the next tick, while the dispatcher waits for it. -/
def waitsFor? (d : Dispatcher) : Option Nat :=
  if d.begun && !d.ended && d.held.isNone then some d.due else none

end Dispatcher

end TileClient.Input
