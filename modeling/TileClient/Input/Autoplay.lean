import TileClient.Input.Dispatcher
import TileClient.Input.MoveSource

/-! Autoplay: a producer plays a source of moves half a period out of step with a dispatcher. -/
namespace TileClient.Input
open Board

/-- The producer's state; `due` is when it next takes a move from its source. -/
structure Producer where
  source : MoveSource
  begun : Bool
  due : Nat
  ended : Bool
  deriving DecidableEq, Repr

/-- The two tasks of an autoplay. -/
inductive Role where
  | dispatcher | producer
  deriving DecidableEq, Repr

/-- A dispatcher with its outlet, perhaps a producer, and the clock. Tasks that are to run stand
in `ready`, and `alarms` holds who is to be woken and when, in the order in which they began to
wait. The log `received` has the newest command first. -/
structure Autoplay where
  now : Nat
  dispatcher : Dispatcher
  producer : Option Producer
  outlet : Outlet
  ready : List Role
  alarms : List (Role × Nat)
  received : List (Nat × Command)
  deriving DecidableEq, Repr

namespace Autoplay

/-- A dispatcher to which moves are queued by hand. -/
def manual (period capacity : Nat) : Autoplay :=
  ⟨0, .fresh period, none, .fresh capacity, [.dispatcher], [], []⟩

/-- A dispatcher to which a source is played. -/
def played (period capacity : Nat) (source : MoveSource) : Autoplay :=
  ⟨0, .fresh period, some ⟨source, false, 0, false⟩, .fresh capacity, [.dispatcher, .producer], [],
    []⟩

def wake (a : Autoplay) (role : Role) : Autoplay :=
  if a.ready.contains role then a else { a with ready := a.ready ++ [role] }

/-- Sets or clears a task's alarm. An alarm that is set already keeps its place. -/
def setAlarm (a : Autoplay) (role : Role) : Option Nat → Autoplay
  | none => { a with alarms := a.alarms.filter (·.1 != role) }
  | some due =>
    if a.alarms.contains (role, due) then a
    else { a with alarms := a.alarms.filter (·.1 != role) ++ [(role, due)] }

def runDispatcher (a : Autoplay) : Autoplay :=
  let (dispatcher, outlet) := a.dispatcher.run a.now a.outlet
  { a with dispatcher, outlet }.setAlarm .dispatcher dispatcher.waitsFor?

/-- Queues a move by hand or from the source, and tells whether it was taken. -/
def queue (a : Autoplay) (move : Direction) : Autoplay × Bool :=
  let (dispatcher, taken) := a.dispatcher.queue move
  ({ a with dispatcher }.wake .dispatcher, taken)

/-- Gives up a handle of the dispatcher. -/
def dropHandle (a : Autoplay) : Autoplay :=
  { a with dispatcher := a.dispatcher.dropHandle }.wake .dispatcher

/-- Half a period, rounded up to the clock's milliseconds. -/
def half (period : Nat) : Nat := (period + 1) / 2

/-- The producer has nothing more to do and gives up its handle. -/
def endProducer (a : Autoplay) (p : Producer) : Autoplay :=
  { a with producer := some { p with ended := true } }.dropHandle

/-- Runs the producer. Its first run only sets its alarm; later it passes one move on at each
alarm, until the source or the dispatcher has ended. -/
def runProducer (a : Autoplay) : Autoplay :=
  match a.producer with
  | none => a
  | some p =>
    if p.ended then a
    else if a.dispatcher.period = 0 then a.endProducer p
    else if !p.begun then
      let due := a.now + half a.dispatcher.period
      { a with producer := some { p with begun := true, due } }.setAlarm .producer (some due)
    else if a.now < p.due then a
    else match p.source.next with
      | (none, source) => a.endProducer { p with source }
      | (some move, source) =>
        let p := { p with source, due := p.due + a.dispatcher.period }
        match a.queue move with
        | (a, true) => { a with producer := some p }.setAlarm .producer (some p.due)
        | (a, false) => a.endProducer p

def run (a : Autoplay) : Role → Autoplay
  | .dispatcher => a.runDispatcher
  | .producer => a.runProducer

/-- Runs the tasks that are to run, at most so many turns. -/
def settleWithin : (turns : Nat) → Autoplay → Autoplay
  | 0, a => a
  | turns + 1, a =>
    match a.ready with
    | [] => a
    | role :: rest => settleWithin turns ({ a with ready := rest }.run role)

/-- Runs the tasks until both wait. Only the producer wakes the other task, once in a turn, so
that five turns are enough. -/
def settle (a : Autoplay) : Autoplay := settleWithin 5 a

/-- Receives one command, if there is one, which may make room for another. -/
def receive (a : Autoplay) : Autoplay :=
  match a.outlet.receive with
  | (none, _) => a
  | (some c, outlet) => { a with outlet, received := (a.now, c) :: a.received }.wake .dispatcher

def close (a : Autoplay) : Autoplay := { a with outlet := a.outlet.close }.wake .dispatcher

/-- Moves the clock and wakes whose time has come, in the order of the alarms. -/
def reach (a : Autoplay) (time : Nat) : Autoplay :=
  let due := a.alarms.filter (·.2 ≤ time)
  (due.map (·.1)).foldl wake { a with now := time, alarms := a.alarms.filter (time < ·.2) }

/-- Settles and receives until nothing comes any more, at most so many commands. -/
def drainWithin : (limit : Nat) → Autoplay → Autoplay
  | 0, a => a.settle
  | limit + 1, a =>
    let a := a.settle
    if a.outlet.waiting.isEmpty then a else drainWithin limit a.receive

/-- Settles and receives until nothing comes any more. A dispatcher can have no more to send at
one time than waits in its outlet, the one held and a late tick's few. -/
def drain (a : Autoplay) : Autoplay :=
  a.drainWithin (a.outlet.waiting.length + Dispatcher.tolerance + 8)

/-- Lets time pass up to `target` from alarm to alarm, with `quiet` done at each of them but the
target. -/
def passWithin (quiet : Autoplay → Autoplay) (target : Nat) : (instants : Nat) → Autoplay → Autoplay
  | 0, a => a
  | instants + 1, a =>
    if a.now < target then
      let a := quiet a
      let next := (((a.alarms.map (·.2)).min?).filter (· ≤ target)).getD target
      passWithin quiet target instants (a.reach next)
    else a

/-- Lets so many milliseconds pass: with `settle` commands are left alone, with `drain` they are
received as they come. Who is due at the end has been woken, but has not run. -/
def pass (quiet : Autoplay → Autoplay) (ms : Nat) (a : Autoplay) : Autoplay :=
  passWithin quiet (a.now + ms) ms a

end Autoplay

end TileClient.Input
