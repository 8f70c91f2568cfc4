import TileClient.Rehearsal.Link
import TileClient.Text.Span

/-! Background tasks and the script by which the directory and the dials answer. -/
namespace TileClient.Rehearsal

/-- An outcome that comes after a delay in milliseconds, or never. -/
structure Timed (α : Type) where
  delay : Option Nat
  outcome : α

/-- How far a task is: it has not begun, or it waits for its outcome, which comes at a time if
it comes at all. -/
inductive Progress (α : Type) where
  | unbegun
  | waiting (due : Option Nat) (outcome : α)

def Progress.due? {α : Type} : Progress α → Option Nat
  | .unbegun => none
  | .waiting due _ => due

/-- A background task. Each ends by reporting once, but for the pump, which reports every event
of its link. -/
inductive Task where
  | request (attempt : Nat) (progress : Progress (Except Fault String))
  | pause (attempt : Nat) (progress : Progress Unit)
  | dial (epoch : Nat) (endpoint : Endpoint) (progress : Progress (Except Fault Unit))
  | pump (epoch link : Nat)

namespace Task

def name : Task → TaskName
  | .request attempt _ => .request attempt
  | .pause attempt _ => .pause attempt
  | .dial epoch _ _ => .dial epoch
  | .pump epoch _ => .pump epoch

def due? : Task → Option Nat
  | .request _ p => p.due?
  | .pause _ p => p.due?
  | .dial _ _ p => p.due?
  | .pump _ _ => none

end Task

/-- A task under its number, by which it is woken. A cancelled task ends the next time it is
run, without a report. -/
structure Entry where
  id : Nat
  task : Task
  cancelled : Bool

/-- How the outside answers: requests and dials take the first of their list, and the usual
answer once the list is used up. -/
structure Script where
  replies : List (Timed (Except Fault String))
  dials : List (Timed (Except Fault Unit))
  usualReply : Timed (Except Fault String)
  usualDial : Timed (Except Fault Unit)

namespace Script

/-- The reply of a directory that has no server yet. -/
def notReady : String := Wire.Reply.encode ⟨"NotReady", ""⟩

/-- Given answers, then a directory that is never ready and servers that always take a call. -/
def given (replies : List (Timed (Except Fault String))) (dials : List (Timed (Except Fault Unit))) :
    Script :=
  ⟨replies, dials, ⟨some 0, .ok notReady⟩, ⟨some 0, .ok ()⟩⟩

/-- No network: nobody is ever reached. -/
def offline : Script :=
  ⟨[], [], ⟨some 0, .error (.directoryUnreachable "no network")⟩,
    ⟨some 0, .error (.connection "no network")⟩⟩

def nextReply (s : Script) : Timed (Except Fault String) × Script :=
  (s.replies.headD s.usualReply, { s with replies := s.replies.tail })

def nextDial (s : Script) : Timed (Except Fault Unit) × Script :=
  (s.dials.headD s.usualDial, { s with dials := s.dials.tail })

end Script

/-- A request waits no longer than the timeout; an answer at the very timeout still counts. -/
def withinTimeout (timeout : Nat) (reply : Timed (Except Fault String)) :
    Nat × Except Fault String :=
  match reply.delay with
  | some delay => if delay ≤ timeout then (delay, reply.outcome) else (timeout, late)
  | none => (timeout, late)
where
  /-- What a request reports that was not answered in time. -/
  late : Except Fault String :=
    .error (.directoryUnreachable ("no reply within " ++ Text.span timeout))

end TileClient.Rehearsal
