import TileClient.Wire.Update
import TileClient.Wire.Reply

/-! The vocabulary between a session, its background tasks and those who listen to it. -/
namespace TileClient

/-- What an open connection brings. -/
inductive LinkEvent where
  | message (text : String)
  | error (reason : String)
  | closed
  deriving DecidableEq, Repr

/-- What the tasks of a discovery report: the outcome of a request, or that a pause is over. -/
inductive DiscoveryMessage where
  | response (attempt : Nat) (body : Except Fault String)
  | retryDue (attempt : Nat)

/-- What the tasks of a session report. A connection is known by the number of its link; the
epoch says for which connection a task was started. -/
inductive Message where
  | discovery (m : DiscoveryMessage)
  | opened (epoch link : Nat)
  | dialFailed (epoch : Nat) (fault : Fault)
  | transport (epoch : Nat) (event : LinkEvent)

/-- What a session tells those who listen. -/
inductive SessionEvent where
  | connectionMade
  | update (u : Wire.Update)
  | connectionError (reason : String)
  | connectionClosed
  deriving DecidableEq, Repr

/-- The name under which handlers register for an event. -/
def SessionEvent.name : SessionEvent → String
  | .connectionMade => "connectionMade"
  | .update _ => "update"
  | .connectionError _ => "connectionError"
  | .connectionClosed => "connectionClosed"

/-- A background task by what it works for. Attempts and epochs are never used twice, so that at
most one task of a name is wanted at any time. -/
inductive TaskName where
  | request (attempt : Nat)
  | pause (attempt : Nat)
  | dial (epoch : Nat)
  | pump (epoch : Nat)
  deriving DecidableEq, Repr

/-- What a step asks of the outside: a task to start or to cancel, a connection to let go of, a
text to send, an event to tell. -/
inductive Effect where
  | request (attempt : Nat)
  | pause (attempt : Nat)
  | dial (epoch : Nat) (endpoint : Endpoint)
  | pump (epoch link : Nat)
  | cancel (task : TaskName)
  | release (link : Nat)
  | transmit (link : Nat) (text : String)
  | publish (event : SessionEvent)
  deriving DecidableEq, Repr

end TileClient
