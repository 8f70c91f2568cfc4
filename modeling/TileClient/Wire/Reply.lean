import TileClient.Endpoint
import TileClient.Json.Record

/-! The directory's answer: a status word and, once there is a game server, where it listens. -/
namespace TileClient.Wire

/-- A reply; `hostport` is only meaningful when the reply is ready. -/
structure Reply where
  status : String
  hostport : String
  deriving DecidableEq, Repr

namespace Reply

/-- The status of a reply that names a server. -/
def readyStatus : String := "OK"

def isReady (r : Reply) : Bool := r.status == readyStatus

def literalText (text : String) : String := String.ofList (Json.writeLiteral text.toList)

def encode (r : Reply) : String :=
  "\x7b\"Status\":" ++ literalText r.status ++ ",\"Hostport\":" ++ literalText r.hostport ++ "\x7d"

/-- The reply of an object with a member `Status`, or of an array that starts with its value;
without a second value the server's place is the empty text. -/
def ofValue? : Json.Value → Option Reply
  | .object members => do
    let members ← Json.members? members
    let status ← members.required? "Status" (·.text?)
    let hostport ← members.optional? "Hostport" (·.text?) ""
    return ⟨status, hostport⟩
  | .array [status] => do return ⟨← status.text?, ""⟩
  | .array [status, hostport] => do return ⟨← status.text?, ← hostport.text?⟩
  | _ => none

def decode? (text : String) : Option Reply := (Json.Value.parse? text.toList).bind ofValue?

/-- The server that a directory's answer assigns, or why it assigns none. -/
def assigned (body : String) : Except Fault Endpoint :=
  match decode? body with
  | none => .error .replyUndecodable
  | some reply =>
    if reply.isReady then
      match Endpoint.parse reply.hostport with
      | .ok endpoint => .ok endpoint
      | .error cause => .error (.replyMalformed cause.message)
    else .error (.directoryUnready reply.status)

end Reply

end TileClient.Wire
