import TileClient.Board.Snapshot
import TileClient.Json.Complaint
import TileClient.Text.Quoted

/-! Everything that can go wrong, by cause, and the words for it. -/
namespace TileClient

/-- A value that the other side may not send. -/
inductive Violation where
  | direction (code : UInt8)
  | endpoint (text : String)
  | gridDimension (shape : Board.Misshapen)
  deriving DecidableEq, Repr

def Violation.message : Violation → String
  | .direction code => "invalid direction code " ++ toString code.toNat
  | .endpoint text => "invalid host:port " ++ Text.quoted text
  | .gridDimension shape =>
    "grid snapshot has " ++ toString shape.found ++ " cells along an axis, expected " ++
      toString shape.expected

/-- A failure of the client. Most are absorbed by asking or connecting again. -/
inductive Fault where
  /-- No connection can be opened here at all. -/
  | transportUnavailable
  /-- The directory has no server yet; its status word. -/
  | directoryUnready (status : String)
  /-- The directory's reply is no reply message. -/
  | replyUndecodable
  /-- The directory's reply is a reply message with an unusable part. -/
  | replyMalformed (detail : String)
  | directoryUnreachable (detail : String)
  | connection (reason : String)
  | connectionClosed
  | notConnected
  | restartRejected
  | malformedUpdate (detail : String)
  | invalidMoves (detail : String)
  | invalidAddress (text : String)
  | violation (cause : Violation)
  | unencodable (complaint : Json.Complaint)
  | outputFailed (detail : String)
  deriving DecidableEq, Repr

namespace Fault

def message : Fault → String
  | .transportUnavailable => "no socket transport is available in this environment"
  | .directoryUnready status => "directory is not ready (status " ++ Text.quoted status ++ ")"
  | .replyUndecodable => "directory reply could not be decoded"
  | .replyMalformed detail => "directory reply could not be decoded: " ++ detail
  | .directoryUnreachable detail => "directory request failed: " ++ detail
  | .connection reason => "connection error: " ++ reason
  | .connectionClosed => "connection closed"
  | .notConnected => "not connected to a game server"
  | .restartRejected => "restarting the game is not supported"
  | .malformedUpdate detail => "malformed update from server: " ++ detail
  | .invalidMoves detail => "invalid move script: " ++ detail
  | .invalidAddress text => "invalid address: " ++ text
  | .violation cause => cause.message
  | .unencodable complaint => "could not encode message: " ++ complaint.message
  | .outputFailed detail => detail

/-- Whether a person should see the failure. The others are retried or dropped. -/
def isUserVisible : Fault → Bool
  | .transportUnavailable | .restartRejected => true
  | _ => false

end Fault

end TileClient
