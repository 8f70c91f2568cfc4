import TileClient.CommandLine.Reader
import TileClient.DirectoryAddress
import TileClient.Input.MoveSource

/-! From the words of the command line to a client that can be run, or the reason against it. -/
namespace TileClient.CommandLine

/-- The values of the options, the standard ones included. -/
structure Arguments where
  directory : String
  server : Option String
  gridSize : Nat
  retryDelay : Nat
  requestTimeout : Nat
  path : String
  interval : Nat
  moves : Option String
  seed : Option Nat
  deriving DecidableEq, Repr

namespace Arguments

/-- Fills in what is not given. Numbers have been checked when the options were read. -/
def ofGiven (given : List (Flag × String)) : Arguments :=
  let text? (f : Flag) : Option String := given.lookup f
  let number? (f : Flag) : Option Nat := (given.lookup f).bind Flag.number?
  { directory := (text? .directory).getD Settings.standard.directory
    server := text? .server
    gridSize := (number? .gridSize).getD Settings.standard.gridSize
    retryDelay := (number? .retryDelay).getD Settings.standard.retryDelay
    requestTimeout := (number? .requestTimeout).getD Settings.standard.requestTimeout
    path := (text? .path).getD Settings.standard.socketPath
    interval := (number? .interval).getD Settings.standard.moveInterval
    moves := text? .moves
    seed := number? .seed }

def read (words : List String) : Except Refusal Arguments := (Reader.read words).map ofGiven

/-- The settings that the arguments ask for; a server must be an endpoint. -/
def settings (a : Arguments) : Except Violation Settings := do
  let server ← match a.server with
    | some text => (Endpoint.parse text).map some
    | none => pure none
  return {
    directory := a.directory
    server
    gridSize := a.gridSize
    retryDelay := a.retryDelay
    requestTimeout := a.requestTimeout
    socketPath := a.path
    moveInterval := a.interval }

end Arguments

/-- What is wrong with arguments that could be read, and the text that is at fault. -/
inductive Obstacle where
  | server (text : String)
  | moves (detail : String)
  | directory (text : String)
  deriving DecidableEq, Repr

/-- The word for an obstacle, with its text in quotation marks. -/
def Obstacle.report : Obstacle → String
  | .server text | .directory text => "InvalidEndpoint(" ++ Text.quoted text ++ ")"
  | .moves detail => "InvalidMoves(" ++ Text.quoted detail ++ ")"

/-- What is to be done with a command line. Without a script and a seed, the seed of the moves
is left to chance. -/
inductive Launch where
  | refused (r : Refusal)
  | obstructed (o : Obstacle)
  | ready (s : Settings) (directory : DirectoryAddress) (source : Option Input.MoveSource)
  deriving DecidableEq, Repr

namespace Launch

/-- The moves that the arguments ask for. -/
def source (a : Arguments) : Except Obstacle (Option Input.MoveSource) :=
  match a.moves with
  | some text =>
    match Input.MoveSource.scripted text with
    | .ok source => .ok (some source)
    | .error (.invalidMoves detail) => .error (.moves detail)
    | .error fault => .error (.moves fault.message)
  | none => .ok (a.seed.map fun seed => .seeded (UInt64.ofNat seed))

/-- Checks the server, the moves and the directory, in this order. -/
def prepare (a : Arguments) : Except Obstacle Launch := do
  let settings ← match a.settings with
    | .ok settings => pure settings
    | .error _ => throw (.server (a.server.getD ""))
  let source ← source a
  match DirectoryAddress.parse a.directory with
  | .ok address => return .ready settings address source
  | .error _ => throw (.directory a.directory)

def ofWords (words : List String) : Launch :=
  match Arguments.read words with
  | .error r => .refused r
  | .ok a =>
    match prepare a with
    | .ok launch => launch
    | .error o => .obstructed o

/-- The code that the program ends with. An inquiry is answered, and a run that ends has ended
well. -/
def exitCode : Launch → Nat
  | .refused (.inquiry _) => 0
  | .refused _ => 2
  | .obstructed _ => 1
  | .ready _ _ _ => 0

/-- What is reported as the error of the program, if it comes that far. -/
def report? : Launch → Option String
  | .obstructed o => some o.report
  | _ => none

/-- Whether the way to more detailed messages is pointed out: whenever it was not chosen. -/
def hints (logging : Option String) : Bool := logging.isNone

end Launch

end TileClient.CommandLine
