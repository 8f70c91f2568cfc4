import TileClient.Fault
import TileClient.Text.Blank
import TileClient.Text.Numeral
import TileClient.Text.Split

/-! Where a game server listens, written `host:port`. -/
namespace TileClient

/-- A host name and a port. Nothing is known of the name but what `parse` demands. -/
structure Endpoint where
  host : String
  port : UInt16
  deriving DecidableEq, Repr

namespace Endpoint

def port? (text : List Char) : Option UInt16 :=
  (Text.numeral? 65535 text).map UInt16.ofNat

/-- The endpoint that a trimmed text names. The port stands after the last colon, so that the
host may hold colons; it may not be empty. -/
def ofTrimmed? (text : List Char) : Option Endpoint := do
  let (host, port) ← Text.splitAtLast? ':' text
  if host.isEmpty then none
  else return ⟨String.ofList host, ← port? port⟩

/-- Reads an endpoint, blanks around it aside. A failure keeps the text as it was given. -/
def parse (text : String) : Except Violation Endpoint :=
  match ofTrimmed? (Text.trim text.toList) with
  | some e => .ok e
  | none => .error (.endpoint text)

def text (e : Endpoint) : String := e.host ++ ":" ++ toString e.port.toNat

/-- The address to open for a game; `path` should start with a slash. -/
def socketUrl (e : Endpoint) (path : String) : String :=
  "ws://" ++ e.host ++ ":" ++ toString e.port.toNat ++ path

end Endpoint

end TileClient
