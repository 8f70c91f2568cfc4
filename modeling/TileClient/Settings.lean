import TileClient.Endpoint

/-! What a client is told before it starts. Times are in milliseconds. -/
namespace TileClient

/-- The settings of a client. `server` names the first game server and spares the directory. -/
structure Settings where
  directory : String
  server : Option Endpoint
  gridSize : Nat
  retryDelay : Nat
  requestTimeout : Nat
  socketPath : String
  moveInterval : Nat
  deriving DecidableEq, Repr

namespace Settings

def directoryPort : UInt16 := 25340

def standard : Settings where
  directory := "http://localhost:25340/"
  server := none
  gridSize := 4
  retryDelay := 1000
  requestTimeout := 5000
  socketPath := "/abc"
  moveInterval := 500

end Settings

end TileClient
