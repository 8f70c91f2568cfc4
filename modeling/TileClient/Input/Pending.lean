import TileClient.Board.Direction

/-! Moves collected between two ticks. -/
namespace TileClient.Input
open Board

/-- The moves since the last tick, oldest first. -/
structure Pending where
  moves : List Direction
  deriving DecidableEq, Repr

namespace Pending

def empty : Pending := ⟨[]⟩

def queue (p : Pending) (d : Direction) : Pending := ⟨p.moves ++ [d]⟩

/-- The latest move; the earlier ones are given up with it. -/
def takeLatest (p : Pending) : Option Direction × Pending := (p.moves.getLast?, empty)

end Pending

end TileClient.Input
