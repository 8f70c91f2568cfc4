import TileClient.Board.Snapshot

/-! The local copy of the game. -/
namespace TileClient.Game

/-- The game as last heard of. `bestScore` outlives rounds. -/
structure Replica where
  grid : Board.Grid
  score : UInt64
  bestScore : UInt64
  lost : Bool
  won : Bool
  keepPlaying : Bool
  deriving DecidableEq, Repr

/-- The figures shown beside a board. -/
structure Figures where
  score : UInt64
  lost : Bool
  won : Bool
  bestScore : UInt64
  terminated : Bool
  deriving DecidableEq, Repr

namespace Replica

def fresh (size : Nat) : Replica where
  grid := .empty size
  score := 0
  bestScore := 0
  lost := false
  won := false
  keepPlaying := false

/-- A new round on an empty board of the same size. Only the best score stays. -/
def resetRound (r : Replica) : Replica := { fresh r.grid.size with bestScore := r.bestScore }

/-- Lost, or won without choosing to play on. -/
def isTerminated (r : Replica) : Bool := r.lost || (r.won && !r.keepPlaying)

def figures (r : Replica) : Figures where
  score := r.score
  lost := r.lost
  won := r.won
  bestScore := r.bestScore
  terminated := r.isTerminated

end Replica

end TileClient.Game
