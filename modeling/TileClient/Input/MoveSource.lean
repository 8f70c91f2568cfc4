import TileClient.Input.Script

/-! Where moves come from: a script, or a generator that never ends. -/
namespace TileClient.Input
open Board

/-- A source of moves. A generator is a single word of state. -/
inductive MoveSource where
  | script (rest : List Direction)
  | generator (state : UInt64)
  deriving DecidableEq, Repr

namespace MoveSource

def scripted (text : String) : Except Fault MoveSource :=
  (readMoves text.toList).map .script

/-- A generator; equal seeds give equal moves. Which moves they are is not promised. -/
def seeded (seed : UInt64) : MoveSource := .generator seed

/-- The next state of a generator: a full-period congruence modulo a power of two. -/
def advance (state : UInt64) : UInt64 := 6364136223846793005 * state + 1442695040888963407

/-- The direction that a state stands for, taken from its two highest bits. -/
def directionOf (state : UInt64) : Direction :=
  match state >>> 62 with
  | 0 => .up
  | 1 => .right
  | 2 => .down
  | _ => .left

/-- The next move, with the source after it. Only a script ends, and then it has ended for
good. -/
def next : MoveSource → Option Direction × MoveSource
  | .script [] => (none, .script [])
  | .script (d :: rest) => (some d, .script rest)
  | .generator state => (some (directionOf (advance state)), .generator (advance state))

/-- The results of so many calls of `next`. -/
def take : Nat → MoveSource → List (Option Direction)
  | 0, _ => []
  | n + 1, source => source.next.1 :: take n source.next.2

end MoveSource

end TileClient.Input
