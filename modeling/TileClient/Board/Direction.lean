/-! The four directions of a move, their codes on the wire and their unit steps. -/
namespace TileClient.Board

/-- One of the four directions, listed in the order of their codes. -/
inductive Direction where
  | up | right | down | left
  deriving DecidableEq, Repr

/-- A step on the board; `y` grows downwards. -/
structure Vector where
  x : Int
  y : Int
  deriving DecidableEq, Repr

namespace Direction

def all : List Direction := [.up, .right, .down, .left]

def code : Direction → UInt8
  | .up => 0
  | .right => 1
  | .down => 2
  | .left => 3

/-- The direction with a given code. Codes above three name none. -/
def ofCode? : UInt8 → Option Direction
  | 0 => some .up
  | 1 => some .right
  | 2 => some .down
  | 3 => some .left
  | _ => none

def vector : Direction → Vector
  | .up => ⟨0, -1⟩
  | .right => ⟨1, 0⟩
  | .down => ⟨0, 1⟩
  | .left => ⟨-1, 0⟩

theorem ofCode?_code (d : Direction) : ofCode? d.code = some d := by
  cases d <;> rfl

end Direction

end TileClient.Board
