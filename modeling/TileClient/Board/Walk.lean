import TileClient.Board.Grid

/-! Walks over free cells, the order in which a move scans the board, and whether a board is stuck. -/
namespace TileClient.Board

/-- Where a walk ended: the last cell it could stand on and the place that stopped it. -/
structure Walk where
  farthest : Position
  next : Position
  deriving DecidableEq, Repr

/-- Scan orders of the two axes. -/
structure Traversal where
  x : List Nat
  y : List Nat
  deriving DecidableEq, Repr

/-- The scan order for a step: an axis runs backwards exactly when its component is one, so
that the cells farthest along a direction come first. -/
def Traversal.along (size : Nat) (v : Vector) : Traversal where
  x := if v.x = 1 then (List.range size).reverse else List.range size
  y := if v.y = 1 then (List.range size).reverse else List.range size

namespace Grid

/-- Walks from `here` while the next cell is free, for at most `steps` steps. -/
def walkWithin (g : Grid) (v : Vector) : (steps : Nat) → (here : Position) → Option Walk
  | 0, here => if g.available (here.offset v) then none else some ⟨here, here.offset v⟩
  | steps + 1, here =>
    if g.available (here.offset v) then g.walkWithin v steps (here.offset v)
    else some ⟨here, here.offset v⟩

/-- Walks from a place, on the board or beside it, until a tile or the border stops the walk.
A walk that moves has at most `size` steps on the board; one that never ends (a zero step on a
free cell) has no result. -/
def walk? (g : Grid) (start : Position) (v : Vector) : Option Walk := g.walkWithin v g.size start

/-- Two neighbouring tiles have equal values. -/
def matchAvailable (g : Grid) : Bool :=
  (List.range g.size).any fun (y : Nat) => (List.range g.size).any fun (x : Nat) =>
    match g.content ⟨x, y⟩ with
    | none => false
    | some tile => Direction.all.any fun d =>
      match g.content (Position.offset ⟨x, y⟩ d.vector) with
      | none => false
      | some other => other.value == tile.value

/-- A cell is free or two neighbours are equal. -/
def movesAvailable (g : Grid) : Bool := g.cellsAvailable || g.matchAvailable

end Grid

end TileClient.Board
