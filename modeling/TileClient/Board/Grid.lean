import TileClient.Board.Direction

/-! A square board of optional tiles, stored column by column, and its elementary operations. -/
namespace TileClient.Board

/-- A place on the board or beside it; `(0, 0)` is the top left cell. -/
structure Position where
  x : Int
  y : Int
  deriving DecidableEq, Repr

/-- The place one step further along a vector. -/
def Position.offset (p : Position) (v : Vector) : Position := ⟨p.x + v.x, p.y + v.y⟩

/-- A numbered piece. `mergedFrom` remembers where the two pieces of a merge stood; only
drawing may look at it. -/
structure Tile where
  value : UInt32
  position : Position
  mergedFrom : Option (Position × Position)
  deriving DecidableEq, Repr

/-- A piece that no merge produced. -/
def Tile.plain (p : Position) (value : UInt32) : Tile := ⟨value, p, none⟩

/-- A board with `size` columns of `size` cells each; the column of a cell is its `x`. The
shape is kept by every operation below, not by the type. -/
structure Grid where
  size : Nat
  columns : List (List (Option Tile))
  deriving DecidableEq, Repr

namespace Grid

/-- The board of a given size without tiles. -/
def empty (size : Nat) : Grid := ⟨size, List.replicate size (List.replicate size none)⟩

/-- Whether a place is a cell of the board. -/
def inBounds (g : Grid) (p : Position) : Bool :=
  0 ≤ p.x && p.x < g.size && 0 ≤ p.y && p.y < g.size

/-- The tile at a place; places beside the board hold none. -/
def content (g : Grid) (p : Position) : Option Tile :=
  if g.inBounds p then ((g.columns[p.x.toNat]?).bind (·[p.y.toNat]?)).join else none

def occupied (g : Grid) (p : Position) : Bool := (g.content p).isSome

def available (g : Grid) (p : Position) : Bool := g.inBounds p && !g.occupied p

/-- Every cell with its content, column by column from the left, each from the top. -/
def cells (g : Grid) : List (Position × Option Tile) :=
  g.columns.zipIdx.flatMap fun (column, x) =>
    column.zipIdx.map fun (cell, y) => (⟨x, y⟩, cell)

/-- The cells without a tile, in the order of `cells`. -/
def availableCells (g : Grid) : List Position :=
  g.cells.filterMap fun (p, cell) => if cell.isNone then some p else none

def cellsAvailable (g : Grid) : Bool := g.columns.any (·.any (·.isNone))

/-- No cell holds a tile; the board of size zero is empty. -/
def isEmpty (g : Grid) : Bool := g.columns.all (·.all (·.isNone))

def setCell (g : Grid) (p : Position) (cell : Option Tile) : Grid :=
  { g with columns := g.columns.modify p.x.toNat (·.set p.y.toNat cell) }

/-- Puts a tile at its own place, over whatever stood there. A tile beside the board is
ignored. -/
def insert (g : Grid) (t : Tile) : Grid :=
  if g.inBounds t.position then g.setCell t.position (some t) else g

def remove (g : Grid) (p : Position) : Grid × Option Tile :=
  if g.inBounds p then (g.setCell p none, g.content p) else (g, none)

end Grid

end TileClient.Board
