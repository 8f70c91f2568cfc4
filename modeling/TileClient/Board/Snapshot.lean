import TileClient.Board.Grid

/-! Boards as rows of numbers: the form in which a server sends them and a screen shows them. -/
namespace TileClient.Board

/-- Rows from the top, each from the left; zero marks an empty cell. -/
abbrev Snapshot := List (List UInt32)

/-- A snapshot that is not square of the wanted size: the count that was found along an axis. -/
structure Misshapen where
  expected : Nat
  found : Nat
  deriving DecidableEq, Repr

namespace Snapshot

/-- The first wrong count of a snapshot: the number of rows, else the length of the first row
of another length. -/
def misshapen? (size : Nat) (rows : Snapshot) : Option Misshapen :=
  if rows.length ≠ size then some ⟨size, rows.length⟩
  else (rows.find? (·.length ≠ size)).map fun row => ⟨size, row.length⟩

/-- The number at a place, if the snapshot reaches that far. -/
def value? (rows : Snapshot) (x y : Nat) : Option UInt32 := rows[y]?.bind (·[x]?)

/-- The cell for the number at a place; zero is an empty cell. -/
def cell (rows : Snapshot) (x y : Nat) : Option Tile :=
  match rows.value? x y with
  | none => none
  | some v => if v = 0 then none else some (.plain ⟨x, y⟩ v)

end Snapshot

namespace Grid

/-- The board that a snapshot shows, if the snapshot has the wanted shape. -/
def ofSnapshot (size : Nat) (rows : Snapshot) : Except Misshapen Grid :=
  match rows.misshapen? size with
  | some fault => .error fault
  | none => .ok ⟨size, (List.range size).map fun x => (List.range size).map fun y => rows.cell x y⟩

/-- The rows of a board. A tile of value zero reads like an empty cell. -/
def toSnapshot (g : Grid) : Snapshot :=
  (List.range g.size).map fun (y : Nat) => (List.range g.size).map fun (x : Nat) =>
    match g.content ⟨x, y⟩ with
    | none => 0
    | some t => t.value

/-- A row as drawn: every number is followed by a tab, the row by a line end. -/
def rowText (row : List UInt32) : String :=
  String.join (row.map fun v => toString v.toNat ++ "\t") ++ "\n"

def text (g : Grid) : String := String.join (g.toSnapshot.map rowText)

end Grid

end TileClient.Board
