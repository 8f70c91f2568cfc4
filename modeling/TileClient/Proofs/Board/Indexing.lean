import Mathlib.Algebra.Order.Ring.Int
import Mathlib.Data.List.Basic
import TileClient.Proofs.Board.Content

/-! The operations on numbers of a fixed width: coordinates have 32 bits and a sign, indices 64 and
none, and an index outside the table leaves an operation without a result. On a board whose size
fits a coordinate all of them have their results, the same as on numbers without a bound. -/
namespace TileClient.Board

namespace Position

def coordinate (n : Nat) : Int := (n : Int).bmod (2 ^ 32)

def index (c : Int) : Nat := (c % 2 ^ 64).toNat

theorem coordinate_of_lt {n : Nat} (small : n < 2 ^ 31) : coordinate n = n := by
  refine Int.bmod_eq_of_le ?_ ?_ <;> omega

theorem index_of_lt {n : Nat} (small : n < 2 ^ 31) : index n = n := by
  unfold index
  omega

end Position

open Position

namespace Grid

/-- The test for a place on the board, against the size as a coordinate. -/
def guards (g : Grid) (p : Position) : Bool :=
  0 ≤ p.x && p.x < coordinate g.size && 0 ≤ p.y && p.y < coordinate g.size

def content? (g : Grid) (p : Position) : Option (Option Tile) :=
  if g.guards p then g.cell? (index p.x) (index p.y) else some none

def writeCell? (g : Grid) (x y : Nat) (cell : Option Tile) : Option Grid :=
  (g.cell? x y).map fun _ => { g with columns := g.columns.modify x (·.set y cell) }

/-- Puts a tile at its own place. -/
def insert? (g : Grid) (t : Tile) : Option Grid :=
  if g.guards t.position then
    g.writeCell? (index t.position.x) (index t.position.y) (some t)
  else some g

def remove? (g : Grid) (p : Position) : Option (Grid × Option Tile) :=
  if g.guards p then
    (g.cell? (index p.x) (index p.y)).bind fun old =>
      (g.writeCell? (index p.x) (index p.y) none).map (·, old)
  else some (g, none)

def toSnapshot? (g : Grid) : Option Snapshot :=
  (List.range g.size).mapM fun y => (List.range g.size).mapM fun x =>
    (g.cell? x y).map (·.elim 0 Tile.value)

/-- Every cell at the place that its indices make, column by column. -/
def visits (g : Grid) : List (Position × Option Tile) :=
  g.columns.zipIdx.flatMap fun (column, x) =>
    column.zipIdx.map fun (cell, y) => (⟨coordinate x, coordinate y⟩, cell)

/-- No operation misses the table, or meets a number that does not fit. -/
structure Indexed (g : Grid) : Prop where
  content : ∀ p, g.content? p = some (g.content p)
  insert : ∀ t, g.insert? t = some (g.insert t)
  remove : ∀ p, g.remove? p = some (g.remove p)
  toSnapshot : g.toSnapshot? = some g.toSnapshot
  visits : g.visits = g.cells

variable {g : Grid} {x y : Nat}

theorem guards_eq (small : g.size < 2 ^ 31) (p : Position) : g.guards p = g.inBounds p := by
  rw [guards, inBounds, coordinate_of_lt small]

theorem toSnapshot_eq (g : Grid) : g.toSnapshot = (List.range g.size).map fun (y : Nat) =>
    (List.range g.size).map fun (x : Nat) => (g.content ⟨x, y⟩).elim 0 Tile.value := by
  refine List.map_congr_left fun y _ => List.map_congr_left fun x _ => ?_
  cases g.content ⟨x, y⟩ <;> rfl

theorem writeCell?_eq_some (h : g.Shaped) (hx : x < g.size) (hy : y < g.size)
    (cell : Option Tile) : g.writeCell? x y cell = some (g.setCell ⟨x, y⟩ cell) := by
  rw [writeCell?, h.cell?_eq hx hy]
  rfl

private theorem mapM_eq_some_map {α β : Type} {read : α → Option β} {held : α → β} {xs : List α}
    (there : ∀ a ∈ xs, read a = some (held a)) : xs.mapM read = some (xs.map held) := by
  induction xs with
  | nil => rfl
  | cons a xs ih =>
    obtain ⟨first, later⟩ := List.forall_mem_cons.mp there
    simp [first, ih later]

theorem Shaped.toSnapshot? (h : g.Shaped) : g.toSnapshot? = some g.toSnapshot := by
  rw [toSnapshot_eq]
  refine mapM_eq_some_map fun y hy => mapM_eq_some_map fun x hx => ?_
  rw [h.cell?_eq (List.mem_range.mp hx) (List.mem_range.mp hy), Option.map_some]

theorem Shaped.visits (h : g.Shaped) (small : g.size < 2 ^ 31) : g.visits = g.cells := by
  refine List.flatMap_congr fun ⟨column, x⟩ here => List.map_congr_left fun ⟨cell, y⟩ there => ?_
  have across := (List.mem_zipIdx' here).1
  have down := (List.mem_zipIdx' there).1
  rw [h.width] at across
  rw [h.height column (List.fst_mem_of_mem_zipIdx here)] at down
  dsimp only
  rw [coordinate_of_lt (Nat.lt_trans across small), coordinate_of_lt (Nat.lt_trans down small)]

theorem Shaped.indexed (h : g.Shaped) (small : g.size < 2 ^ 31) : g.Indexed where
  content p := by
    rw [content?, guards_eq small]
    split
    · rename_i inside
      obtain ⟨x, y, rfl, hx, hy⟩ := exists_indices inside
      rw [index_of_lt (Nat.lt_trans hx small), index_of_lt (Nat.lt_trans hy small), h.cell?_eq hx hy]
    · rename_i beside
      rw [content_of_beside (Bool.not_eq_true _ ▸ beside)]
  insert t := by
    rw [insert?, guards_eq small, Grid.insert]
    split
    · rename_i inside
      obtain ⟨x, y, place, hx, hy⟩ := exists_indices inside
      rw [place, index_of_lt (Nat.lt_trans hx small), index_of_lt (Nat.lt_trans hy small),
        writeCell?_eq_some h hx hy]
    · rfl
  remove p := by
    rw [remove?, guards_eq small, Grid.remove]
    split
    · rename_i inside
      obtain ⟨x, y, rfl, hx, hy⟩ := exists_indices inside
      rw [index_of_lt (Nat.lt_trans hx small), index_of_lt (Nat.lt_trans hy small), h.cell?_eq hx hy,
        Option.bind_some, writeCell?_eq_some h hx hy, Option.map_some]
    · rfl
  toSnapshot := h.toSnapshot?
  visits := h.visits small

end Grid

end TileClient.Board
