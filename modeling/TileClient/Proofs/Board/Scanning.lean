import TileClient.Proofs.Board.FiniteMap
import TileClient.Proofs.Board.Walking

/-! Scans of a board in the order of a move. Whichever axis is the outer one, a scan comes to every
cell once, and to a cell only when it has been at all the cells that lie ahead of it. So a walk from
a cell, at the time when the scan comes to it, looks at no cell that is still to be scanned. -/
namespace TileClient.Board
open Position

/-- The cells that two nested loops visit: for every index of the outer axis all of the inner one. -/
def nested (place : Nat → Nat → Position) (outer inner : List Nat) : List Position :=
  outer.flatMap fun a => inner.map (place a)

namespace Traversal

/-- The scan with the loop over `x` outside. A cell has its indices as coordinates. -/
def byColumns (t : Traversal) : List Position :=
  nested (fun x y => ⟨coordinate x, coordinate y⟩) t.x t.y

/-- The scan with the loop over `y` outside. -/
def byRows (t : Traversal) : List Position :=
  nested (fun y x => ⟨coordinate x, coordinate y⟩) t.y t.x

end Traversal

/-- A scan of a board of some size against a vector: it visits every cell of the board once, and when
it comes to a cell it has been at every cell of the board that lies ahead along the vector. -/
structure Scans (size : Nat) (v : Vector) (scan : List Position) : Prop where
  complete : ∀ p, p ∈ scan ↔ p.On size
  once : scan.Nodup
  ahead : ∀ visited p left, scan = visited ++ p :: left →
    ∀ j, 1 ≤ j → (p.along v j).On size → p.along v j ∈ visited

variable {size : Nat} {v : Vector} {scan : List Position}

theorem Position.along_ne (moving : v ≠ ⟨0, 0⟩) (p : Position) {j : Nat} (positive : 1 ≤ j) :
    p.along v j ≠ p := by
  intro same
  apply moving
  have still {a c : Int} (stays : a + j * c = a) : c = 0 := by
    have product : (j : Int) * c = 0 := by omega
    exact (Int.mul_eq_zero.mp product).resolve_left (by omega)
  exact congrArg₂ Vector.mk (still (congrArg Position.x same)) (still (congrArg Position.y same))

/-- It is enough that nothing a scan comes to later lies ahead of what it came to before. -/
theorem Scans.of_pairwise (moving : v ≠ ⟨0, 0⟩) (complete : ∀ p, p ∈ scan ↔ p.On size)
    (behind : scan.Pairwise fun p q => ∀ j, q ≠ p.along v j) : Scans size v scan where
  complete := complete
  once := behind.imp fun later same => later 0 (by rw [along_zero, same])
  ahead := by
    rintro visited p left rfl j positive inside
    rcases List.mem_append.mp ((complete _).mpr inside) with before | rest
    · exact before
    · rcases List.mem_cons.mp rest with same | after
      · exact absurd same (p.along_ne moving positive)
      · have later := (List.pairwise_cons.mp (List.pairwise_append.mp behind).2.1).1
        exact absurd rfl (later _ after j)

/-- The order in which an axis is scanned, for the component of the step along it. -/
def Traversal.axis (size : Nat) (c : Int) : List Nat :=
  if c = 1 then (List.range size).reverse else List.range size

namespace Traversal

variable {size : Nat} {c : Int} {v : Vector}

theorem perm_axis (size : Nat) (c : Int) : (axis size c).Perm (List.range size) := by
  unfold axis
  split
  · exact List.reverse_perm _
  · exact List.Perm.refl _

theorem mem_axis {i : Nat} : i ∈ axis size c ↔ i < size :=
  (perm_axis size c).mem_iff.trans List.mem_range

theorem pairwise_axis (unit : c ≤ 1) :
    (axis size c).Pairwise fun (a b : Nat) => ∀ j : Nat, (b : Int) ≠ a + j * c := by
  unfold axis
  split
  · rename_i forwards
    apply List.pairwise_reverse.mpr
    apply List.pairwise_lt_range.imp
    intro a b less j
    rw [forwards]
    omega
  · rename_i other
    have backwards : c ≤ 0 := by omega
    apply List.pairwise_lt_range.imp
    intro a b less j
    have fall := Int.mul_nonpos_of_nonneg_of_nonpos (Int.natCast_nonneg j) backwards
    omega

end Traversal

theorem mem_nested {place : Nat → Nat → Position} {outer inner : List Nat} {p : Position} :
    p ∈ nested place outer inner ↔ ∃ a ∈ outer, ∃ b ∈ inner, place a b = p := by
  simp only [nested, List.mem_flatMap, List.mem_map]

theorem pairwise_nested {place : Nat → Nat → Position} {outer inner : List Nat}
    {apart apart' : Nat → Nat → Prop} {R : Position → Position → Prop}
    (rounds : outer.Pairwise apart) (within : inner.Pairwise apart')
    (between : ∀ a a' b b', apart a a' → R (place a b) (place a' b'))
    (inside : ∀ a b b', apart' b b' → R (place a b) (place a b')) :
    (nested place outer inner).Pairwise R := by
  apply List.pairwise_flatMap.mpr
  constructor
  · intro a _
    exact List.pairwise_map.mpr (within.imp fun h => inside a _ _ h)
  · apply rounds.imp
    intro a a' h p here q there
    obtain ⟨b, -, rfl⟩ := List.mem_map.mp here
    obtain ⟨b', -, rfl⟩ := List.mem_map.mp there
    exact between a a' b b' h

theorem nested_congr {place place' : Nat → Nat → Position} {outer inner : List Nat}
    (same : ∀ a ∈ outer, ∀ b ∈ inner, place a b = place' a b) :
    nested place outer inner = nested place' outer inner :=
  List.flatMap_congr fun a here => List.map_congr_left (same a here)

theorem on_iff_indices {p : Position} :
    p.On size ↔ ∃ x < size, ∃ y < size, (⟨(x : Nat), (y : Nat)⟩ : Position) = p := by
  rw [← mem_places]
  simp only [places, List.mem_flatMap, List.mem_map, List.mem_range]

namespace Traversal

theorem coordinate_of_mem_axis (small : size < 2 ^ 31) {c : Int} {i : Nat}
    (member : i ∈ axis size c) : coordinate i = i :=
  coordinate_of_lt (Nat.lt_trans (mem_axis.mp member) small)

theorem byColumns_along (small : size < 2 ^ 31) (v : Vector) : (along size v).byColumns =
    nested (fun x y => ⟨x, y⟩) (axis size v.x) (axis size v.y) := by
  apply nested_congr
  intro x left y top
  rw [coordinate_of_mem_axis small left, coordinate_of_mem_axis small top]

theorem byRows_along (small : size < 2 ^ 31) (v : Vector) : (along size v).byRows =
    nested (fun y x => ⟨x, y⟩) (axis size v.y) (axis size v.x) := by
  apply nested_congr
  intro y top x left
  rw [coordinate_of_mem_axis small left, coordinate_of_mem_axis small top]

theorem scans_byColumns (small : size < 2 ^ 31) (moving : v ≠ ⟨0, 0⟩) (unit : v.x ≤ 1 ∧ v.y ≤ 1) :
    Scans size v (along size v).byColumns := by
  rw [byColumns_along small]
  apply Scans.of_pairwise moving
  · intro p
    rw [mem_nested, on_iff_indices]
    simp only [mem_axis]
  · apply pairwise_nested (pairwise_axis unit.1) (pairwise_axis unit.2)
    · intro x x' y y' behind j same
      exact behind j (congrArg Position.x same)
    · intro x y y' behind j same
      exact behind j (congrArg Position.y same)

theorem scans_byRows (small : size < 2 ^ 31) (moving : v ≠ ⟨0, 0⟩) (unit : v.x ≤ 1 ∧ v.y ≤ 1) :
    Scans size v (along size v).byRows := by
  rw [byRows_along small]
  apply Scans.of_pairwise moving
  · intro p
    rw [mem_nested, on_iff_indices]
    simp only [mem_axis]
    constructor
    · rintro ⟨y, top, x, left, place⟩
      exact ⟨x, left, y, top, place⟩
    · rintro ⟨x, left, y, top, place⟩
      exact ⟨y, top, x, left, place⟩
  · apply pairwise_nested (pairwise_axis unit.2) (pairwise_axis unit.1)
    · intro y y' x x' behind j same
      exact behind j (congrArg Position.y same)
    · intro y x x' behind j same
      exact behind j (congrArg Position.x same)

theorem vector_le_one (d : Direction) : d.vector.x ≤ 1 ∧ d.vector.y ≤ 1 := by
  cases d <;> decide

/-- The order of a move lets every scan meet obstacles first. On a board of any size that fits a
coordinate and for every direction, the two orders are permutations of the indices; whichever is the
outer one, the scan visits every cell once, and a cell only after all cells ahead of it. When it comes
to a cell, a walk from there has an outcome, and whatever cell of the board the walk looks at, from the
first one ahead to the one that blocks it, has been visited. -/
theorem scans_meet_obstacles_first {n : Nat} (small : n < 2 ^ 31) (d : Direction) :
    let t := along n d.vector
    t.x.Perm (List.range n) ∧ t.y.Perm (List.range n) ∧
    ∀ scan ∈ [t.byColumns, t.byRows], Scans n d.vector scan ∧
      ∀ g : Grid, g.size = n → ∀ visited p left, scan = visited ++ p :: left →
        ∃ k w, g.walk? p d.vector = some w ∧ g.Ends d.vector p k w ∧
          (∀ q, g.Inspects d.vector p q ↔ ∃ j, 1 ≤ j ∧ j ≤ k + 1 ∧ q = p.along d.vector j) ∧
          ∀ q, g.Inspects d.vector p q → g.inBounds q = true → q ∈ visited := by
  intro t
  have moving := Grid.vector_ne_zero d
  have scans : ∀ scan ∈ [t.byColumns, t.byRows], Scans n d.vector scan := by
    intro scan which
    rcases List.mem_pair.mp which with rfl | rfl
    · exact scans_byColumns small moving (vector_le_one d)
    · exact scans_byRows small moving (vector_le_one d)
  refine ⟨perm_axis n _, perm_axis n _, fun scan which => ⟨scans scan which, ?_⟩⟩
  rintro g rfl visited p left split
  have inside : g.inBounds p = true := by
    apply Grid.inBounds_iff_on.mpr
    apply ((scans scan which).complete p).mp
    rw [split]
    exact List.mem_append_right _ List.mem_cons_self
  obtain ⟨k, -, w, outcome, measures⟩ := Grid.exists_walk (g := g) moving p
  have fits : ∀ q, g.Inspects d.vector p q → q.Fits := fun q =>
    Grid.fits_of_inspects small (Grid.fits_offset small inside d)
  refine ⟨k, w, outcome, (Grid.ends_of_fits fits).mpr measures, fun q => measures.inspects_iff, ?_⟩
  intro q inspected within
  obtain ⟨j, positive, -, rfl⟩ := measures.inspects_iff.mp inspected
  exact (scans scan which).ahead visited p left split j positive (Grid.inBounds_iff_on.mp within)

/-- On a board of three by three a move to the right comes, row by row, to the left cell of the middle
row after the two other cells of the row, the free one and the tile that a walk looks at. -/
theorem scans_meet_obstacles_first_on_the_right :
    let g := (Grid.empty 3).insert (.plain ⟨2, 1⟩ 4)
    let visited : List Position := [⟨2, 0⟩, ⟨1, 0⟩, ⟨0, 0⟩, ⟨2, 1⟩, ⟨1, 1⟩]
    3 < 2 ^ 31 ∧ (along 3 Direction.right.vector).byRows =
      visited ++ ⟨0, 1⟩ :: [⟨2, 2⟩, ⟨1, 2⟩, ⟨0, 2⟩] ∧
    g.walk? ⟨0, 1⟩ Direction.right.vector = some ⟨⟨1, 1⟩, ⟨2, 1⟩⟩ ∧
    g.Inspects Direction.right.vector ⟨0, 1⟩ ⟨2, 1⟩ ∧ ⟨2, 1⟩ ∈ visited := by
  intro g visited
  have small : 3 < 2 ^ 31 := by decide
  obtain ⟨-, -, scans⟩ := scans_meet_obstacles_first small .right
  have order : (along 3 Direction.right.vector).byRows =
      visited ++ ⟨0, 1⟩ :: [⟨2, 2⟩, ⟨1, 2⟩, ⟨0, 2⟩] := by decide
  obtain ⟨-, walks⟩ := scans _ (List.mem_cons_of_mem _ List.mem_cons_self)
  obtain ⟨k, w, outcome, -, -, seen⟩ := walks g rfl _ _ _ order
  have inspected : g.Inspects Direction.right.vector ⟨0, 1⟩ ⟨2, 1⟩ :=
    .next .first (by decide)
  exact ⟨small, order, by decide, inspected, seen _ inspected (by decide)⟩

end Traversal

end TileClient.Board
