import TileClient.Board.Snapshot

/-! Which snapshots show a board, and that a board shows the snapshot it was read from. -/
namespace TileClient.Board

namespace Snapshot

/-- As many rows as wanted, with as many numbers each. -/
def IsSquare (size : Nat) (rows : Snapshot) : Prop :=
  rows.length = size ∧ ∀ row ∈ rows, row.length = size

instance (size : Nat) (rows : Snapshot) : Decidable (rows.IsSquare size) :=
  inferInstanceAs (Decidable (_ ∧ _))

variable {size : Nat} {rows : Snapshot}

theorem misshapen?_eq_none_iff : rows.misshapen? size = none ↔ rows.IsSquare size := by
  unfold misshapen? IsSquare
  by_cases count : rows.length = size
  · simp [count, Option.map_eq_none_iff]
  · simp [count]

theorem IsSquare.value? (square : rows.IsSquare size) {x y : Nat} (hx : x < size) (hy : y < size) :
    ∃ (row : y < rows.length) (cell : x < rows[y].length), rows.value? x y = some rows[y][x] := by
  have row : y < rows.length := square.1.symm ▸ hy
  have cell : x < rows[y].length := (square.2 _ (List.getElem_mem row)).symm ▸ hx
  exact ⟨row, cell, by simp [Snapshot.value?, row, cell]⟩

theorem shown_cell (rows : Snapshot) (x y : Nat) :
    (match rows.cell x y with
      | none => 0
      | some t => t.value) = (rows.value? x y).getD 0 := by
  unfold cell
  cases rows.value? x y with
  | none => rfl
  | some v => by_cases zero : v = 0 <;> simp [zero, Tile.plain]

end Snapshot

namespace Grid

variable {size : Nat} {rows : Snapshot} {g : Grid}

theorem ofSnapshot_of_misshapen (odd : ¬ rows.IsSquare size) :
    ∃ shape, rows.misshapen? size = some shape ∧ ofSnapshot size rows = .error shape := by
  have some := mt Snapshot.misshapen?_eq_none_iff.mp odd
  obtain ⟨shape, found⟩ := Option.ne_none_iff_exists'.mp some
  exact ⟨shape, found, by rw [ofSnapshot, found]⟩

theorem ofSnapshot_of_isSquare (square : rows.IsSquare size) : ofSnapshot size rows =
    .ok ⟨size, (List.range size).map fun x => (List.range size).map fun y => rows.cell x y⟩ := by
  rw [ofSnapshot, Snapshot.misshapen?_eq_none_iff.mpr square]

theorem isSquare_of_ofSnapshot (h : ofSnapshot size rows = .ok g) : rows.IsSquare size := by
  refine Decidable.byContradiction fun odd => ?_
  obtain ⟨shape, -, refused⟩ := ofSnapshot_of_misshapen odd
  rw [refused] at h
  cases h

theorem size_of_ofSnapshot (h : ofSnapshot size rows = .ok g) : g.size = size := by
  rw [ofSnapshot_of_isSquare (isSquare_of_ofSnapshot h)] at h
  rw [← Except.ok.inj h]

theorem content_of_ofSnapshot (h : ofSnapshot size rows = .ok g) {x y : Nat} (hx : x < size)
    (hy : y < size) : g.content ⟨x, y⟩ = rows.cell x y := by
  rw [ofSnapshot_of_isSquare (isSquare_of_ofSnapshot h)] at h
  rw [← Except.ok.inj h]
  simp [content, inBounds, hx, hy]

theorem toSnapshot_of_ofSnapshot (h : ofSnapshot size rows = .ok g) : g.toSnapshot = rows := by
  have square := isSquare_of_ofSnapshot h
  have shown {x y : Nat} (hx : x < size) (hy : y < size) :
      (match g.content ⟨x, y⟩ with
        | none => 0
        | some t => t.value) = (rows.value? x y).getD 0 := by
    rw [content_of_ofSnapshot h hx hy, rows.shown_cell]
  rw [toSnapshot, size_of_ofSnapshot h]
  refine List.ext_getElem (by simp [square.1]) fun y hy row => ?_
  have inside : y < size := square.1 ▸ row
  refine List.ext_getElem (by simp [square.2 _ (List.getElem_mem row)]) fun x hx cell => ?_
  have within : x < size := square.2 _ (List.getElem_mem row) ▸ cell
  obtain ⟨_, _, value⟩ := square.value? within inside
  simp only [List.getElem_map, List.getElem_range]
  exact (shown within inside).trans (by rw [value, Option.getD_some])

end Grid

end TileClient.Board
