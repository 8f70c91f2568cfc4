import TileClient.Proofs.Board.Snapshot

/-! Boards keep their shape: whatever is put on a board or taken from it, it has as many columns as
its size says, each of them as long. So every cell of the board can be read, and what is said of
some of its cells is said of some place on it. -/
namespace TileClient.Board.Grid

/-- As many columns as the size says, each with as many cells. -/
structure Shaped (g : Grid) : Prop where
  width : g.columns.length = g.size
  height : ∀ column ∈ g.columns, column.length = g.size

/-- The boards that the operations make: the free one of any size and those that snapshots show,
with any tiles put on them and taken away. -/
inductive Reachable : Grid → Prop
  | empty (size : Nat) : Reachable (.empty size)
  | ofSnapshot {size : Nat} {rows : Snapshot} {g : Grid} (read : ofSnapshot size rows = .ok g) :
    Reachable g
  | insert {g : Grid} (before : Reachable g) (t : Tile) : Reachable (g.insert t)
  | remove {g : Grid} (before : Reachable g) (p : Position) : Reachable (g.remove p).1

variable {g : Grid} {p : Position}

theorem shaped_empty (size : Nat) : (empty size).Shaped := by
  refine ⟨List.length_replicate, fun column member => ?_⟩
  rw [List.eq_of_mem_replicate member]
  exact List.length_replicate

theorem shaped_ofSnapshot {size : Nat} {rows : Snapshot} (read : ofSnapshot size rows = .ok g) :
    g.Shaped := by
  rw [ofSnapshot_of_isSquare (isSquare_of_ofSnapshot read)] at read
  rw [← Except.ok.inj read]
  refine ⟨by simp, fun column member => ?_⟩
  obtain ⟨x, -, rfl⟩ := List.mem_map.mp member
  simp

theorem Shaped.setCell (h : g.Shaped) (p : Position) (cell : Option Tile) :
    (g.setCell p cell).Shaped := by
  refine ⟨by simp [Grid.setCell, h.width], fun column member => ?_⟩
  obtain ⟨x, inside, rfl⟩ := List.mem_iff_getElem.mp member
  have column := h.height _ (List.getElem_mem (by simpa [Grid.setCell] using inside))
  by_cases written : p.x.toNat = x <;> simp [Grid.setCell, written, column]

theorem Shaped.insert (h : g.Shaped) (t : Tile) : (g.insert t).Shaped := by
  unfold Grid.insert
  split
  · exact h.setCell _ _
  · exact h

theorem Shaped.remove (h : g.Shaped) (p : Position) : (g.remove p).1.Shaped := by
  unfold Grid.remove
  split
  · exact h.setCell _ _
  · exact h

theorem Reachable.shaped (h : g.Reachable) : g.Shaped := by
  induction h with
  | empty size => exact shaped_empty size
  | ofSnapshot read => exact shaped_ofSnapshot read
  | insert _ t ih => exact ih.insert t
  | remove _ p ih => exact ih.remove p

theorem inBounds_iff : g.inBounds p = true ↔ (0 ≤ p.x ∧ p.x < g.size) ∧ 0 ≤ p.y ∧ p.y < g.size := by
  simp [inBounds, and_assoc]

theorem available_iff :
    g.available p = true ↔ g.inBounds p = true ∧ g.occupied p = false := by
  simp [available]

theorem occupied_iff : g.occupied p = true ↔ ∃ t, g.content p = some t := Option.isSome_iff_exists

theorem inBounds_of_content {t : Tile} (found : g.content p = some t) : g.inBounds p = true := by
  unfold content at found
  split at found
  · assumption
  · cases found

theorem not_available_of_content {t : Tile} (found : g.content p = some t) :
    g.available p = false := by
  simp [available, occupied, found]

/-- Some cell of the board holds what some place on the board holds. -/
theorem Shaped.exists_cell_iff (h : g.Shaped) (holds : Option Tile → Prop) :
    (∃ column ∈ g.columns, ∃ cell ∈ column, holds cell) ↔
      ∃ p, g.inBounds p = true ∧ holds (g.content p) := by
  constructor
  · rintro ⟨column, here, cell, there, found⟩
    obtain ⟨x, left, rfl⟩ := List.mem_iff_getElem.mp here
    obtain ⟨y, top, rfl⟩ := List.mem_iff_getElem.mp there
    have inside : x < g.size ∧ y < g.size := ⟨h.width ▸ left, h.height _ here ▸ top⟩
    have bounds : g.inBounds ⟨x, y⟩ = true := by simp [inBounds, inside]
    exact ⟨⟨x, y⟩, bounds, by simpa [content, bounds, left, top] using found⟩
  · rintro ⟨⟨x, y⟩, bounds, found⟩
    obtain ⟨⟨left, right⟩, top, bottom⟩ := inBounds_iff.mp bounds
    obtain ⟨x, rfl⟩ := Int.eq_ofNat_of_zero_le left
    obtain ⟨y, rfl⟩ := Int.eq_ofNat_of_zero_le top
    have column : x < g.columns.length := h.width ▸ Int.ofNat_lt.mp right
    have cell : y < g.columns[x].length :=
      h.height _ (List.getElem_mem column) ▸ Int.ofNat_lt.mp bottom
    refine ⟨_, List.getElem_mem column, _, List.getElem_mem cell, ?_⟩
    simpa [content, bounds, column, cell] using found

theorem Shaped.cellsAvailable_iff (h : g.Shaped) :
    g.cellsAvailable = true ↔ ∃ p, g.available p = true := by
  have cells := h.exists_cell_iff (· = none)
  simp only [cellsAvailable, List.any_eq_true, Option.isNone_iff_eq_none, available_iff, occupied,
    Option.isSome_eq_false_iff]
  exact cells

theorem Shaped.isEmpty_eq_false_iff (h : g.Shaped) :
    g.isEmpty = false ↔ ∃ p, g.occupied p = true := by
  have cells := h.exists_cell_iff (· ≠ none)
  have inside : (∃ p, g.occupied p = true) ↔ ∃ p, g.inBounds p = true ∧ g.occupied p = true := by
    refine exists_congr fun p => ⟨fun found => ?_, And.right⟩
    obtain ⟨t, content⟩ := occupied_iff.mp found
    exact ⟨inBounds_of_content content, found⟩
  rw [inside]
  simpa [isEmpty, occupied, Option.isSome_iff_ne_none] using cells

end TileClient.Board.Grid
