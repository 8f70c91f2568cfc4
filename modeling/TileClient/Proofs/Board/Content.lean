import Mathlib.Logic.Function.Basic
import TileClient.Proofs.Board.Shape

/-! A board as a finite map from places to tiles. What the table holds at a pair of indices is what
the map says of that place, and a change to the table is a change of the map in one place. -/
namespace TileClient.Board.Grid

/-- The cell of the table at a pair of indices; outside the table there is none. -/
def cell? (g : Grid) (x y : Nat) : Option (Option Tile) := g.columns[x]?.bind (·[y]?)

/-- Every tile of the table knows where it stands. -/
def Placed (g : Grid) : Prop := ∀ x y t, g.cell? x y = some (some t) → t.position = ⟨x, y⟩

variable {g g' : Grid} {p q : Position} {x y : Nat}

theorem content_eq (g : Grid) (p : Position) :
    g.content p = if g.inBounds p then (g.cell? p.x.toNat p.y.toNat).join else none := rfl

theorem inBounds_mk_iff : g.inBounds ⟨x, y⟩ = true ↔ x < g.size ∧ y < g.size := by
  simp [inBounds_iff]

theorem exists_indices (inside : g.inBounds p = true) :
    ∃ x y : Nat, p = ⟨x, y⟩ ∧ x < g.size ∧ y < g.size := by
  obtain ⟨px, py⟩ := p
  obtain ⟨⟨left, right⟩, top, bottom⟩ := inBounds_iff.mp inside
  obtain ⟨x, rfl⟩ := Int.eq_ofNat_of_zero_le left
  obtain ⟨y, rfl⟩ := Int.eq_ofNat_of_zero_le top
  exact ⟨x, y, rfl, Int.ofNat_lt.mp right, Int.ofNat_lt.mp bottom⟩

theorem forall_position (g : Grid) {holds : Position → Prop}
    (beside : ∀ p, g.inBounds p = false → holds p)
    (on : ∀ x y : Nat, x < g.size → y < g.size → holds ⟨x, y⟩) (p : Position) : holds p := by
  cases there : g.inBounds p with
  | false => exact beside p there
  | true =>
    obtain ⟨x, y, rfl, hx, hy⟩ := exists_indices there
    exact on x y hx hy

theorem inBounds_congr (size : g.size = g'.size) (p : Position) : g.inBounds p = g'.inBounds p := by
  rw [inBounds, inBounds, size]

theorem content_of_beside (beside : g.inBounds p = false) : g.content p = none := by
  simp [content, beside]

theorem Shaped.cell?_eq (h : g.Shaped) (hx : x < g.size) (hy : y < g.size) :
    g.cell? x y = some (g.content ⟨x, y⟩) := by
  have column : x < g.columns.length := h.width.symm ▸ hx
  have cell : y < g.columns[x].length := (h.height _ (List.getElem_mem column)).symm ▸ hy
  simp [cell?, content, inBounds, hx, hy, column, cell]

theorem Shaped.lt_of_cell? (h : g.Shaped) {cell : Option Tile} (found : g.cell? x y = some cell) :
    x < g.size ∧ y < g.size := by
  obtain ⟨column, here, there⟩ := Option.bind_eq_some_iff.mp found
  obtain ⟨left, rfl⟩ := List.getElem?_eq_some_iff.mp here
  obtain ⟨top, -⟩ := List.getElem?_eq_some_iff.mp there
  exact ⟨h.width ▸ left, h.height _ (List.getElem_mem left) ▸ top⟩

theorem Shaped.columns_eq (h : g.Shaped) : g.columns = (List.range g.size).map fun (x : Nat) =>
    (List.range g.size).map fun (y : Nat) => g.content ⟨x, y⟩ := by
  refine List.ext_getElem (by simp [h.width]) fun x hx _ => ?_
  have height := h.height _ (List.getElem_mem hx)
  refine List.ext_getElem (by simp [height]) fun y hy _ => ?_
  have found := h.cell?_eq (h.width ▸ hx) (height ▸ hy)
  simpa [cell?, hx, hy] using found

theorem Shaped.ext (h : g.Shaped) (h' : g'.Shaped) (size : g.size = g'.size)
    (content : ∀ p, g.content p = g'.content p) : g = g' := by
  have columns : g.columns = g'.columns := by
    rw [h.columns_eq, h'.columns_eq, size]
    simp only [content]
  exact congrArg₂ Grid.mk size columns

theorem cell?_setCell (g : Grid) (p : Position) (cell : Option Tile) (x y : Nat) :
    (g.setCell p cell).cell? x y =
      if p.x.toNat = x ∧ p.y.toNat = y then (g.cell? x y).map fun _ => cell else g.cell? x y := by
  simp only [cell?, setCell, List.getElem?_modify]
  cases g.columns[x]? with
  | none => simp
  | some column =>
    by_cases across : p.x.toNat = x
    · by_cases down : p.y.toNat = y
      · rcases Nat.lt_or_ge y column.length with within | beyond
        · simp [across, down, within]
        · simp [across, down, beyond]
      · simp [across, down]
    · simp [across]

/-- Writing a cell of the board changes the map in this place. -/
theorem Shaped.content_setCell (h : g.Shaped) (inside : g.inBounds p = true) (cell : Option Tile) :
    (g.setCell p cell).content = Function.update g.content p cell := by
  refine funext (g.forall_position (fun q there => ?_) fun x y hx hy => ?_)
  · have beside : (g.setCell p cell).inBounds q = false := there
    have other : q ≠ p := by
      rintro rfl
      rw [there] at inside
      cases inside
    rw [content_of_beside beside, Function.update_of_ne other, content_of_beside there]
  · have within : (g.setCell p cell).inBounds ⟨x, y⟩ = true := inBounds_mk_iff.mpr ⟨hx, hy⟩
    obtain ⟨px, py, rfl, -, -⟩ := exists_indices inside
    rw [content_eq, if_pos within]
    simp only [cell?_setCell, Int.toNat_natCast, h.cell?_eq hx hy, Function.update_apply,
      Position.mk.injEq, Int.natCast_inj]
    by_cases same : px = x ∧ py = y
    · simp [same]
    · rw [if_neg same, if_neg fun equal => same ⟨equal.1.symm, equal.2.symm⟩, Option.join_some]

theorem Shaped.content_insert (h : g.Shaped) (t : Tile) : (g.insert t).content =
    if g.inBounds t.position then Function.update g.content t.position (some t) else g.content := by
  unfold Grid.insert
  split
  · rename_i inside
    exact h.content_setCell inside _
  · rfl

theorem Shaped.content_remove (h : g.Shaped) (p : Position) :
    (g.remove p).1.content = Function.update g.content p none := by
  unfold Grid.remove
  split
  · rename_i inside
    exact h.content_setCell inside _
  · rename_i beside
    rw [← content_of_beside (Bool.not_eq_true _ ▸ beside), Function.update_eq_self]

theorem remove_snd (g : Grid) (p : Position) : (g.remove p).2 = g.content p := by
  unfold remove
  split
  · rfl
  · rename_i beside
    exact (content_of_beside (Bool.not_eq_true _ ▸ beside)).symm

@[simp]
theorem size_insert (g : Grid) (t : Tile) : (g.insert t).size = g.size := by
  unfold insert
  split <;> rfl

@[simp]
theorem size_remove (g : Grid) (p : Position) : (g.remove p).1.size = g.size := by
  unfold remove
  split <;> rfl

theorem placed_empty (size : Nat) : (empty size).Placed := by
  intro x y t found
  obtain ⟨column, here, there⟩ := Option.bind_eq_some_iff.mp found
  have free : none = some t := by
    rw [List.eq_of_mem_replicate (List.mem_of_getElem? here)] at there
    exact (List.eq_of_mem_replicate (List.mem_of_getElem? there)).symm
  cases free

theorem placed_ofSnapshot {size : Nat} {rows : Snapshot} (read : ofSnapshot size rows = .ok g) :
    g.Placed := by
  intro x y t found
  obtain ⟨hx, hy⟩ := (shaped_ofSnapshot read).lt_of_cell? found
  rw [(shaped_ofSnapshot read).cell?_eq hx hy, content_of_ofSnapshot read
    (size_of_ofSnapshot read ▸ hx) (size_of_ofSnapshot read ▸ hy)] at found
  unfold Snapshot.cell at found
  split at found
  · cases found
  · split at found
    · cases found
    · cases found
      rfl

theorem Placed.setCell (h : g.Placed) (inside : g.inBounds p = true) {cell : Option Tile}
    (placed : ∀ t, cell = some t → t.position = p) : (g.setCell p cell).Placed := by
  obtain ⟨px, py, rfl, -, -⟩ := exists_indices inside
  intro x y t found
  rw [cell?_setCell] at found
  split at found
  · rename_i same
    obtain ⟨rfl, rfl⟩ : px = x ∧ py = y := same
    obtain ⟨-, -, rfl⟩ := Option.map_eq_some_iff.mp found
    exact placed t rfl
  · exact h x y t found

theorem Placed.insert (h : g.Placed) (t : Tile) : (g.insert t).Placed := by
  unfold Grid.insert
  split
  · rename_i inside
    refine h.setCell inside ?_
    rintro _ ⟨⟩
    rfl
  · exact h

theorem Placed.remove (h : g.Placed) (p : Position) : (g.remove p).1.Placed := by
  unfold Grid.remove
  split
  · rename_i inside
    exact h.setCell inside nofun
  · exact h

theorem Reachable.placed (h : g.Reachable) : g.Placed := by
  induction h with
  | empty size => exact placed_empty size
  | ofSnapshot read => exact placed_ofSnapshot read
  | insert _ t ih => exact ih.insert t
  | remove _ p ih => exact ih.remove p

theorem Placed.position_of_content (h : g.Placed) (shaped : g.Shaped) {t : Tile}
    (found : g.content p = some t) : t.position = p := by
  obtain ⟨x, y, rfl, hx, hy⟩ := exists_indices (inBounds_of_content found)
  exact h x y t (by rw [shaped.cell?_eq hx hy, found])

theorem Reachable.position_of_content (h : g.Reachable) {t : Tile} (found : g.content p = some t) :
    t.position = p :=
  h.placed.position_of_content h.shaped found

end TileClient.Board.Grid
