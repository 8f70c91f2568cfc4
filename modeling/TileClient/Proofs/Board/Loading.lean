import TileClient.Proofs.Board.Indexing

/-! Reading a snapshot cell by cell: row after row is tested for its length and its numbers are
written into a table that starts out free, the one of column `x` in row `y` at the indices `x` and
`y`. The table is square before it is known whether the snapshot is. -/
namespace TileClient.Board
open Position

namespace Grid

/-- Writes the tile that a number stands for, if it stands for one. -/
def loadCell? (g : Grid) (x y : Nat) (v : UInt32) : Option Grid :=
  if v = 0 then some g else g.writeCell? x y (some (.plain ⟨coordinate x, coordinate y⟩ v))

/-- Writes what is left of a row from a column on. -/
def loadRow? (y : Nat) : Grid → Nat → List UInt32 → Option Grid
  | g, _, [] => some g
  | g, x, v :: row => (g.loadCell? x y v).bind (loadRow? y · (x + 1) row)

/-- Tests and writes the rows that are left. -/
def loadRows? : Grid → Nat → Snapshot → Option (Except Misshapen Grid)
  | g, _, [] => some (.ok g)
  | g, y, row :: rows =>
    if row.length ≠ g.size then some (.error ⟨g.size, row.length⟩)
    else (loadRow? y g 0 row).bind (loadRows? · (y + 1) rows)

def load? (size : Nat) (rows : Snapshot) : Option (Except Misshapen Grid) :=
  if rows.length ≠ size then some (.error ⟨size, rows.length⟩) else loadRows? (empty size) 0 rows

/-- The cells of the rows above and those before a column are written, and no others. -/
structure Loaded (g : Grid) (size : Nat) (rows : Snapshot) (x y : Nat) : Prop where
  size_eq : g.size = size
  shaped : g.Shaped
  content : ∀ i j : Nat, i < size → j < size →
    g.content ⟨i, j⟩ = if j < y ∨ j = y ∧ i < x then rows.cell i j else none

variable {g : Grid} {size x y : Nat} {rows : Snapshot}

theorem loaded_empty (size : Nat) (rows : Snapshot) : (empty size).Loaded size rows 0 0 where
  size_eq := rfl
  shaped := shaped_empty size
  content i j hi hj := by
    have inside : i < size ∧ j < size := ⟨hi, hj⟩
    simp [Grid.content, inBounds, empty, inside]

namespace Loaded

theorem next_row (h : g.Loaded size rows size y) : g.Loaded size rows 0 (y + 1) where
  size_eq := h.size_eq
  shaped := h.shaped
  content i j hi hj := by
    rw [h.content i j hi hj]
    refine if_congr ?_ rfl rfl
    omega

/-- Where a number is written that stood next, one more cell is as it should be. -/
theorem cell (h : g.Loaded size rows x y) (small : size < 2 ^ 31) (hx : x < size) (hy : y < size)
    {v : UInt32} (number : rows.value? x y = some v) :
    ∃ g', g.loadCell? x y v = some g' ∧ g'.Loaded size rows (x + 1) y := by
  have due : rows.cell x y = if v = 0 then none else some (.plain ⟨x, y⟩ v) := by
    rw [Snapshot.cell, number]
  have before : ∀ i j : Nat, ¬(i = x ∧ j = y) →
      (j < y ∨ j = y ∧ i < x ↔ j < y ∨ j = y ∧ i < x + 1) := by
    intro i j other
    omega
  by_cases zero : v = 0
  · refine ⟨g, if_pos zero, h.size_eq, h.shaped, fun i j hi hj => ?_⟩
    by_cases same : i = x ∧ j = y
    · obtain ⟨rfl, rfl⟩ := same
      rw [h.content i j hi hj, due, if_pos zero, ite_self, ite_self]
    · rw [h.content i j hi hj]
      exact if_congr (before i j same) rfl rfl
  · have inside : x < g.size ∧ y < g.size := h.size_eq.symm ▸ ⟨hx, hy⟩
    refine ⟨g.setCell ⟨x, y⟩ (some (.plain ⟨x, y⟩ v)), ?_, h.size_eq, h.shaped.setCell _ _,
      fun i j hi hj => ?_⟩
    · rw [loadCell?, if_neg zero, coordinate_of_lt (Nat.lt_trans hx small),
        coordinate_of_lt (Nat.lt_trans hy small), writeCell?_eq_some h.shaped inside.1 inside.2]
    · rw [h.shaped.content_setCell (inBounds_mk_iff.mpr inside), Function.update_apply]
      by_cases same : i = x ∧ j = y
      · obtain ⟨rfl, rfl⟩ := same
        simp [due, zero]
      · have other : (⟨i, j⟩ : Position) ≠ ⟨x, y⟩ := by
          simpa [Int.natCast_inj] using same
        rw [if_neg other, h.content i j hi hj]
        exact if_congr (before i j same) rfl rfl

theorem row (h : g.Loaded size rows x y) (small : size < 2 ^ 31) (hy : y < size)
    {done left : List UInt32} (found : rows[y]? = some (done ++ left)) (here : done.length = x)
    (square : (done ++ left).length = size) :
    ∃ g', loadRow? y g x left = some g' ∧ g'.Loaded size rows size y := by
  induction left generalizing g x done with
  | nil =>
    obtain rfl : x = size := by simpa [here] using square
    exact ⟨g, rfl, h⟩
  | cons v left ih =>
    have hx : x < size := by
      rw [← here, ← square, List.length_append, List.length_cons]
      omega
    have number : rows.value? x y = some v := by
      rw [Snapshot.value?, found, ← here]
      simp
    obtain ⟨next, written, loaded⟩ := h.cell small hx hy number
    rw [List.append_cons] at found square
    obtain ⟨last, rest, whole⟩ := ih loaded found (by simp [here]) square
    exact ⟨last, by rw [loadRow?, written, Option.bind_some, rest], whole⟩

/-- When all rows are written the board is the one that the snapshot shows. -/
theorem eq_of_last (h : g.Loaded size rows 0 size) (square : rows.IsSquare size) :
    ofSnapshot size rows = .ok g := by
  obtain ⟨made, read⟩ : ∃ made, ofSnapshot size rows = .ok made :=
    ⟨_, ofSnapshot_of_isSquare square⟩
  have size_eq := (size_of_ofSnapshot read).trans h.size_eq.symm
  rw [read, (shaped_ofSnapshot read).ext h.shaped size_eq]
  refine made.forall_position (fun p beside => ?_) fun i j hi hj => ?_
  · rw [content_of_beside beside, content_of_beside (inBounds_congr size_eq p ▸ beside)]
  · rw [size_of_ofSnapshot read] at hi hj
    rw [content_of_ofSnapshot read hi hj, h.content i j hi hj, if_pos (.inl hj)]

/-- The rows that are left decide how the reading ends: at the first that has not the right length,
or with the board. -/
theorem rest (h : g.Loaded size rows 0 y) (small : size < 2 ^ 31) (count : rows.length = size)
    {done left : Snapshot} (split : rows = done ++ left) (here : done.length = y)
    (before : ∀ row ∈ done, row.length = size) :
    loadRows? g y left = some (ofSnapshot size rows) := by
  induction left generalizing g y done with
  | nil =>
    obtain rfl : rows = done := split.trans (List.append_nil done)
    obtain rfl : y = size := here.symm.trans count
    rw [loadRows?, h.eq_of_last ⟨count, before⟩]
  | cons row left ih =>
    rw [loadRows?, h.size_eq]
    split
    · rename_i wrong
      have first : rows.find? (·.length ≠ size) = some row := by
        refine List.find?_eq_some_iff_append.mpr ⟨by simpa using wrong, done, left, split, ?_⟩
        intro other member
        simp [before other member]
      rw [ofSnapshot, Snapshot.misshapen?, if_neg (not_not.mpr count), first]
      rfl
    · rename_i right
      have right : row.length = size := not_not.mp right
      have hy : y < size := by
        rw [← here, ← count, split, List.length_append, List.length_cons]
        omega
      have found : rows[y]? = some ([] ++ row) := by
        rw [split, ← here]
        simp
      obtain ⟨next, written, loaded⟩ := h.row small hy found rfl right
      rw [written, Option.bind_some]
      refine ih loaded.next_row (split.trans (List.append_cons ..)) (by simp [here]) ?_
      exact List.forall_mem_append.mpr ⟨before, List.forall_mem_singleton.mpr right⟩

end Loaded

/-- Reading a snapshot cell by cell misses no cell and comes to the board that the snapshot shows, or
to the same complaint. -/
theorem load?_eq (small : size < 2 ^ 31) (rows : Snapshot) :
    load? size rows = some (ofSnapshot size rows) := by
  unfold load?
  split
  · rename_i wrong
    rw [ofSnapshot, Snapshot.misshapen?, if_pos wrong]
  · rename_i right
    exact (loaded_empty size rows).rest small (not_not.mp right) (List.nil_append rows).symm rfl
      (List.forall_mem_nil _)

end Grid

end TileClient.Board
