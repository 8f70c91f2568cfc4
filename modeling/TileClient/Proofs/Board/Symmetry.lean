import TileClient.Proofs.Board.FiniteMap

/-! Boards made from a map, and so boards in a mirror. A square table whose tiles know where they stand
is a board that the operations make, whatever else is true of it; hence the image of a board under a
symmetry of the square, and a board whose tiles remember other merges, are boards again. -/
namespace TileClient.Board

variable {size : Nat} {p : Position}

namespace Grid

theorem content_of_not_on {g : Grid} (off : ¬ p.On g.size) : g.content p = none := by
  apply content_of_beside
  rw [← Bool.not_eq_true, inBounds_iff_on]
  exact off

/-- The board that holds what a map says of its places. -/
def ofContents (size : Nat) (held : Contents) : Grid :=
  ⟨size, (List.range size).map fun (x : Nat) => (List.range size).map fun (y : Nat) => held ⟨x, y⟩⟩

variable {g : Grid} {held : Contents}

theorem shaped_ofContents (size : Nat) (held : Contents) : (ofContents size held).Shaped := by
  refine ⟨by simp [ofContents], fun column member => ?_⟩
  obtain ⟨x, -, rfl⟩ := List.mem_map.mp member
  simp [ofContents]

theorem content_ofContents (size : Nat) (held : Contents) (p : Position) :
    (ofContents size held).content p = if p.On size then held p else none := by
  by_cases on : p.On size
  · have inside : (ofContents size held).inBounds p = true := inBounds_iff_on.mpr on
    obtain ⟨x, y, rfl, hx, hy⟩ := exists_indices inside
    have within : x < size ∧ y < size := ⟨hx, hy⟩
    rw [if_pos on]
    simp [content, inBounds, ofContents, within]
  · rw [content_of_not_on (g := ofContents size held) on, if_neg on]

theorem content_empty (size : Nat) (p : Position) : (empty size).content p = none := by
  revert p
  refine (empty size).forall_position ?_ ?_
  · exact fun p beside => content_of_beside beside
  · intro x y hx hy
    have within : x < size ∧ y < size := ⟨hx, hy⟩
    simp [content, inBounds, empty, within]

/-- A board can be completed by putting the tiles that it still misses. -/
theorem Reachable.complete {b : Grid} (made : b.Reachable) (shaped : g.Shaped)
    (same : b.size = g.size) (ts : List Tile) (own : ∀ t ∈ ts, g.content t.position = some t)
    (rest : ∀ p, b.content p = g.content p ∨ ∃ t ∈ ts, t.position = p) : g.Reachable := by
  induction ts generalizing b with
  | nil =>
    have equal : b = g := made.shaped.ext shaped same fun p => (rest p).resolve_right (by simp)
    exact equal ▸ made
  | cons t ts ih =>
    obtain ⟨first, later⟩ := List.forall_mem_cons.mp own
    have inside : b.inBounds t.position = true := by
      rw [inBounds_congr same]
      exact inBounds_of_content first
    refine ih (made.insert t) ((size_insert b t).trans same) later fun p => ?_
    rw [made.shaped.content_insert, if_pos inside]
    by_cases here : p = t.position
    · left
      rw [here, Function.update_self, first]
    · rw [Function.update_of_ne here]
      refine (rest p).imp_right ?_
      rintro ⟨u, member, stands⟩
      rcases List.mem_cons.mp member with rfl | member
      · exact absurd stands.symm here
      · exact ⟨u, member, stands⟩

/-- The boards that the operations make are the square tables whose tiles know where they stand. -/
theorem reachable_iff : g.Reachable ↔ g.Shaped ∧ g.Placed := by
  constructor
  · intro reached
    exact ⟨reached.shaped, reached.placed⟩
  · rintro ⟨shaped, placed⟩
    have stands : ∀ p t, g.content p = some t → t.position = p := fun p t =>
      placed.position_of_content shaped
    refine (Reachable.empty g.size).complete shaped rfl ((places g.size).filterMap g.content) ?_ ?_
    · intro t member
      obtain ⟨p, -, found⟩ := List.mem_filterMap.mp member
      rw [stands p t found, found]
    · intro p
      cases found : g.content p with
      | none => exact .inl (content_empty g.size p)
      | some t =>
        refine .inr ⟨t, List.mem_filterMap.mpr ⟨p, ?_, found⟩, stands p t found⟩
        exact mem_places.mpr (inBounds_iff_on.mp (inBounds_of_content found))

theorem reachable_ofContents (stands : ∀ p t, held p = some t → t.position = p) :
    (ofContents size held).Reachable := by
  refine reachable_iff.mpr ⟨shaped_ofContents size held, fun x y t found => ?_⟩
  have shaped := shaped_ofContents size held
  obtain ⟨hx, hy⟩ := shaped.lt_of_cell? found
  rw [shaped.cell?_eq hx hy, content_ofContents] at found
  split at found
  · exact stands _ _ (Option.some.inj found)
  · cases found

end Grid

/-- A reflection of the square: in its diagonal, or with left and right or top and bottom swapped. -/
inductive Symmetry where
  | transpose | mirror | flip
  deriving DecidableEq, Repr

def Symmetry.image (size : Nat) : Symmetry → Position → Position
  | .transpose, p => ⟨p.y, p.x⟩
  | .mirror, p => ⟨size - 1 - p.x, p.y⟩
  | .flip, p => ⟨p.x, size - 1 - p.y⟩

/-- A tile taken elsewhere, together with the places that it remembers. -/
def Tile.takenBy (f : Position → Position) (t : Tile) : Tile where
  value := t.value
  position := f t.position
  mergedFrom := t.mergedFrom.map (Prod.map f f)

namespace Symmetry

variable (s : Symmetry)

theorem image_image (p : Position) : s.image size (s.image size p) = p := by
  cases s <;> simp [image]

theorem on_image : (s.image size p).On size ↔ p.On size := by
  cases s <;> simp only [image, Position.On] <;> omega

end Symmetry

namespace Grid

/-- The board whose cells hold the tiles of other cells, changed on the way: the cell at `p` gets what
was at `source p`. -/
def rearranged (g : Grid) (source : Position → Position) (change : Position → Tile → Tile) : Grid :=
  ofContents g.size fun p => (g.content (source p)).map (change p)

/-- The board with every tile where a reflection takes it. -/
def reflected (g : Grid) (s : Symmetry) : Grid :=
  g.rearranged (s.image g.size) fun _ => Tile.takenBy (s.image g.size)

/-- The board with the memories of its tiles replaced. -/
def remembering (g : Grid) (memory : Position → Option (Position × Position)) : Grid :=
  g.rearranged id fun p t => { t with mergedFrom := memory p }

variable {g : Grid} {source : Position → Position} {change : Position → Tile → Tile}

theorem content_rearranged (on : ∀ p, (source p).On g.size ↔ p.On g.size) (p : Position) :
    (g.rearranged source change).content p = (g.content (source p)).map (change p) := by
  rw [rearranged, content_ofContents]
  split
  · rfl
  · rename_i beside
    rw [content_of_not_on (mt (on p).mp beside), Option.map_none]

theorem Reachable.rearranged (h : g.Reachable)
    (stands : ∀ p t, t.position = source p → (change p t).position = p) :
    (g.rearranged source change).Reachable := by
  apply reachable_ofContents
  intro p u found
  obtain ⟨t, there, rfl⟩ := Option.map_eq_some_iff.mp found
  exact stands p t (h.position_of_content there)

theorem Reachable.reflected (h : g.Reachable) (s : Symmetry) : (g.reflected s).Reachable := by
  apply h.rearranged
  intro p t there
  rw [Tile.takenBy, there, s.image_image]

theorem Reachable.remembering (h : g.Reachable) (memory : Position → Option (Position × Position)) :
    (g.remembering memory).Reachable :=
  h.rearranged fun _ _ here => here

end Grid

end TileClient.Board
