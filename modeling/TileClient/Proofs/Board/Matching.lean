import TileClient.Proofs.Board.Mobility
import TileClient.Proofs.Board.Symmetry

/-! Two tiles of equal value side by side. The search for them, which also looks one step past the
border, finds them wherever they are and nothing else. What it finds is told by distances and values
alone, so that no reflection of the board and no memory of a merge changes its answer. -/
namespace TileClient.Board
open Position

/-- The number of unit steps from one place to another. -/
def Position.distance (p q : Position) : Nat := (p.x - q.x).natAbs + (p.y - q.y).natAbs

/-- A step along a vector, if the coordinates still fit. -/
def Position.offset? (p : Position) (v : Vector) : Option Position :=
  if (p.offset v).Fits then some (p.offset v) else none

/-- The coordinates from zero up to a bound. -/
def Position.upTo (bound : Int) : List Int := (List.range bound.toNat).map Int.ofNat

variable {p q : Position}

theorem Position.distance_eq_one_iff : p.distance q = 1 ↔ ∃ d : Direction, q = p.offset d.vector := by
  obtain ⟨x, y⟩ := p
  obtain ⟨x', y'⟩ := q
  simp only [distance, offset, mk.injEq]
  constructor
  · intro near
    have sides : (x' = x ∧ y' = y - 1) ∨ (x' = x + 1 ∧ y' = y) ∨ (x' = x ∧ y' = y + 1) ∨
        (x' = x - 1 ∧ y' = y) := by omega
    rcases sides with up | right | down | left
    · exact ⟨.up, by simp only [Direction.vector]; omega⟩
    · exact ⟨.right, by simp only [Direction.vector]; omega⟩
    · exact ⟨.down, by simp only [Direction.vector]; omega⟩
    · exact ⟨.left, by simp only [Direction.vector]; omega⟩
  · rintro ⟨d, across, down⟩
    cases d <;> simp only [Direction.vector] at across down <;> omega

theorem Symmetry.distance_image (s : Symmetry) (size : Nat) (p q : Position) :
    (s.image size p).distance (s.image size q) = p.distance q := by
  cases s <;> simp only [image, distance] <;> omega

namespace Grid

variable {g g' : Grid}

/-- Whether some neighbour of a tile has the same value, tried direction by direction. -/
def matchAround? (g : Grid) (p : Position) (tile : Tile) : Option Bool :=
  Direction.all.anyM fun d => do
    let beside ← p.offset? d.vector
    match ← g.content? beside with
    | none => return false
    | some other => return other.value == tile.value

/-- The search for two neighbours of equal value, row by row. It ends with the first that it finds,
and without an answer where a coordinate does not fit or an index misses the table. -/
def matchAvailable? (g : Grid) : Option Bool :=
  (upTo (coordinate g.size)).anyM fun y => (upTo (coordinate g.size)).anyM fun x => do
    match ← g.content? ⟨x, y⟩ with
    | none => return false
    | some tile => g.matchAround? ⟨x, y⟩ tile

private theorem anyM_eq_some_any {α : Type} {test : α → Option Bool} {holds : α → Bool} {xs : List α}
    (answers : ∀ a ∈ xs, test a = some (holds a)) : xs.anyM test = some (xs.any holds) := by
  induction xs with
  | nil => rfl
  | cons a xs ih =>
    obtain ⟨first, later⟩ := List.forall_mem_cons.mp answers
    rw [List.anyM_cons, first, List.any_cons, ih later]
    cases holds a <;> rfl

/-- One step past the border the coordinates still fit, and no tile is found. -/
theorem Indexed.matchAround? (h : g.Indexed) (small : g.size < 2 ^ 31) (inside : g.inBounds p = true)
    (tile : Tile) : g.matchAround? p tile = some (Direction.all.any fun d =>
      match g.content (p.offset d.vector) with
      | none => false
      | some other => other.value == tile.value) := by
  apply anyM_eq_some_any
  intro d _
  rw [offset?, if_pos (fits_offset small inside d)]
  simp only [Option.bind_eq_bind, Option.bind_some, h.content]
  cases g.content (p.offset d.vector) <;> rfl

theorem Indexed.matchAvailable? (h : g.Indexed) (small : g.size < 2 ^ 31) :
    g.matchAvailable? = some g.matchAvailable := by
  have bound : upTo (coordinate g.size) = (List.range g.size).map Int.ofNat := by
    rw [coordinate_of_lt small, upTo, Int.toNat_natCast]
  let cell (y x : Int) : Bool :=
    match g.content ⟨x, y⟩ with
    | none => false
    | some tile => Direction.all.any fun d =>
      match g.content (Position.offset ⟨x, y⟩ d.vector) with
      | none => false
      | some other => other.value == tile.value
  have rows : g.matchAvailable? = some ((upTo (coordinate g.size)).any fun y =>
      (upTo (coordinate g.size)).any (cell y)) := by
    apply anyM_eq_some_any
    intro y _
    apply anyM_eq_some_any
    intro x _
    simp only [Option.bind_eq_bind, Option.bind_some, h.content, cell]
    cases found : g.content ⟨x, y⟩ with
    | none => rfl
    | some tile => exact h.matchAround? small (inBounds_of_content found) tile
  rw [rows, bound]
  simp only [List.any_map]
  rfl

theorem matchAvailable_iff_distance : g.matchAvailable = true ↔
    ∃ p q t u, g.content p = some t ∧ g.content q = some u ∧ p.distance q = 1 ∧ t.value = u.value := by
  rw [matchAvailable_iff]
  constructor
  · rintro ⟨p, d, t, u, found, beside, equal⟩
    exact ⟨p, _, t, u, found, beside, distance_eq_one_iff.mpr ⟨d, rfl⟩, equal.symm⟩
  · rintro ⟨p, q, t, u, found, beside, near, equal⟩
    obtain ⟨d, rfl⟩ := distance_eq_one_iff.mp near
    exact ⟨p, d, t, u, found, beside, equal.symm⟩

theorem matchAvailable_of_carried {f : Position → Position}
    (near : ∀ p q, (f p).distance (f q) = p.distance q)
    (carried : ∀ p t, g.content p = some t → ∃ u, g'.content (f p) = some u ∧ u.value = t.value)
    (found : g.matchAvailable = true) : g'.matchAvailable = true := by
  obtain ⟨p, q, t, u, here, there, apart, equal⟩ := matchAvailable_iff_distance.mp found
  obtain ⟨t', here', value⟩ := carried p t here
  obtain ⟨u', there', value'⟩ := carried q u there
  apply matchAvailable_iff_distance.mpr
  exact ⟨f p, f q, t', u', here', there', (near p q).trans apart, by rw [value, equal, value']⟩

theorem matchAvailable_rearranged {source : Position → Position} {change : Position → Tile → Tile}
    (undone : ∀ p, source (source p) = p) (on : ∀ p, (source p).On g.size ↔ p.On g.size)
    (near : ∀ p q, (source p).distance (source q) = p.distance q)
    (values : ∀ p t, (change p t).value = t.value) :
    (g.rearranged source change).matchAvailable = g.matchAvailable := by
  apply Bool.eq_iff_iff.mpr
  constructor
  · apply matchAvailable_of_carried near
    intro p u found
    rw [content_rearranged on] at found
    obtain ⟨t, there, rfl⟩ := Option.map_eq_some_iff.mp found
    exact ⟨t, there, (values p t).symm⟩
  · apply matchAvailable_of_carried near
    intro p t found
    refine ⟨change (source p) t, ?_, values _ t⟩
    rw [content_rearranged on, undone, found, Option.map_some]

theorem matchAvailable_reflected (g : Grid) (s : Symmetry) :
    (g.reflected s).matchAvailable = g.matchAvailable :=
  matchAvailable_rearranged s.image_image (fun _ => s.on_image) (s.distance_image g.size)
    fun _ _ => rfl

theorem matchAvailable_remembering (g : Grid) (memory : Position → Option (Position × Position)) :
    (g.remembering memory).matchAvailable = g.matchAvailable :=
  matchAvailable_rearranged (fun _ => rfl) (fun _ => Iff.rfl) (fun _ _ => rfl) fun _ _ => rfl

/-- The search for two neighbours of equal value is sound and complete. On a board that has been made
in whatever way and whose size fits a coordinate, it answers, and with yes if and only if two cells at
distance one hold tiles of equal value, zero included. So the answer is the same for the board in its
mirror, left and right, top and bottom or in the diagonal, and for tiles that remember other merges;
all of these are boards again. -/
theorem match_available_iff_equal_neighbours (reached : g.Reachable) (small : g.size < 2 ^ 31) :
    g.matchAvailable? = some g.matchAvailable ∧
    (g.matchAvailable = true ↔ ∃ p q t u, (g.inBounds p = true ∧ g.content p = some t) ∧
      (g.inBounds q = true ∧ g.content q = some u) ∧ p.distance q = 1 ∧ t.value = u.value) ∧
    (∀ s, (g.reflected s).Reachable ∧ (g.reflected s).matchAvailable = g.matchAvailable) ∧
    ∀ memory, (g.remembering memory).Reachable ∧
      (g.remembering memory).matchAvailable = g.matchAvailable := by
  have cells {p : Position} {t : Tile} :
      g.inBounds p = true ∧ g.content p = some t ↔ g.content p = some t :=
    and_iff_right_of_imp inBounds_of_content
  refine ⟨(reached.shaped.indexed small).matchAvailable? small, ?_, fun s => ?_, fun memory => ?_⟩
  · simp only [cells]
    exact matchAvailable_iff_distance
  · exact ⟨reached.reflected s, g.matchAvailable_reflected s⟩
  · exact ⟨reached.remembering memory, g.matchAvailable_remembering memory⟩

/-- Two tiles of value zero in the last column match, one of them with a memory of a merge; two equal
tiles that touch at a corner do not. -/
theorem match_available_iff_equal_neighbours_of_zeros :
    let g := ((empty 2).insert (.plain ⟨1, 0⟩ 0)).insert ⟨0, ⟨1, 1⟩, some (⟨0, 1⟩, ⟨1, 1⟩)⟩
    let corner := ((empty 2).insert (.plain ⟨0, 0⟩ 2)).insert (.plain ⟨1, 1⟩ 2)
    (g.Reachable ∧ g.size < 2 ^ 31 ∧ g.matchAvailable? = some true ∧
      (g.reflected .transpose).matchAvailable = true) ∧
    corner.Reachable ∧ corner.size < 2 ^ 31 ∧ ¬ ∃ p q t u,
      (corner.inBounds p = true ∧ corner.content p = some t) ∧
      (corner.inBounds q = true ∧ corner.content q = some u) ∧ p.distance q = 1 ∧ t.value = u.value := by
  intro g corner
  have made : g.Reachable := .insert (.insert (.empty 2) _) _
  have made' : corner.Reachable := .insert (.insert (.empty 2) _) _
  have small : g.size < 2 ^ 31 := by decide
  have small' : corner.size < 2 ^ 31 := by decide
  have found : g.matchAvailable = true := by decide
  obtain ⟨answers, -, reflections, -⟩ := match_available_iff_equal_neighbours made small
  obtain ⟨-, sound, -, -⟩ := match_available_iff_equal_neighbours made' small'
  refine ⟨⟨made, small, by rw [answers, found], ?_⟩, made', small', ?_⟩
  · rw [(reflections .transpose).2, found]
  · exact mt sound.mpr (by decide)

end Grid

end TileClient.Board
