import TileClient.Proofs.Board.Walking

/-! A board that is not stuck lets some tile slide or merge. A free cell need not be near any tile,
but between a tile and a free cell there is always a tile beside a free cell. -/
namespace TileClient.Board.Grid

variable {g : Grid} {p q : Position} {d : Direction} {k : Nat} {w : Walk}

/-- There is a tile at `p`, and along `d` it can slide or merge: its walk gets away from `p`, or is
stopped by a tile of the same value. -/
def CanMove (g : Grid) (p : Position) (d : Direction) : Prop :=
  ∃ t w, g.content p = some t ∧ g.walk? p d.vector = some w ∧
    (w.farthest ≠ p ∨ ∃ other, g.content w.next = some other ∧ other.value = t.value)

theorem exists_straight (p q : Position) (aligned : p.x = q.x ∨ p.y = q.y)
    (start : g.inBounds p = true) (goal : g.inBounds q = true) : ∃ (d : Direction) (n : Nat),
      p.along d.vector n = q ∧ ∀ i ≤ n, g.inBounds (p.along d.vector i) = true := by
  obtain ⟨x, y⟩ := p
  obtain ⟨x', y'⟩ := q
  simp only [inBounds_iff] at start goal ⊢
  simp only [Position.along, Position.mk.injEq]
  rcases aligned with rfl | rfl
  · rcases Int.le_total y y' with down | up
    · refine ⟨.down, (y' - y).toNat, ?_, fun i le => ?_⟩ <;> simp only [Direction.vector] <;> omega
    · refine ⟨.up, (y - y').toNat, ?_, fun i le => ?_⟩ <;> simp only [Direction.vector] <;> omega
  · rcases Int.le_total x x' with right | left
    · refine ⟨.right, (x' - x).toNat, ?_, fun i le => ?_⟩ <;> simp only [Direction.vector] <;> omega
    · refine ⟨.left, (x - x').toNat, ?_, fun i le => ?_⟩ <;> simp only [Direction.vector] <;> omega

/-- On a way over the board from a tile to a free cell some step leads from a tile to a free cell. -/
theorem exists_free_step {v : Vector} {n : Nat}
    (inside : ∀ i ≤ n, g.inBounds (p.along v i) = true) (tile : g.occupied p = true)
    (free : g.available (p.along v n) = true) :
    ∃ r, g.occupied r = true ∧ g.available (r.offset v) = true := by
  induction n with
  | zero =>
    rw [Position.along_zero, available_iff, tile] at free
    cases free.2
  | succ n ih =>
    cases last : g.occupied (p.along v n) with
    | true => exact ⟨p.along v n, last, Position.along_succ p v n ▸ free⟩
    | false =>
      exact ih (fun i le => inside i (Nat.le_succ_of_le le))
        (available_iff.mpr ⟨inside n n.le_succ, last⟩)

/-- If there are a tile and a free cell, then somewhere they are neighbours: on the way along the
row of the tile and then along the column of the free cell. -/
theorem exists_free_neighbour (tile : g.occupied p = true) (free : g.available q = true) :
    ∃ (r : Position) (d : Direction), g.occupied r = true ∧ g.available (r.offset d.vector) = true := by
  obtain ⟨t, found⟩ := occupied_iff.mp tile
  have start := inBounds_of_content found
  have goal := (available_iff.mp free).1
  have corner : g.inBounds ⟨q.x, p.y⟩ = true :=
    inBounds_iff.mpr ⟨(inBounds_iff.mp goal).1, (inBounds_iff.mp start).2⟩
  cases turn : g.occupied ⟨q.x, p.y⟩ with
  | false =>
    obtain ⟨d, n, reached, inside⟩ := exists_straight p ⟨q.x, p.y⟩ (.inr rfl) start corner
    have stop := available_iff.mpr ⟨corner, turn⟩
    obtain ⟨r, found⟩ := exists_free_step inside tile (by rwa [reached])
    exact ⟨r, d, found⟩
  | true =>
    obtain ⟨d, n, reached, inside⟩ := exists_straight ⟨q.x, p.y⟩ q (.inl rfl) corner goal
    obtain ⟨r, found⟩ := exists_free_step inside turn (by rwa [reached])
    exact ⟨r, d, found⟩

/-- A walk along a direction gets away from its start just when the first cell is free; otherwise
that cell is what stops it. -/
theorem walk_of_direction (p : Position) (d : Direction) : ∃ w, g.walk? p d.vector = some w ∧
    (w.farthest ≠ p ↔ g.available (p.offset d.vector) = true) ∧
    (w.farthest = p → w.next = p.offset d.vector) := by
  obtain ⟨k, -, w, outcome, h⟩ := exists_walk (g := g) (vector_ne_zero d) p
  refine ⟨w, outcome, ?_⟩
  cases k with
  | zero =>
    obtain ⟨blocked, rfl⟩ := measures_zero_iff.mp h
    simp [blocked]
  | succ k =>
    have moved : w.farthest ≠ p := by
      rw [h.farthest]
      intro same
      have x := congrArg Position.x same
      have y := congrArg Position.y same
      cases d <;> simp only [Position.along, Direction.vector] at x y <;> omega
    exact ⟨iff_of_true moved (measures_succ_iff.mp h).1, fun stayed => absurd stayed moved⟩

/-- A tile can move along a direction just when the next cell is free or holds its equal. -/
theorem canMove_iff : g.CanMove p d ↔ ∃ t, g.content p = some t ∧
    (g.available (p.offset d.vector) = true ∨
      ∃ other, g.content (p.offset d.vector) = some other ∧ other.value = t.value) := by
  obtain ⟨w, outcome, slides, stops⟩ := walk_of_direction (g := g) p d
  constructor
  · rintro ⟨t, w', found, same, moves⟩
    obtain rfl := Option.some.inj (outcome.symm.trans same)
    refine ⟨t, found, ?_⟩
    by_cases stayed : w.farthest = p
    · rw [stops stayed] at moves
      exact .inr (moves.resolve_left fun moved => moved stayed)
    · exact .inl (slides.mp stayed)
  · rintro ⟨t, found, free | ⟨other, beside, equal⟩⟩
    · exact ⟨t, w, found, outcome, .inl (slides.mpr free)⟩
    · have stayed : w.farthest = p := by
        by_contra moved
        have free := slides.mp moved
        rw [not_available_of_content beside] at free
        cases free
      exact ⟨t, w, found, outcome, .inr ⟨other, (stops stayed).symm ▸ beside, equal⟩⟩

theorem matchAvailable_iff : g.matchAvailable = true ↔
    ∃ (p : Position) (d : Direction) (t other : Tile), g.content p = some t ∧
      g.content (p.offset d.vector) = some other ∧ other.value = t.value := by
  simp only [matchAvailable, List.any_eq_true, List.mem_range]
  constructor
  · rintro ⟨y, -, x, -, found⟩
    split at found
    · cases found
    · rename_i t tile
      obtain ⟨d, -, matched⟩ := List.any_eq_true.mp found
      split at matched
      · cases matched
      · rename_i other beside
        exact ⟨_, d, t, other, tile, beside, beq_iff_eq.mp matched⟩
  · rintro ⟨⟨x, y⟩, d, t, other, found, beside, equal⟩
    obtain ⟨⟨left, right⟩, top, bottom⟩ := inBounds_iff.mp (inBounds_of_content found)
    obtain ⟨x, rfl⟩ := Int.eq_ofNat_of_zero_le left
    obtain ⟨y, rfl⟩ := Int.eq_ofNat_of_zero_le top
    refine ⟨y, Int.ofNat_lt.mp bottom, x, Int.ofNat_lt.mp right, ?_⟩
    simp only [found]
    refine List.any_eq_true.mpr ⟨d, by cases d <;> decide, ?_⟩
    simp [beside, equal]

/-- A board with a tile on it is not stuck just when some tile can slide or merge. -/
theorem moves_available_iff_some_tile_can_move (reached : g.Reachable) (tiles : g.isEmpty = false) :
    g.movesAvailable = true ↔ ∃ p d, g.CanMove p d := by
  obtain ⟨p, tile⟩ := reached.shaped.isEmpty_eq_false_iff.mp tiles
  simp only [movesAvailable, Bool.or_eq_true, reached.shaped.cellsAvailable_iff, matchAvailable_iff,
    canMove_iff]
  constructor
  · rintro (⟨q, free⟩ | ⟨q, d, t, other, found, beside, equal⟩)
    · obtain ⟨r, d, there, next⟩ := exists_free_neighbour tile free
      obtain ⟨t, found⟩ := occupied_iff.mp there
      exact ⟨r, d, t, found, .inl next⟩
    · exact ⟨q, d, t, found, .inr ⟨other, beside, equal⟩⟩
  · rintro ⟨q, d, t, found, free | ⟨other, beside, equal⟩⟩
    · exact .inl ⟨_, free⟩
    · exact .inr ⟨q, d, t, other, found, beside, equal⟩

/-- The last free cell of one board lets tiles slide, though no two neighbours are equal; without it
the board is stuck. -/
theorem moves_available_iff_some_tile_can_move_last_cell :
    (∃ g, ofSnapshot 2 [[2, 4], [8, 0]] = .ok g ∧ g.isEmpty = false ∧ ∃ p d, g.CanMove p d) ∧
    (∃ g, ofSnapshot 2 [[2, 4], [8, 2]] = .ok g ∧ g.isEmpty = false ∧ ¬ ∃ p d, g.CanMove p d) := by
  have loose : ofSnapshot 2 [[2, 4], [8, 0]] = .ok _ := rfl
  have stuck : ofSnapshot 2 [[2, 4], [8, 2]] = .ok _ := rfl
  refine ⟨⟨_, loose, by decide, ?_⟩, ⟨_, stuck, by decide, ?_⟩⟩
  · exact (moves_available_iff_some_tile_can_move (.ofSnapshot loose) (by decide)).mp (by decide)
  · exact mt (moves_available_iff_some_tile_can_move (.ofSnapshot stuck) (by decide)).mpr (by decide)

end TileClient.Board.Grid
