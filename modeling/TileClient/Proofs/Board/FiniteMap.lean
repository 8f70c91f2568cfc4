import TileClient.Proofs.Board.Indexing

/-! A board does what a map from places to tiles does. Whatever is put on it and taken from it, in
whatever order, it holds and hands out what the map would, and all that can be asked of it is a
question to the map. -/
namespace TileClient.Board

/-- A change to what a board holds. -/
inductive Edit where
  | insert (t : Tile)
  | remove (p : Position)
  deriving DecidableEq, Repr

def Position.On (size : Nat) (p : Position) : Prop := (0 ≤ p.x ∧ p.x < size) ∧ 0 ≤ p.y ∧ p.y < size

instance (size : Nat) (p : Position) : Decidable (p.On size) := inferInstanceAs (Decidable (_ ∧ _))

/-- What each place holds. -/
abbrev Contents := Position → Option Tile

/-- A tile goes to its own place on the board, and nowhere if that is beside it. The tile of a place
is taken away and handed out. -/
def Contents.edit (size : Nat) (held : Contents) : Edit → Contents × Option Tile
  | .insert t =>
    (if t.position.On size then Function.update held t.position (some t) else held, none)
  | .remove p => (Function.update held p none, held p)

/-- Changes one after another, with what each hands out. -/
def Contents.edits (size : Nat) (held : Contents) : List Edit → Contents × List (Option Tile)
  | [] => (held, [])
  | e :: es =>
    let (next, out) := held.edit size e
    (Contents.edits size next es).map id (out :: ·)

namespace Grid

def edit (g : Grid) : Edit → Grid × Option Tile
  | .insert t => (g.insert t, none)
  | .remove p => g.remove p

/-- Changes one after another, with what each hands out. -/
def edits (g : Grid) : List Edit → Grid × List (Option Tile)
  | [] => (g, [])
  | e :: es =>
    let (next, out) := g.edit e
    (edits next es).map id (out :: ·)

variable {g : Grid} {p : Position}

theorem inBounds_iff_on : g.inBounds p = true ↔ p.On g.size := inBounds_iff

theorem size_edit (g : Grid) (e : Edit) : (g.edit e).1.size = g.size := by
  cases e with
  | insert t => exact size_insert g t
  | remove p => exact size_remove g p

theorem Shaped.edit (h : g.Shaped) (e : Edit) : (g.edit e).1.Shaped := by
  cases e with
  | insert t => exact h.insert t
  | remove p => exact h.remove p

theorem Shaped.content_edit (h : g.Shaped) (e : Edit) :
    ((g.edit e).1.content, (g.edit e).2) = Contents.edit g.size g.content e := by
  cases e with
  | insert t =>
    refine congrArg (·, none) ((h.content_insert t).trans ?_)
    simp only [inBounds_iff_on]
  | remove p => exact congrArg₂ Prod.mk (h.content_remove p) (g.remove_snd p)

theorem Shaped.content_edits (h : g.Shaped) (es : List Edit) :
    (g.edits es).1.size = g.size ∧
      ((g.edits es).1.content, (g.edits es).2) = Contents.edits g.size g.content es := by
  induction es generalizing g with
  | nil => exact ⟨rfl, rfl⟩
  | cons e es ih =>
    obtain ⟨size, rest⟩ := ih (h.edit e)
    rw [size_edit] at size rest
    have first := h.content_edit e
    refine ⟨size, ?_⟩
    rw [Contents.edits, ← first]
    exact congrArg (Prod.map id ((g.edit e).2 :: ·)) rest

theorem Reachable.edit (h : g.Reachable) (e : Edit) : (g.edit e).1.Reachable := by
  cases e with
  | insert t => exact h.insert t
  | remove p => exact h.remove p

theorem Reachable.edits (h : g.Reachable) (es : List Edit) : (g.edits es).1.Reachable := by
  induction es generalizing g with
  | nil => exact h
  | cons e es ih => exact ih (h.edit e)

end Grid

/-- One place is left of another, or above it in one column. -/
def Position.Before (p q : Position) : Prop := p.x < q.x ∨ p.x = q.x ∧ p.y < q.y

/-- The places of which something holds, column by column from the left and each from the top. -/
structure Lists (ps : List Position) (holds : Position → Prop) : Prop where
  complete : ∀ p, p ∈ ps ↔ holds p
  ordered : ps.Pairwise Position.Before
  once : ps.Nodup

theorem Lists.of_ordered {ps : List Position} {holds : Position → Prop}
    (complete : ∀ p, p ∈ ps ↔ holds p) (ordered : ps.Pairwise Position.Before) :
    Lists ps holds := by
  refine ⟨complete, ordered, ordered.imp ?_⟩
  rintro p _ before rfl
  simp [Position.Before] at before

/-- All places on a board of some size. -/
def places (size : Nat) : List Position :=
  (List.range size).flatMap fun (x : Nat) => (List.range size).map fun (y : Nat) => ⟨x, y⟩

theorem mem_places {size : Nat} {p : Position} : p ∈ places size ↔ p.On size := by
  obtain ⟨px, py⟩ := p
  simp only [places, List.mem_flatMap, List.mem_map, List.mem_range, Position.On, Position.mk.injEq]
  constructor
  · rintro ⟨x, hx, y, hy, rfl, rfl⟩
    omega
  · rintro ⟨⟨left, right⟩, top, bottom⟩
    exact ⟨px.toNat, by omega, py.toNat, by omega, by omega, by omega⟩

theorem pairwise_places (size : Nat) : (places size).Pairwise Position.Before := by
  refine List.pairwise_flatMap.mpr ⟨fun x _ => ?_, ?_⟩
  · refine List.pairwise_map.mpr (List.pairwise_lt_range.imp fun above => .inr ⟨rfl, ?_⟩)
    exact Int.ofNat_lt.mpr above
  · refine List.pairwise_lt_range.imp fun left p here q there => .inl ?_
    obtain ⟨-, -, rfl⟩ := List.mem_map.mp here
    obtain ⟨-, -, rfl⟩ := List.mem_map.mp there
    exact Int.ofNat_lt.mpr left

namespace Grid

variable {g : Grid} {p : Position}

theorem lists_places (g : Grid) : Lists (places g.size) (g.inBounds · = true) :=
  .of_ordered (fun _ => mem_places.trans inBounds_iff_on.symm) (pairwise_places g.size)

private theorem zipIdx_map_range {α : Type} (f : Nat → α) (n : Nat) :
    ((List.range n).map f).zipIdx = (List.range n).map fun i => (f i, i) :=
  List.ext_getElem (by simp) fun i _ _ => by simp

theorem Shaped.cells_eq (h : g.Shaped) :
    g.cells = (places g.size).map fun p => (p, g.content p) := by
  rw [cells, h.columns_eq, zipIdx_map_range, List.flatMap_map, places, List.map_flatMap]
  refine List.flatMap_congr fun x _ => ?_
  simp only [zipIdx_map_range, List.map_map, Function.comp_def]

theorem Shaped.availableCells_eq (h : g.Shaped) :
    g.availableCells = (places g.size).filter g.available := by
  rw [availableCells, h.cells_eq, List.filterMap_map, ← List.filterMap_eq_filter]
  refine List.filterMap_congr fun p member => ?_
  have inside := ((lists_places g).complete p).mp member
  cases found : g.content p <;> simp [Option.guard, available, occupied, inside, found]

theorem Shaped.lists_availableCells (h : g.Shaped) :
    Lists g.availableCells (g.available · = true) := by
  rw [h.availableCells_eq]
  refine .of_ordered (fun p => ?_) ((pairwise_places g.size).filter _)
  rw [List.mem_filter, (lists_places g).complete]
  exact and_iff_right_of_imp fun free => (available_iff.mp free).1

theorem Shaped.cellsAvailable_iff_ne_nil (h : g.Shaped) :
    g.cellsAvailable = true ↔ g.availableCells ≠ [] := by
  rw [h.cellsAvailable_iff, Ne, List.eq_nil_iff_forall_not_mem, not_forall]
  refine exists_congr fun p => ?_
  rw [h.lists_availableCells.complete, not_not]

theorem Shaped.isEmpty_iff (h : g.Shaped) :
    g.isEmpty = true ↔ ∀ p, g.occupied p = false := by
  rw [← Bool.not_eq_false, h.isEmpty_eq_false_iff]
  simp

theorem value?_toSnapshot {x y : Nat} (hx : x < g.size) (hy : y < g.size) :
    g.toSnapshot.value? x y = some ((g.content ⟨x, y⟩).elim 0 Tile.value) := by
  simp [Snapshot.value?, toSnapshot_eq, hx, hy]

theorem isSquare_toSnapshot (g : Grid) : g.toSnapshot.IsSquare g.size := by
  refine ⟨by simp [toSnapshot], fun row member => ?_⟩
  obtain ⟨y, -, rfl⟩ := List.mem_map.mp member
  simp

/-- A board that has been made in whatever way is a map. It keeps its size, its table is square,
every tile in it knows its place, and no operation misses the table. What it holds and has handed out
is what the map would, and so is what any further change leaves and hands out. Every cell is visited
once, column by column, with what the map holds there. The free cells are listed in the same order;
there is one if and only if this list is not empty, the board is empty if and only if the map is, and
a snapshot has in each row the values of what the map holds there. -/
theorem refines_finite_map {n : Nat} (small : n < 2 ^ 31) {opening : Grid}
    (made : opening = empty n ∨ ∃ rows, ofSnapshot n rows = .ok opening) (es : List Edit) :
    let g := (opening.edits es).1
    (g.size = n ∧ g.Shaped ∧ g.Placed ∧ g.Indexed) ∧
    (g.content, (opening.edits es).2) = Contents.edits n opening.content es ∧
    (∀ e, ((g.edit e).1.content, (g.edit e).2) = Contents.edit n g.content e) ∧
    (g.cells = (places n).map (fun p => (p, g.content p)) ∧
      Lists (places n) (g.inBounds · = true)) ∧
    Lists g.availableCells (g.available · = true) ∧
    (g.cellsAvailable = true ↔ g.availableCells ≠ []) ∧
    (g.isEmpty = true ↔ ∀ p, g.occupied p = false) ∧
    g.toSnapshot.IsSquare n ∧
    ∀ x y : Nat, x < n → y < n →
      g.toSnapshot.value? x y = some ((g.content ⟨x, y⟩).elim 0 Tile.value) := by
  intro g
  obtain ⟨reachable, width⟩ : opening.Reachable ∧ opening.size = n := by
    rcases made with rfl | ⟨rows, read⟩
    · exact ⟨.empty n, rfl⟩
    · exact ⟨.ofSnapshot read, size_of_ofSnapshot read⟩
  obtain ⟨size, refines⟩ := reachable.shaped.content_edits es
  have now : g.Reachable := reachable.edits es
  have shaped := now.shaped
  obtain rfl : g.size = n := size.trans width
  rw [width] at refines
  exact ⟨⟨rfl, shaped, now.placed, shaped.indexed small⟩, refines, shaped.content_edit,
    ⟨shaped.cells_eq, g.lists_places⟩, shaped.lists_availableCells, shaped.cellsAvailable_iff_ne_nil,
    shaped.isEmpty_iff, g.isSquare_toSnapshot, fun _ _ => value?_toSnapshot⟩

/-- A tile is put over another, one is taken away, and one falls beside the board. -/
theorem refines_finite_map_over_and_beside :
    let read : Grid := ⟨2, [[some (.plain ⟨0, 0⟩ 2), none], [none, some (.plain ⟨1, 1⟩ 4)]]⟩
    let es := [.insert (.plain ⟨0, 0⟩ 8), .remove ⟨1, 1⟩, .insert (.plain ⟨2, 0⟩ 16)]
    let g := (read.edits es).1
    2 < 2 ^ 31 ∧ ofSnapshot 2 [[2, 0], [0, 4]] = .ok read ∧
      (read.edits es).2 = [none, some (.plain ⟨1, 1⟩ 4), none] ∧
      g.availableCells = [⟨0, 1⟩, ⟨1, 0⟩, ⟨1, 1⟩] ∧ Lists g.availableCells (g.available · = true) ∧
      (g.content, (read.edits es).2) = Contents.edits 2 read.content es := by
  intro read es g
  have small : 2 < 2 ^ 31 := by decide
  have made : ofSnapshot 2 [[2, 0], [0, 4]] = .ok read := by decide
  obtain ⟨-, refines, -, -, lists, -⟩ := refines_finite_map small (.inr ⟨_, made⟩) es
  exact ⟨small, made, by decide, by decide, lists, refines⟩

end Grid

end TileClient.Board
