import TileClient.Proofs.Board.FiniteMap
import TileClient.Proofs.Board.Loading

/-! From a snapshot to a board and back, and the other way round. A snapshot loses of a tile all but
its place and its value, and a tile of value zero altogether; a board without such losses is rebuilt
from what it shows. -/
namespace TileClient.Board

/-- What a snapshot is misshapen by: the number of its rows, or else the length of the first row that
has another one. -/
inductive Snapshot.Misfit (size : Nat) (rows : Snapshot) : Nat → Prop
  | rows (wrong : rows.length ≠ size) : Misfit size rows rows.length
  | row {before after : Snapshot} {row : List UInt32} (count : rows.length = size)
    (split : rows = before ++ row :: after) (earlier : ∀ r ∈ before, r.length = size)
    (wrong : row.length ≠ size) : Misfit size rows row.length

/-- The tile that a snapshot tells of where it shows a tile. -/
def Tile.retold? (t : Tile) : Option Tile :=
  if t.value = 0 then none else some (.plain t.position t.value)

theorem Tile.retold?_eq_some_self_iff {t : Tile} :
    t.retold? = some t ↔ t.value ≠ 0 ∧ t.mergedFrom = none := by
  obtain ⟨value, position, mergedFrom⟩ := t
  by_cases zero : value = 0 <;> simp [retold?, zero, plain, eq_comm]

namespace Grid

variable {g : Grid} {size : Nat} {rows : Snapshot}

theorem exists_ofSnapshot_iff : (∃ g, ofSnapshot size rows = .ok g) ↔ rows.IsSquare size :=
  ⟨fun ⟨_, read⟩ => isSquare_of_ofSnapshot read, fun square => ⟨_, ofSnapshot_of_isSquare square⟩⟩

theorem ofSnapshot_eq_error_iff {shape : Misshapen} : ofSnapshot size rows = .error shape ↔
    shape.expected = size ∧ rows.Misfit size shape.found := by
  have refused : ofSnapshot size rows = .error shape ↔ rows.misshapen? size = some shape := by
    unfold ofSnapshot
    cases rows.misshapen? size <;> simp
  obtain ⟨expected, found⟩ := shape
  rw [refused, Snapshot.misshapen?]
  by_cases count : rows.length = size
  · rw [if_neg (not_not.mpr count), Option.map_eq_some_iff]
    constructor
    · rintro ⟨row, first, ⟨⟩⟩
      obtain ⟨wrong, before, after, split, earlier⟩ := List.find?_eq_some_iff_append.mp first
      refine ⟨rfl, .row count split (fun r member => ?_) (by simpa using wrong)⟩
      simpa using earlier r member
    · rintro ⟨rfl, misfit⟩
      cases misfit with
      | rows wrong => exact absurd count wrong
      | row count split earlier wrong =>
        refine ⟨_, List.find?_eq_some_iff_append.mpr ⟨by simpa using wrong, _, _, split, ?_⟩, rfl⟩
        intro r member
        simp [earlier r member]
  · rw [if_pos count]
    constructor
    · rintro ⟨⟩
      exact ⟨rfl, .rows count⟩
    · rintro ⟨rfl, misfit⟩
      cases misfit with
      | rows wrong => rfl
      | row right split earlier wrong => exact absurd right count

theorem Reachable.content_rebuilt {g' : Grid} (h : g.Reachable)
    (read : Grid.ofSnapshot g.size g.toSnapshot = .ok g') :
    ∀ p, g'.content p = (g.content p).bind Tile.retold? := by
  have size_eq := size_of_ofSnapshot read
  refine g.forall_position (fun p beside => ?_) fun x y hx hy => ?_
  · rw [content_of_beside beside, content_of_beside (inBounds_congr size_eq p ▸ beside),
      Option.bind_none]
  · rw [content_of_ofSnapshot read hx hy, Snapshot.cell, value?_toSnapshot hx hy]
    cases found : g.content ⟨x, y⟩ with
    | none => rfl
    | some t =>
      rw [Option.bind_some, Tile.retold?, h.position_of_content found]
      rfl

theorem Reachable.rebuilt_eq_iff {g' : Grid} (h : g.Reachable)
    (read : Grid.ofSnapshot g.size g.toSnapshot = .ok g') :
    g' = g ↔ ∀ p t, g.content p = some t → t.value ≠ 0 ∧ t.mergedFrom = none := by
  constructor
  · rintro rfl p t found
    have retold := h.content_rebuilt read p
    rw [found, Option.bind_some] at retold
    exact Tile.retold?_eq_some_self_iff.mp retold.symm
  · intro plain
    refine (shaped_ofSnapshot read).ext h.shaped (size_of_ofSnapshot read) fun p => ?_
    rw [h.content_rebuilt read]
    cases found : g.content p with
    | none => rfl
    | some t => exact Tile.retold?_eq_some_self_iff.mpr (plain p t found)

/-- Snapshots and boards are turned into each other without loss wherever that is possible. A
snapshot can be read if and only if it is square of the wanted size, otherwise it is refused by the
first count that is wrong; reading it cell by cell, in coordinates of 32 bits, comes to the same; and
the board shows the snapshot it was read from. A board that has been made in whatever way shows a
snapshot that can be read, and what is read is the same board if and only if none of its tiles has
the value zero or remembers a merge. -/
theorem snapshots_and_boards_invert (h : g.Reachable) :
    (∀ size rows, (∃ g, ofSnapshot size rows = .ok g) ↔ rows.IsSquare size) ∧
    (∀ size rows shape, ofSnapshot size rows = .error shape ↔
      shape.expected = size ∧ rows.Misfit size shape.found) ∧
    (∀ size rows, size < 2 ^ 31 → load? size rows = some (ofSnapshot size rows)) ∧
    (∀ size rows made, ofSnapshot size rows = .ok made →
      made.size = size ∧ made.toSnapshot = rows) ∧
    ∃ rebuilt, ofSnapshot g.size g.toSnapshot = .ok rebuilt ∧
      (rebuilt = g ↔ ∀ p t, g.content p = some t → t.value ≠ 0 ∧ t.mergedFrom = none) := by
  obtain ⟨rebuilt, read⟩ := exists_ofSnapshot_iff.mpr g.isSquare_toSnapshot
  exact ⟨fun _ _ => exists_ofSnapshot_iff, fun _ _ _ => ofSnapshot_eq_error_iff,
    fun _ rows small => load?_eq small rows,
    fun _ _ _ read => ⟨size_of_ofSnapshot read, toSnapshot_of_ofSnapshot read⟩,
    rebuilt, read, h.rebuilt_eq_iff read⟩

/-- A tile of value zero is lost in the snapshot, and the board is not rebuilt. -/
theorem snapshots_and_boards_invert_but_for_zero :
    let g := ((empty 2).insert (.plain ⟨1, 0⟩ 2)).insert (.plain ⟨0, 1⟩ 0)
    g.Reachable ∧ g.toSnapshot = [[0, 2], [0, 0]] ∧
      ∃ rebuilt, ofSnapshot g.size g.toSnapshot = .ok rebuilt ∧ rebuilt ≠ g := by
  intro g
  have reachable : g.Reachable := .insert (.insert (.empty 2) _) _
  obtain ⟨-, -, -, -, rebuilt, read, same⟩ := snapshots_and_boards_invert reachable
  refine ⟨reachable, by decide, rebuilt, read, mt same.mp fun plain => ?_⟩
  exact (plain ⟨0, 1⟩ (.plain ⟨0, 1⟩ 0) (by decide)).1 rfl

end Grid

end TileClient.Board
