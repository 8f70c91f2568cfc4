import Mathlib.Tactic.Linarith
import Mathlib.Tactic.Ring
import TileClient.Board.Walk
import TileClient.Proofs.Board.Shape

/-! Walks end. A walk with a step other than zero meets at most as many free cells as the board is
wide, and stops at the first place that is not one; where that is, is told by a single number. -/
namespace TileClient.Board

def Position.along (p : Position) (v : Vector) (n : Nat) : Position := ⟨p.x + n * v.x, p.y + n * v.y⟩

/-- A place whose coordinates are signed numbers of 32 bits. -/
def Position.Fits (p : Position) : Prop :=
  (-2 ^ 31 ≤ p.x ∧ p.x < 2 ^ 31) ∧ -2 ^ 31 ≤ p.y ∧ p.y < 2 ^ 31

instance (p : Position) : Decidable p.Fits := inferInstanceAs (Decidable (_ ∧ _))

namespace Position

variable (p : Position) (v : Vector) (n : Nat)

@[simp]
theorem along_zero : p.along v 0 = p := by simp [along]

@[simp]
theorem along_one : p.along v 1 = p.offset v := by simp [along, offset]

theorem offset_along : (p.offset v).along v n = p.along v (n + 1) := by
  simp only [along, offset, mk.injEq, Nat.cast_add, Nat.cast_one]
  constructor <;> ring

theorem along_succ : p.along v (n + 1) = (p.along v n).offset v := by
  simp only [along, offset, mk.injEq, Nat.cast_add, Nat.cast_one]
  constructor <;> ring

end Position

namespace Grid

/-- The walk as a loop without a bound, on coordinates of 32 bits: it goes on to the next place as
long as that is free. A loop that never ends or whose coordinates do not fit has no outcome. The
number is that of the steps taken. -/
inductive Ends (g : Grid) (v : Vector) : Position → Nat → Walk → Prop
  | stopped {here : Position} (fits : (here.offset v).Fits)
    (blocked : g.available (here.offset v) = false) : Ends g v here 0 ⟨here, here.offset v⟩
  | stepped {here : Position} {steps : Nat} {w : Walk} (fits : (here.offset v).Fits)
    (free : g.available (here.offset v) = true) (rest : Ends g v (here.offset v) steps w) :
    Ends g v here (steps + 1) w

/-- The places that a walk looks at, one after the other. -/
inductive Inspects (g : Grid) (v : Vector) (start : Position) : Position → Prop
  | first : Inspects g v start (start.offset v)
  | next {p : Position} (before : Inspects g v start p) (free : g.available p = true) :
    Inspects g v start (p.offset v)

/-- How far a walk from `start` got: so many free cells, and then none. -/
structure Measures (g : Grid) (v : Vector) (start : Position) (k : Nat) (w : Walk) : Prop where
  farthest : w.farthest = start.along v k
  next : w.next = start.along v (k + 1)
  free : ∀ i, 0 < i → i ≤ k →
    g.inBounds (start.along v i) = true ∧ g.occupied (start.along v i) = false
  blocked : g.inBounds w.next = false ∨ g.occupied w.next = true

variable {g : Grid} {v : Vector} {start here p : Position} {k n : Nat} {w : Walk}

theorem available_eq_false_iff :
    g.available p = false ↔ g.inBounds p = false ∨ g.occupied p = true := by
  rw [← Bool.not_eq_true, available_iff, Decidable.not_and_iff_not_or_not, Bool.not_eq_true,
    Bool.not_eq_false]

theorem Measures.available (h : g.Measures v start k w) {i : Nat} (positive : 0 < i) (le : i ≤ k) :
    g.available (start.along v i) = true :=
  available_iff.mpr (h.free i positive le)

theorem Measures.unique {w' : Walk} (h : g.Measures v start k w) (h' : g.Measures v start n w') :
    k = n := by
  have blocked := available_eq_false_iff.mpr h.blocked
  have blocked' := available_eq_false_iff.mpr h'.blocked
  rw [h.next] at blocked
  rw [h'.next] at blocked'
  rcases Nat.lt_trichotomy k n with less | same | more
  · exact absurd (h'.available k.succ_pos less) (by simp [blocked])
  · exact same
  · exact absurd (h.available n.succ_pos more) (by simp [blocked'])

theorem Measures.walk_eq {w' : Walk} (h : g.Measures v start k w) (h' : g.Measures v start k w') :
    w = w' := by
  obtain ⟨farthest, next⟩ := w
  obtain ⟨farthest', next'⟩ := w'
  exact congrArg₂ Walk.mk (h.farthest.trans h'.farthest.symm) (h.next.trans h'.next.symm)

theorem measures_zero_iff : g.Measures v start 0 w ↔
    g.available (start.offset v) = false ∧ w = ⟨start, start.offset v⟩ := by
  constructor
  · intro h
    have farthest := h.farthest
    have next := h.next
    have blocked := available_eq_false_iff.mpr h.blocked
    simp only [Position.along_zero, Nat.zero_add, Position.along_one] at farthest next
    exact ⟨next ▸ blocked, congrArg₂ Walk.mk farthest next⟩
  · rintro ⟨blocked, rfl⟩
    refine ⟨by simp, by simp, fun i positive le => ?_, available_eq_false_iff.mp blocked⟩
    exact absurd positive (Nat.not_lt.mpr le)

/-- A walk that is measured from its first free cell has taken one step more. -/
theorem measures_succ_iff : g.Measures v start (k + 1) w ↔
    g.available (start.offset v) = true ∧ g.Measures v (start.offset v) k w := by
  constructor
  · intro h
    have first := h.available Nat.zero_lt_one (Nat.le_add_left 1 k)
    rw [Position.along_one] at first
    refine ⟨first, by rw [Position.offset_along, h.farthest],
      by rw [Position.offset_along, h.next], fun i _ le => ?_, h.blocked⟩
    rw [Position.offset_along]
    exact h.free _ i.succ_pos (Nat.succ_le_succ le)
  · rintro ⟨first, h⟩
    refine ⟨by rw [← Position.offset_along, h.farthest],
      by rw [← Position.offset_along, h.next], fun i positive le => ?_, h.blocked⟩
    obtain _ | _ | i := i
    · exact absurd positive (Nat.lt_irrefl 0)
    · rw [Position.along_one]
      exact available_iff.mp first
    · rw [← Position.offset_along]
      exact h.free _ i.succ_pos (Nat.le_of_succ_le_succ le)

theorem walkWithin_eq_some_iff {steps : Nat} :
    g.walkWithin v steps start = some w ↔ ∃ k ≤ steps, g.Measures v start k w := by
  induction steps generalizing start with
  | zero =>
    cases free : g.available (start.offset v) <;>
      simp [walkWithin, free, measures_zero_iff, eq_comm]
  | succ steps ih =>
    rw [walkWithin]
    split
    · rename_i free
      rw [ih]
      constructor
      · rintro ⟨k, le, h⟩
        exact ⟨k + 1, Nat.succ_le_succ le, measures_succ_iff.mpr ⟨free, h⟩⟩
      · rintro ⟨_ | k, le, h⟩
        · exact absurd (measures_zero_iff.mp h).1 (by simp [free])
        · exact ⟨k, Nat.le_of_succ_le_succ le, (measures_succ_iff.mp h).2⟩
    · rename_i blocked
      rw [Bool.not_eq_true] at blocked
      constructor
      · intro stopped
        exact ⟨0, Nat.zero_le _, measures_zero_iff.mpr ⟨blocked, (Option.some.inj stopped).symm⟩⟩
      · rintro ⟨_ | k, -, h⟩
        · exact congrArg some (measures_zero_iff.mp h).2.symm
        · exact absurd (measures_succ_iff.mp h).1 (by simp [blocked])

theorem free_of_walkWithin_eq_none {steps : Nat} (endless : g.walkWithin v steps start = none)
    {i : Nat} (positive : 0 < i) (le : i ≤ steps + 1) : g.available (start.along v i) = true := by
  induction steps generalizing start i with
  | zero =>
    obtain rfl : i = 1 := Nat.le_antisymm le positive
    simpa [walkWithin] using endless
  | succ steps ih =>
    rw [walkWithin] at endless
    split at endless
    · rename_i free
      obtain _ | _ | i := i
      · exact absurd positive (Nat.lt_irrefl 0)
      · rwa [Position.along_one]
      · rw [← Position.offset_along]
        exact ih endless i.succ_pos (Nat.le_of_succ_le_succ le)
    · cases endless

/-- So many different numbers at equal distances do not fit below a smaller one. -/
private theorem le_of_spaced {a c : Int} {k size : Nat} (moving : c ≠ 0)
    (first : 0 ≤ a + c ∧ a + c < size) (last : 0 ≤ a + k * c ∧ a + k * c < size) : k ≤ size := by
  by_contra more
  have more : (size : Int) + 1 ≤ k := by omega
  rcases Int.lt_or_gt_of_ne moving with down | up
  · nlinarith
  · nlinarith

theorem le_size_of_free (moving : v ≠ ⟨0, 0⟩)
    (free : ∀ i, 0 < i → i ≤ k → g.available (start.along v i) = true) : k ≤ g.size := by
  rcases Nat.eq_zero_or_pos k with rfl | positive
  · exact Nat.zero_le _
  have inside {i : Nat} (h : 0 < i ∧ i ≤ k) := inBounds_iff.mp (available_iff.mp (free i h.1 h.2)).1
  have first := inside ⟨Nat.zero_lt_one, positive⟩
  have last := inside ⟨positive, Nat.le_refl k⟩
  simp only [Position.along, Nat.cast_one, one_mul] at first last
  by_cases sideways : v.x = 0
  · have upright : v.y ≠ 0 := fun still => moving (congrArg₂ Vector.mk sideways still)
    exact le_of_spaced upright first.2 last.2
  · exact le_of_spaced sideways first.1 last.1

theorem exists_walk (moving : v ≠ ⟨0, 0⟩) (start : Position) :
    ∃ k ≤ g.size, ∃ w, g.walk? start v = some w ∧ g.Measures v start k w := by
  cases outcome : g.walk? start v with
  | none =>
    have free : ∀ i, 0 < i → i ≤ g.size + 1 → g.available (start.along v i) = true :=
      fun i => free_of_walkWithin_eq_none outcome
    exact absurd (le_size_of_free moving free) (Nat.not_succ_le_self _)
  | some w =>
    obtain ⟨k, le, h⟩ := walkWithin_eq_some_iff.mp outcome
    exact ⟨k, le, w, rfl, h⟩

/-- The loop comes to its outcome if there is one and every place on the way fits. -/
theorem ends_iff : g.Ends v start k w ↔
    g.Measures v start k w ∧ ∀ i, i ≤ k → (start.along v (i + 1)).Fits := by
  constructor
  · intro ends
    induction ends with
    | stopped fits blocked =>
      refine ⟨measures_zero_iff.mpr ⟨blocked, rfl⟩, fun i none => ?_⟩
      rwa [Nat.le_zero.mp none, Position.along_one]
    | stepped fits free rest ih =>
      refine ⟨measures_succ_iff.mpr ⟨free, ih.1⟩, fun i le => ?_⟩
      cases i with
      | zero => rwa [Position.along_one]
      | succ i =>
        rw [← Position.offset_along]
        exact ih.2 i (Nat.le_of_succ_le_succ le)
  · rintro ⟨measures, fits⟩
    induction k generalizing start with
    | zero =>
      obtain ⟨blocked, rfl⟩ := measures_zero_iff.mp measures
      have first := fits 0 (Nat.le_refl 0)
      rw [Position.along_one] at first
      exact .stopped first blocked
    | succ k ih =>
      obtain ⟨free, measures⟩ := measures_succ_iff.mp measures
      have first := fits 0 (Nat.zero_le _)
      rw [Position.along_one] at first
      refine .stepped first free (ih measures fun i le => ?_)
      rw [Position.offset_along]
      exact fits (i + 1) (Nat.succ_le_succ le)

theorem Measures.inspects (h : g.Measures v start k w) {i : Nat} (le : i ≤ k) :
    g.Inspects v start (start.along v (i + 1)) := by
  induction i with
  | zero => simpa using Inspects.first
  | succ i ih =>
    rw [Position.along_succ]
    exact .next (ih (Nat.le_of_succ_le le)) (h.available i.succ_pos le)

/-- A walk looks at the places from the first one ahead up to the one that blocks it, and at no
others. -/
theorem Measures.inspects_iff (h : g.Measures v start k w) :
    g.Inspects v start p ↔ ∃ j, 1 ≤ j ∧ j ≤ k + 1 ∧ p = start.along v j := by
  constructor
  · intro inspected
    induction inspected with
    | first => exact ⟨1, Nat.le_refl 1, Nat.le_add_left 1 k, (start.along_one v).symm⟩
    | next before free ih =>
      obtain ⟨j, positive, le, rfl⟩ := ih
      have unblocked : j ≠ k + 1 := by
        rintro rfl
        have blocked := available_eq_false_iff.mpr h.blocked
        rw [h.next, free] at blocked
        cases blocked
      exact ⟨j + 1, Nat.le_add_left 1 j, by omega, (start.along_succ v j).symm⟩
  · rintro ⟨j, positive, le, rfl⟩
    obtain ⟨i, rfl⟩ := Nat.exists_eq_add_of_le' positive
    exact h.inspects (Nat.le_of_succ_le_succ le)

theorem ends_of_fits (fits : ∀ p, g.Inspects v start p → p.Fits) :
    g.Ends v start k w ↔ g.Measures v start k w :=
  ends_iff.trans (and_iff_left_of_imp fun h _ le => fits _ (h.inspects le))

theorem vector_ne_zero (d : Direction) : d.vector ≠ ⟨0, 0⟩ := by
  cases d <;> decide

theorem fits_offset (small : g.size < 2 ^ 31) (inside : g.inBounds p = true) (d : Direction) :
    (p.offset d.vector).Fits := by
  obtain ⟨⟨left, right⟩, top, bottom⟩ := inBounds_iff.mp inside
  simp only [Position.Fits, Position.offset]
  cases d <;> simp only [Direction.vector] <;> omega

theorem fits_of_inspects (small : g.size < 2 ^ 31) {d : Direction}
    (first : (start.offset d.vector).Fits) (inspected : g.Inspects d.vector start p) : p.Fits := by
  cases inspected with
  | first => exact first
  | next before free => exact fits_offset small (available_iff.mp free).1 d

theorem along_still (start : Position) (i : Nat) : start.along ⟨0, 0⟩ i = start := by
  simp [Position.along]

/-- A walk that stands still never gets away from a free cell. -/
theorem measures_still_iff : g.Measures ⟨0, 0⟩ start k w ↔
    g.available start = false ∧ k = 0 ∧ w = ⟨start, start⟩ := by
  have still : start.offset ⟨0, 0⟩ = start := by simp [Position.offset]
  cases k with
  | zero => rw [measures_zero_iff, still, eq_self, true_and]
  | succ k =>
    constructor
    · intro h
      have free := h.available k.succ_pos (Nat.le_refl _)
      have blocked := available_eq_false_iff.mpr h.blocked
      rw [h.next, along_still] at blocked
      rw [along_still, blocked] at free
      cases free
    · rintro ⟨-, moved, -⟩
      cases moved

/-- Where a walk ends. On a board whose coordinates have 32 bits, from any place on it or beside it,
a walk along any vector but zero ends if no place on its way is beyond the coordinates. It takes no
more steps than the board is wide, and exactly one number `k` tells its outcome: all cells up to the
one `k` steps away are free, and the next is not. A walk by unit steps never leaves the coordinates
later than at once, and one that stands still ends just where its cell is not free. -/
theorem walk_ends_at_first_obstacle (g : Grid) (small : g.size < 2 ^ 31) (start : Position) :
    (∀ v, v ≠ ⟨0, 0⟩ → (∀ p, g.Inspects v start p → p.Fits) →
      ∃ k ≤ g.size, ∃ w, g.walk? start v = some w ∧
        (∀ steps w', g.Ends v start steps w' ↔ steps = k ∧ w' = w) ∧
        ∀ j, g.Measures v start j w ↔ j = k) ∧
    (∀ d : Direction, (start.offset d.vector).Fits →
      ∀ p, g.Inspects d.vector start p → p.Fits) ∧
    (start.Fits → ((∃ steps w, g.Ends ⟨0, 0⟩ start steps w) ↔ g.available start = false)) ∧
    ((∃ w, g.walk? start ⟨0, 0⟩ = some w) ↔ g.available start = false) := by
  refine ⟨fun v moving fits => ?_, fun d first p => fits_of_inspects small first, fun fits => ?_, ?_⟩
  · obtain ⟨k, le, w, outcome, measures⟩ := exists_walk (g := g) moving start
    refine ⟨k, le, w, outcome, fun steps w' => ?_, fun j => ?_⟩
    · rw [ends_of_fits fits]
      constructor
      · intro h
        obtain rfl := h.unique measures
        exact ⟨rfl, h.walk_eq measures⟩
      · rintro ⟨rfl, rfl⟩
        exact measures
    · exact ⟨fun h => h.unique measures, fun same => same ▸ measures⟩
  · have stays : ∀ i, (start.along ⟨0, 0⟩ i).Fits := fun i => (along_still start i).symm ▸ fits
    simp [ends_iff, measures_still_iff, stays]
  · constructor
    · rintro ⟨w, outcome⟩
      obtain ⟨k, -, h⟩ := walkWithin_eq_some_iff.mp outcome
      exact (measures_still_iff.mp h).1
    · intro blocked
      have h := measures_still_iff.mpr ⟨blocked, rfl, rfl⟩
      exact ⟨⟨start, start⟩, walkWithin_eq_some_iff.mpr ⟨0, Nat.zero_le _, h⟩⟩

/-- From the left of a board of three by three, whose right upper cell holds the only tile, a walk
to the right crosses the border and two free cells. -/
theorem walk_ends_at_first_obstacle_from_outside :
    let g := (empty 3).insert (.plain ⟨2, 0⟩ 4)
    g.size < 2 ^ 31 ∧ g.walk? ⟨-1, 0⟩ ⟨1, 0⟩ = some ⟨⟨1, 0⟩, ⟨2, 0⟩⟩ ∧
      g.Ends ⟨1, 0⟩ ⟨-1, 0⟩ 2 ⟨⟨1, 0⟩, ⟨2, 0⟩⟩ := by
  intro g
  have small : g.size < 2 ^ 31 := by decide
  obtain ⟨moving, unit, -⟩ := walk_ends_at_first_obstacle g small ⟨-1, 0⟩
  have fits := unit .right (by decide)
  obtain ⟨k, -, w, outcome, ends, measures⟩ := moving ⟨1, 0⟩ (by decide) fits
  have found : g.walk? ⟨-1, 0⟩ ⟨1, 0⟩ = some ⟨⟨1, 0⟩, ⟨2, 0⟩⟩ := by decide
  obtain rfl := Option.some.inj (outcome.symm.trans found)
  have two : 2 = k := by
    have farthest := ((measures k).mpr rfl).farthest
    simp [Position.along] at farthest
    omega
  exact ⟨small, found, (ends 2 _).mpr ⟨two, rfl⟩⟩

end Grid

end TileClient.Board
