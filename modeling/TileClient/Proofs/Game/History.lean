import Mathlib.Data.List.DropRight
import TileClient.Game.Controller
import TileClient.Proofs.Board.Snapshot

/-! The replica is what the history of a controller makes of it. Of all that was ever asked of the
controller only the updates that it took over count, and but for the best score only those since
the round began. -/
namespace TileClient.Game
open Board

/-- The replica after an update that is taken over. A round that is won is followed by a new one. -/
def Replica.told (r : Replica) (grid : Grid) (u : Wire.Update) : Replica :=
  if u.won then { fresh grid.size with bestScore := max r.bestScore u.score }
  else { Controller.accepted r grid u with lost := r.lost || u.lost }

/-- What is shown of an update that is taken over. -/
def Replica.shows (r : Replica) (grid : Grid) (u : Wire.Update) : List Frame :=
  let board (r : Replica) : Frame := .board r.grid r.figures
  if u.won then [board { Controller.accepted r grid u with won := true }, board (r.told grid u)]
  else if u.lost then [board (r.told grid u), board (r.told grid u)]
  else [board (r.told grid u)]

namespace Controller

variable {c : Controller} {u : Wire.Update}

theorem update_of_grid {grid : Grid} (h : Grid.ofSnapshot c.size u.grid = .ok grid) :
    c.update u = .ok { c with
      replica := c.replica.told grid u
      frames := c.frames ++ c.replica.shows grid u } := by
  unfold update
  rw [h]
  cases won : u.won <;> cases lost : u.lost <;>
    simp [won, lost, draw, Replica.told, Replica.shows, accepted, Replica.resetRound]

theorem applyUpdate_of_grid {grid : Grid} (h : Grid.ofSnapshot c.size u.grid = .ok grid) :
    c.applyUpdate u = { c with
      replica := c.replica.told grid u
      frames := c.frames ++ c.replica.shows grid u } := by
  rw [applyUpdate, update_of_grid h]

theorem update_of_misshapen (odd : ¬ u.grid.IsSquare c.size) :
    ∃ shape, u.grid.misshapen? c.size = some shape ∧
      c.update u = .error (.malformedUpdate (Violation.gridDimension shape).message) := by
  obtain ⟨shape, found, refused⟩ := Grid.ofSnapshot_of_misshapen odd
  exact ⟨shape, found, by rw [update, refused]⟩

theorem applyUpdate_of_misshapen (odd : ¬ u.grid.IsSquare c.size) : c.applyUpdate u = c := by
  obtain ⟨shape, -, refused⟩ := update_of_misshapen odd
  rw [applyUpdate, refused]

theorem update_eq_malformed_iff :
    (∃ detail, c.update u = .error (.malformedUpdate detail)) ↔ ¬ u.grid.IsSquare c.size := by
  constructor
  · rintro ⟨detail, refused⟩ square
    rw [update_of_grid (Grid.ofSnapshot_of_isSquare square)] at refused
    cases refused
  · intro odd
    obtain ⟨shape, -, refused⟩ := update_of_misshapen odd
    exact ⟨_, refused⟩

end Controller

/-- What can be asked of a controller. -/
inductive Operation where
  | setup
  | update (u : Wire.Update)
  | move (d : Direction)
  | restart
  | notify (text : String)
  deriving DecidableEq, Repr

namespace Operation

/-- The update that a controller of a size takes over. -/
def accepted? (size : Nat) : Operation → Option Wire.Update
  | .update u => if u.grid.IsSquare size then some u else none
  | .setup | .move _ | .restart | .notify _ => none

/-- A round begins with a setup, and after an update by which the round before it is won. -/
def beginsRound (size : Nat) (op : Operation) : Bool :=
  op = .setup || (op.accepted? size).any (·.won)

end Operation

/-- The updates of a history that a controller of a size takes over, oldest first. -/
def accepted (size : Nat) (ops : List Operation) : List Wire.Update :=
  ops.filterMap (Operation.accepted? size)

/-- What was asked since the round began. -/
def round (size : Nat) (ops : List Operation) : List Operation :=
  ops.rtakeWhile fun op => !op.beginsRound size

/-- Does what is asked. A move goes past the controller, whoever sends it. -/
def Controller.perform (c : Controller) : Operation → Controller
  | .setup => c.setup
  | .update u => c.applyUpdate u
  | .move _ => c
  | .restart => c.restart.1
  | .notify text => c.notify text

def Controller.performAll (c : Controller) (ops : List Operation) : Controller :=
  ops.foldl Controller.perform c

section
variable {size : Nat} {ops : List Operation} {op : Operation}

theorem accepted_concat :
    accepted size (ops ++ [op]) = accepted size ops ++ (op.accepted? size).toList := by
  rw [accepted, List.filterMap_append]
  cases h : op.accepted? size <;> simp [accepted, h]

theorem round_of_begins (begins : op.beginsRound size = true) : round size (ops ++ [op]) = [] :=
  List.rtakeWhile_concat_neg _ _ _ (by simp [begins])

theorem round_of_goesOn (goesOn : op.beginsRound size = false) :
    round size (ops ++ [op]) = round size ops ++ [op] :=
  List.rtakeWhile_concat_pos _ _ _ (by simp [goesOn])

end

/-- The replica is told by a history. -/
structure Replica.Recounts (r : Replica) (size : Nat) (ops : List Operation) : Prop where
  unheard : accepted size (round size ops) = [] → r.grid = .empty size ∧ r.score = 0
  heard : ∀ u, (accepted size (round size ops)).getLast? = some u →
    Grid.ofSnapshot size u.grid = .ok r.grid ∧ r.score = u.score
  lost : r.lost = (accepted size (round size ops)).any (·.lost)
  won : r.won = false
  keepPlaying : r.keepPlaying = false
  bounds : ∀ u ∈ accepted size ops, u.score ≤ r.bestScore
  reached : r.bestScore = 0 ∨ ∃ u ∈ accepted size ops, u.score = r.bestScore

namespace Replica.Recounts

variable {r : Replica} {size : Nat} {ops : List Operation} {op : Operation}

theorem fresh (size : Nat) : (Replica.fresh size).Recounts size [] := by
  constructor <;> simp [Replica.fresh, accepted, round]

theorem size_eq (h : r.Recounts size ops) : r.grid.size = size := by
  cases last : (accepted size (round size ops)).getLast? with
  | none =>
    rw [(h.unheard (List.getLast?_eq_none_iff.mp last)).1]
    rfl
  | some u => exact Grid.size_of_ofSnapshot (h.heard u last).1

theorem score_le (h : r.Recounts size ops) : r.score ≤ r.bestScore := by
  cases last : (accepted size (round size ops)).getLast? with
  | none =>
    rw [(h.unheard (List.getLast?_eq_none_iff.mp last)).2]
    exact UInt64.zero_le
  | some u =>
    rw [(h.heard u last).2]
    refine h.bounds u ?_
    have since : round size ops <:+ ops := List.rtakeWhile_suffix ..
    exact (since.sublist.filterMap _).subset (List.mem_of_getLast? last)

theorem silent (h : r.Recounts size ops) (none : op.accepted? size = none) (other : op ≠ .setup) :
    r.Recounts size (ops ++ [op]) := by
  have all : accepted size (ops ++ [op]) = accepted size ops := by
    rw [accepted_concat, none, Option.toList_none, List.append_nil]
  have since : accepted size (round size (ops ++ [op])) = accepted size (round size ops) := by
    rw [round_of_goesOn (by simp [Operation.beginsRound, none, other]), accepted_concat, none,
      Option.toList_none, List.append_nil]
  obtain ⟨unheard, heard, lost, won, keepPlaying, bounds, reached⟩ := h
  constructor
  · rwa [since]
  · rwa [since]
  · rwa [since]
  · exact won
  · exact keepPlaying
  · rwa [all]
  · rwa [all]

theorem setup (h : r.Recounts size ops) : r.resetRound.Recounts size (ops ++ [.setup]) := by
  have since : round size (ops ++ [.setup]) = [] := round_of_begins rfl
  have all : accepted size (ops ++ [.setup]) = accepted size ops := by
    rw [accepted_concat]
    exact List.append_nil _
  constructor
  · exact fun _ => ⟨congrArg Grid.empty h.size_eq, rfl⟩
  · simp [since, accepted]
  · rw [since]
    rfl
  · rfl
  · rfl
  · rw [all]
    exact h.bounds
  · rw [all]
    exact h.reached

/-- The best score is raised by every update that is taken over, if it is lower. -/
private theorem best_concat (h : r.Recounts size ops) {u : Wire.Update}
    (taken : op.accepted? size = some u) :
    (∀ v ∈ accepted size (ops ++ [op]), v.score ≤ max r.bestScore u.score) ∧
      (max r.bestScore u.score = 0 ∨
        ∃ v ∈ accepted size (ops ++ [op]), v.score = max r.bestScore u.score) := by
  rw [accepted_concat, taken, Option.toList_some]
  rcases UInt64.le_total r.bestScore u.score with raised | stays
  · have new : max r.bestScore u.score = u.score := if_pos raised
    rw [new]
    refine ⟨fun v member => ?_, .inr ⟨u, by simp, rfl⟩⟩
    rcases List.mem_append.mp member with old | last
    · exact UInt64.le_trans (h.bounds v old) raised
    · rw [List.mem_singleton.mp last]
      exact UInt64.le_refl _
  · have old : max r.bestScore u.score = r.bestScore := by
      change (if r.bestScore ≤ u.score then u.score else r.bestScore) = r.bestScore
      split
      · exact UInt64.le_antisymm stays ‹_›
      · rfl
    rw [old]
    refine ⟨fun v member => ?_, h.reached.imp id ?_⟩
    · rcases List.mem_append.mp member with before | last
      · exact h.bounds v before
      · rw [List.mem_singleton.mp last]
        exact stays
    · exact fun ⟨v, member, same⟩ => ⟨v, List.mem_append_left _ member, same⟩

theorem told (h : r.Recounts size ops) {u : Wire.Update} {grid : Grid}
    (read : Grid.ofSnapshot size u.grid = .ok grid) :
    (r.told grid u).Recounts size (ops ++ [.update u]) := by
  have taken : (Operation.update u).accepted? size = some u :=
    if_pos (Grid.isSquare_of_ofSnapshot read)
  obtain ⟨bounds, reached⟩ := h.best_concat taken
  cases won : u.won with
  | true =>
    have since : round size (ops ++ [.update u]) = [] :=
      round_of_begins (by simp [Operation.beginsRound, taken, won])
    have after : r.told grid u =
        { Replica.fresh size with bestScore := max r.bestScore u.score } := by
      rw [Replica.told, if_pos won, Grid.size_of_ofSnapshot read]
    rw [after]
    constructor
    · exact fun _ => ⟨rfl, rfl⟩
    · simp [since, accepted]
    · rw [since]
      rfl
    · rfl
    · rfl
    · exact bounds
    · exact reached
  | false =>
    have since : accepted size (round size (ops ++ [.update u])) =
        accepted size (round size ops) ++ [u] := by
      rw [round_of_goesOn (by simp [Operation.beginsRound, taken, won]), accepted_concat, taken,
        Option.toList_some]
    have after : r.told grid u = { Controller.accepted r grid u with lost := r.lost || u.lost } :=
      if_neg (by simp [won])
    rw [after]
    constructor
    · simp [since]
    · rw [since, List.getLast?_concat]
      rintro v ⟨⟩
      exact ⟨read, rfl⟩
    · simp [since, h.lost]
    · exact h.won
    · exact h.keepPlaying
    · exact bounds
    · exact reached

end Replica.Recounts

namespace Controller

theorem size_perform (c : Controller) (op : Operation) : (c.perform op).size = c.size := by
  cases op with
  | update u =>
    by_cases square : u.grid.IsSquare c.size
    · rw [perform, applyUpdate_of_grid (Grid.ofSnapshot_of_isSquare square)]
    · rw [perform, applyUpdate_of_misshapen square]
  | setup | move | restart | notify => rfl

theorem recounts_perform {c : Controller} {size : Nat} {ops : List Operation} (same : c.size = size)
    (h : c.replica.Recounts size ops) (op : Operation) :
    (c.perform op).replica.Recounts size (ops ++ [op]) := by
  subst same
  cases op with
  | setup => exact h.setup
  | update u =>
    by_cases square : u.grid.IsSquare c.size
    · have read := Grid.ofSnapshot_of_isSquare square
      rw [perform, applyUpdate_of_grid read]
      exact h.told read
    · rw [perform, applyUpdate_of_misshapen square]
      exact h.silent (if_neg square) nofun
  | move | restart | notify => exact h.silent rfl nofun

theorem recounts_performAll (size : Nat) (ops : List Operation) :
    ((fresh size).performAll ops).size = size ∧
      ((fresh size).performAll ops).replica.Recounts size ops := by
  induction ops using List.reverseRecOn with
  | nil => exact ⟨rfl, .fresh size⟩
  | append_singleton ops op ih =>
    obtain ⟨same, recounts⟩ := ih
    rw [performAll, List.foldl_append]
    exact ⟨(size_perform _ op).trans same, recounts_perform same recounts op⟩

/-- Whatever was asked of a controller, its replica is what the history says. An update is refused
if it is not square of the controller's size, and then nothing changes; the best score is the
greatest of all that were taken over. Since the round began, the last update that was taken over
gives the board and the score, and one that says so is enough for the round to be lost. Where
there is none the board is empty. -/
theorem replica_of_history (size : Nat) (ops : List Operation) :
    let c := (fresh size).performAll ops
    let heard := Game.accepted size (round size ops)
    (∀ u, ((∃ detail, c.update u = .error (.malformedUpdate detail)) ↔ ¬ u.grid.IsSquare size) ∧
      (¬ u.grid.IsSquare size → c.applyUpdate u = c) ∧
      (u.grid.IsSquare size → c.update u = .ok (c.applyUpdate u))) ∧
    (∀ u ∈ Game.accepted size ops, u.score ≤ c.replica.bestScore) ∧
    (c.replica.bestScore = 0 ∨ ∃ u ∈ Game.accepted size ops, u.score = c.replica.bestScore) ∧
    (heard = [] → c.replica.grid = .empty size ∧ c.replica.score = 0 ∧ c.replica.lost = false) ∧
    (∀ u, heard.getLast? = some u →
      c.replica.grid.toSnapshot = u.grid ∧ c.replica.score = u.score ∧
        (c.replica.lost = true ↔ ∃ v ∈ heard, v.lost = true)) ∧
    c.replica.won = false ∧ c.replica.keepPlaying = false ∧ c.replica.grid.size = size ∧
    c.replica.score ≤ c.replica.bestScore ∧ c.replica.isTerminated = c.replica.lost := by
  intro c heard
  obtain ⟨same, h⟩ : c.size = size ∧ c.replica.Recounts size ops := recounts_performAll size ops
  refine ⟨fun u => ?_, h.bounds, h.reached, fun none => ?_, fun u last => ?_, h.won, h.keepPlaying,
    h.size_eq, h.score_le, ?_⟩
  · rw [← same]
    refine ⟨update_eq_malformed_iff, applyUpdate_of_misshapen, fun square => ?_⟩
    have read := Grid.ofSnapshot_of_isSquare square
    rw [update_of_grid read, applyUpdate_of_grid read]
  · obtain ⟨grid, score⟩ := h.unheard none
    refine ⟨grid, score, ?_⟩
    exact h.lost.trans (congrArg (List.any · (·.lost)) none)
  · obtain ⟨read, score⟩ := h.heard u last
    refine ⟨Grid.toSnapshot_of_ofSnapshot read, score, ?_⟩
    rw [h.lost, List.any_eq_true]
  · simp [Replica.isTerminated, h.won]

example : ((fresh 1).performAll [.update ⟨4, [[2]], false, true⟩, .update ⟨3, [], true, false⟩,
    .update ⟨2, [[4]], false, false⟩]).replica.figures = ⟨2, true, false, 4, true⟩ := by
  decide

end Controller

end TileClient.Game
