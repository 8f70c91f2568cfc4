import TileClient.Proofs.Game.History

/-! What an update leaves of the history before it. Two histories with the same best score come
together at the next update that is taken over, in all but one point: a round that was called lost
stays lost until it is won or a new one is set up, whatever the update says. -/
namespace TileClient.Game
open Board

def Controller.drawnFor (c : Controller) (u : Wire.Update) : List Frame :=
  (c.applyUpdate u).frames.drop c.frames.length

namespace Replica

/-- Two replicas with the same best score and the same flags, but perhaps for a loss. -/
structure Peers (r s : Replica) : Prop where
  bestScore : r.bestScore = s.bestScore
  won : r.won = s.won
  keepPlaying : r.keepPlaying = s.keepPlaying

namespace Peers

variable {r s : Replica} (h : r.Peers s) (grid : Grid) (u : Wire.Update)
include h

theorem told_but_lost :
    { r.told grid u with lost := false } = { s.told grid u with lost := false } := by
  cases won : u.won <;> simp [told, Controller.accepted, won, h.bestScore, h.won, h.keepPlaying]

theorem told_eq_iff : r.told grid u = s.told grid u ↔
    u.won = true ∨ u.lost = true ∨ r.lost = s.lost := by
  cases won : u.won with
  | true => simp [told, won, h.bestScore]
  | false =>
    cases lost : u.lost <;>
      simp [told, Controller.accepted, won, lost, h.bestScore, h.won, h.keepPlaying]

/-- The first board that a won round shows still tells of an earlier loss. -/
theorem shows_eq_iff : r.shows grid u = s.shows grid u ↔
    (u.won = false ∧ u.lost = true) ∨ r.lost = s.lost := by
  cases won : u.won with
  | true =>
    have same := (h.told_eq_iff grid u).mpr (.inl won)
    simp +contextual [shows, won, same, Controller.accepted, figures, isTerminated, h.bestScore,
      h.keepPlaying]
  | false =>
    cases lost : u.lost with
    | true =>
      have same := (h.told_eq_iff grid u).mpr (.inr (.inl lost))
      simp [shows, won, lost, same]
    | false =>
      simp +contextual [shows, told, won, lost, Controller.accepted, figures, isTerminated,
        h.bestScore, h.won, h.keepPlaying]

end Peers

theorem lost_told (r : Replica) (grid : Grid) (u : Wire.Update) :
    (r.told grid u).lost = (!u.won && (r.lost || u.lost)) := by
  cases won : u.won <;> simp [told, won, fresh]

theorem Recounts.peers {r s : Replica} {size : Nat} {xs ys : List Operation}
    (h : r.Recounts size xs) (k : s.Recounts size ys) (best : r.bestScore = s.bestScore) :
    r.Peers s :=
  ⟨best, h.won.trans k.won.symm, h.keepPlaying.trans k.keepPlaying.symm⟩

end Replica

namespace Controller

theorem drawnFor_of_grid {c : Controller} {u : Wire.Update} {grid : Grid}
    (h : Grid.ofSnapshot c.size u.grid = .ok grid) : c.drawnFor u = c.replica.shows grid u := by
  rw [drawnFor, applyUpdate_of_grid h, List.drop_left]

/-- After two histories with the same best score, an update that is taken over leaves replicas that
agree in all but whether the round is lost, and that depends on what was said since the round began.
The replicas agree in full, and so do the boards drawn, just where the update itself settles it or
where both rounds had been lost before, or neither. -/
theorem update_settles_all_but_loss (size : Nat) (xs ys : List Operation) (u : Wire.Update)
    (best : ((fresh size).performAll xs).replica.bestScore =
      ((fresh size).performAll ys).replica.bestScore)
    (square : u.grid.IsSquare size) :
    let a := (fresh size).performAll xs
    let b := (fresh size).performAll ys
    { (a.applyUpdate u).replica with lost := false } =
        { (b.applyUpdate u).replica with lost := false } ∧
      ((a.applyUpdate u).replica.lost = true ↔ u.won = false ∧
        (u.lost = true ∨ ∃ v ∈ Game.accepted size (round size xs), v.lost = true)) ∧
      ((a.applyUpdate u).replica = (b.applyUpdate u).replica ↔
        u.won = true ∨ u.lost = true ∨ a.replica.lost = b.replica.lost) ∧
      (a.drawnFor u = b.drawnFor u ↔
        (u.won = false ∧ u.lost = true) ∨ a.replica.lost = b.replica.lost) := by
  intro a b
  obtain ⟨sizeA, recountsA⟩ : a.size = size ∧ a.replica.Recounts size xs :=
    recounts_performAll size xs
  obtain ⟨sizeB, recountsB⟩ : b.size = size ∧ b.replica.Recounts size ys :=
    recounts_performAll size ys
  have peers : a.replica.Peers b.replica := recountsA.peers recountsB best
  obtain ⟨grid, read⟩ : ∃ grid, Grid.ofSnapshot size u.grid = .ok grid :=
    ⟨_, Grid.ofSnapshot_of_isSquare square⟩
  have readA : Grid.ofSnapshot a.size u.grid = .ok grid := sizeA ▸ read
  have readB : Grid.ofSnapshot b.size u.grid = .ok grid := sizeB ▸ read
  rw [applyUpdate_of_grid readA, applyUpdate_of_grid readB, drawnFor_of_grid readA,
    drawnFor_of_grid readB]
  refine ⟨peers.told_but_lost grid u, ?_, peers.told_eq_iff grid u, peers.shows_eq_iff grid u⟩
  rw [Replica.lost_told, recountsA.lost, ← List.any_eq_true]
  cases u.won <;> simp [or_comm]

theorem update_settles_all_but_loss_after_loss :
    let lost : List Operation := [.update ⟨4, [[2]], false, true⟩]
    let going : List Operation := [.update ⟨4, [[4]], false, false⟩, .restart]
    let u : Wire.Update := ⟨4, [[2]], false, false⟩
    let a := (fresh 1).performAll lost
    let b := (fresh 1).performAll going
    a.replica.bestScore = b.replica.bestScore ∧ u.grid.IsSquare 1 ∧
      (a.drawnFor u = b.drawnFor u ↔
        (u.won = false ∧ u.lost = true) ∨ a.replica.lost = b.replica.lost) := by
  refine ⟨by decide, by decide, ?_⟩
  exact (update_settles_all_but_loss 1 _ _ _ (by decide) (by decide)).2.2.2

/-- A round that was called lost stays lost after an update that does not say so. -/
theorem loss_outlives_update :
    let lost : List Operation := [.update ⟨4, [[2]], false, true⟩]
    let going : List Operation := [.update ⟨4, [[2]], false, false⟩]
    let u : Wire.Update := ⟨4, [[2]], false, false⟩
    let a := (fresh 1).performAll lost
    let b := (fresh 1).performAll going
    a.replica.bestScore = b.replica.bestScore ∧ u.won = false ∧ u.lost = false ∧
      (a.applyUpdate u).replica.lost = true ∧
      (a.applyUpdate u).replica ≠ (b.applyUpdate u).replica ∧ a.drawnFor u ≠ b.drawnFor u := by
  decide

end Controller

end TileClient.Game
