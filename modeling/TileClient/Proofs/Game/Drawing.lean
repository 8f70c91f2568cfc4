import TileClient.Proofs.Game.History

/-! What a controller draws is told by its history alone: each operation draws frames of its own,
and they follow one another. All boards that are drawn are true to the replica at the moment they are
drawn at, and the last one stays true until the next. -/
namespace TileClient.Game
open Board

def bestHeard (size : Nat) (ops : List Operation) : UInt64 :=
  (accepted size ops).foldl (fun best u => max best u.score) 0

def lossHeard (size : Nat) (ops : List Operation) : Bool :=
  (accepted size (round size ops)).any (·.lost)

/-- The board on which a round begins. -/
def openingFrame (size : Nat) (best : UInt64) : Frame :=
  .board (.empty size) ⟨0, false, false, best, false⟩

/-- The frames for an update that is taken over after a history, with the board that it shows. A won
round is followed by the opening of the next, and a lost one is shown twice. -/
def announcement (size : Nat) (before : List Operation) (u : Wire.Update) (grid : Grid) :
    List Frame :=
  let best := max (bestHeard size before) u.score
  if u.won then
    [.board grid ⟨u.score, lossHeard size before, true, best, true⟩, openingFrame size best]
  else if u.lost then
    [.board grid ⟨u.score, true, false, best, true⟩, .board grid ⟨u.score, true, false, best, true⟩]
  else [.board grid ⟨u.score, lossHeard size before, false, best, lossHeard size before⟩]

/-- The frames for an operation after a history. -/
def Operation.frames (size : Nat) (before : List Operation) : Operation → List Frame
  | .setup => [openingFrame size (bestHeard size before)]
  | .update u =>
    match Grid.ofSnapshot size u.grid with
    | .ok grid => announcement size before u grid
    | .error _ => []
  | .move _ => []
  | .restart => [.notice restartNotice]
  | .notify text => [.notice text]

/-- The frames for operations one after another, after a history. -/
def framesOf (size : Nat) (before : List Operation) : List Operation → List Frame
  | [] => []
  | op :: ops => op.frames size before ++ framesOf size (before ++ [op]) ops

/-- A board with its figures, if a frame shows one. -/
def Frame.board? : Frame → Option (Grid × Figures)
  | .board grid figures => some (grid, figures)
  | .notice _ => none

def boards (frames : List Frame) : List (Grid × Figures) := frames.filterMap Frame.board?

section
variable {size : Nat} {before ops : List Operation} {op : Operation}

theorem framesOf_concat : framesOf size before (ops ++ [op]) =
    framesOf size before ops ++ op.frames size (before ++ ops) := by
  induction ops generalizing before with
  | nil => simp [framesOf]
  | cons first ops ih => simp [framesOf, ih]

theorem boards_append (xs ys : List Frame) : boards (xs ++ ys) = boards xs ++ boards ys :=
  List.filterMap_append

theorem bestHeard_concat : bestHeard size (ops ++ [op]) =
    (op.accepted? size).elim (bestHeard size ops) fun u => max (bestHeard size ops) u.score := by
  rw [bestHeard, accepted_concat, List.foldl_append]
  cases op.accepted? size <;> rfl

end

theorem Replica.shows_eq_announcement {r : Replica} {size : Nat} {before : List Operation}
    (h : r.Recounts size before) (best : r.bestScore = bestHeard size before) {u : Wire.Update}
    {grid : Grid} (read : Grid.ofSnapshot size u.grid = .ok grid) :
    r.shows grid u = announcement size before u grid := by
  have lost : r.lost = lossHeard size before := h.lost
  cases won : u.won with
  | true =>
    simp [shows, told, announcement, openingFrame, won, Controller.accepted, best, lost, figures,
      isTerminated, Replica.fresh, h.keepPlaying, Grid.size_of_ofSnapshot read]
  | false =>
    cases beaten : u.lost <;>
      simp [shows, told, announcement, won, beaten, Controller.accepted, best, lost, figures,
        isTerminated, h.won]

namespace Controller

theorem bestScore_perform {c : Controller} {size : Nat} {before : List Operation}
    (same : c.size = size) (best : c.replica.bestScore = bestHeard size before) (op : Operation) :
    (c.perform op).replica.bestScore = bestHeard size (before ++ [op]) := by
  rw [bestHeard_concat, ← best]
  cases op with
  | update u =>
    subst same
    by_cases square : u.grid.IsSquare c.size
    · have taken : (Operation.update u).accepted? c.size = some u := if_pos square
      rw [perform, applyUpdate_of_grid (Grid.ofSnapshot_of_isSquare square), taken, Option.elim_some]
      cases won : u.won <;> simp [Replica.told, won, accepted]
    · have refused : (Operation.update u).accepted? c.size = none := if_neg square
      rw [perform, applyUpdate_of_misshapen square, refused, Option.elim_none]
  | setup | move | restart | notify => rfl

theorem performAll_concat (c : Controller) (ops : List Operation) (op : Operation) :
    c.performAll (ops ++ [op]) = (c.performAll ops).perform op :=
  List.foldl_concat ..

theorem bestScore_performAll (size : Nat) (ops : List Operation) :
    ((fresh size).performAll ops).replica.bestScore = bestHeard size ops := by
  induction ops using List.reverseRecOn with
  | nil => rfl
  | append_singleton ops op ih =>
    rw [performAll_concat]
    exact bestScore_perform (recounts_performAll size ops).1 ih op

end Controller

/-- A board with figures that agree with each other. -/
def Figures.Honest (f : Figures) : Prop :=
  f.score ≤ f.bestScore ∧ f.terminated = (f.lost || f.won)

/-- Boards that are drawn while one replica becomes another. The last of them shows what it has
become, and where there is none nothing has changed that could be shown. -/
structure Replica.Draws (r : Replica) (drawn : List (Grid × Figures)) (r' : Replica) : Prop where
  honest : ∀ b ∈ drawn, b.2.Honest
  rising : drawn.Pairwise fun b b' => b.2.bestScore ≤ b'.2.bestScore
  since : ∀ b ∈ drawn, r.bestScore ≤ b.2.bestScore
  upTo : ∀ b ∈ drawn, b.2.bestScore ≤ r'.bestScore
  best : r.bestScore ≤ r'.bestScore
  last : drawn.getLast?.getD (r.grid, r.figures) = (r'.grid, r'.figures)

namespace Replica.Draws

variable {r r' r'' : Replica} {drawn later : List (Grid × Figures)}

theorem nothing (r : Replica) : r.Draws [] r := by
  constructor <;> simp

theorem trans (h : r.Draws drawn r') (k : r'.Draws later r'') : r.Draws (drawn ++ later) r'' where
  honest := List.forall_mem_append.mpr ⟨h.honest, k.honest⟩
  rising := List.pairwise_append.mpr ⟨h.rising, k.rising, fun b here b' there =>
    UInt64.le_trans (h.upTo b here) (k.since b' there)⟩
  since := List.forall_mem_append.mpr ⟨h.since, fun b there =>
    UInt64.le_trans h.best (k.since b there)⟩
  upTo := List.forall_mem_append.mpr ⟨fun b here =>
    UInt64.le_trans (h.upTo b here) k.best, k.upTo⟩
  best := UInt64.le_trans h.best k.best
  last := by
    rw [List.getLast?_append, Option.getD_or, h.last]
    exact k.last

theorem single (best : r.bestScore ≤ r'.bestScore) (score : r'.score ≤ r'.bestScore)
    (keepPlaying : r'.keepPlaying = false) : r.Draws [(r'.grid, r'.figures)] r' where
  honest := List.forall_mem_singleton.mpr ⟨score, by simp [figures, isTerminated, keepPlaying]⟩
  rising := List.pairwise_singleton ..
  since := List.forall_mem_singleton.mpr best
  upTo := List.forall_mem_singleton.mpr (UInt64.le_refl _)
  best := best
  last := rfl

end Replica.Draws

private theorem le_max_left (a b : UInt64) : a ≤ max a b := by
  change a ≤ if a ≤ b then b else a
  split
  · assumption
  · exact UInt64.le_refl a

private theorem le_max_right (a b : UInt64) : b ≤ max a b := by
  change b ≤ if a ≤ b then b else a
  split
  · exact UInt64.le_refl b
  · exact (UInt64.le_total a b).resolve_left ‹_›

namespace Replica

variable {r : Replica} {size : Nat} {before : List Operation}

theorem draws_setup (r : Replica) : r.Draws [(r.resetRound.grid, r.resetRound.figures)] r.resetRound :=
  .single (UInt64.le_refl _) UInt64.zero_le rfl

theorem draws_shows (keepPlaying : r.keepPlaying = false) (grid : Grid) (u : Wire.Update) :
    r.Draws (boards (r.shows grid u)) (r.told grid u) := by
  have raised : r.bestScore ≤ max r.bestScore u.score := le_max_left ..
  have reached : u.score ≤ max r.bestScore u.score := le_max_right ..
  cases won : u.won with
  | true =>
    have after : r.told grid u =
        { Replica.fresh grid.size with bestScore := max r.bestScore u.score } := if_pos won
    have first : r.Draws _ { Controller.accepted r grid u with won := true } :=
      .single raised reached keepPlaying
    rw [shows, if_pos won]
    refine first.trans (.single ?_ ?_ ?_) <;> rw [after]
    · exact UInt64.le_refl _
    · exact UInt64.zero_le
    · rfl
  | false =>
    have after : r.told grid u = { Controller.accepted r grid u with lost := r.lost || u.lost } :=
      if_neg (by simp [won])
    have one {s : Replica} (best : s.bestScore ≤ max r.bestScore u.score) :
        s.Draws [((r.told grid u).grid, (r.told grid u).figures)] (r.told grid u) := by
      rw [after]
      exact .single best reached keepPlaying
    rw [shows, if_neg (by simp [won])]
    cases u.lost with
    | true => exact (one raised).trans (one (by rw [after]; exact UInt64.le_refl _))
    | false => exact one raised

end Replica

namespace Controller

/-- Each operation draws its frames, and the boards among them are true to what it does. -/
theorem perform_draws {c : Controller} {size : Nat} {before : List Operation} (same : c.size = size)
    (h : c.replica.Recounts size before) (best : c.replica.bestScore = bestHeard size before)
    (op : Operation) : (c.perform op).frames = c.frames ++ op.frames size before ∧
      c.replica.Draws (boards (op.frames size before)) (c.perform op).replica := by
  cases op with
  | setup =>
    have opening : openingFrame size (bestHeard size before) =
        .board c.replica.resetRound.grid c.replica.resetRound.figures := by
      rw [openingFrame, ← best, ← h.size_eq]
      rfl
    rw [Operation.frames, opening]
    exact ⟨rfl, c.replica.draws_setup⟩
  | update u =>
    rw [perform, Operation.frames]
    cases read : Grid.ofSnapshot size u.grid with
    | error shape =>
      have odd : ¬ u.grid.IsSquare c.size := fun square => by
        rw [← same, Grid.ofSnapshot_of_isSquare square] at read
        cases read
      rw [applyUpdate_of_misshapen odd]
      exact ⟨(List.append_nil _).symm, .nothing _⟩
    | ok grid =>
      dsimp only
      rw [applyUpdate_of_grid (same ▸ read), ← Replica.shows_eq_announcement h best read]
      exact ⟨rfl, Replica.draws_shows h.keepPlaying grid u⟩
  | move d => exact ⟨(List.append_nil _).symm, .nothing _⟩
  | restart | notify text => exact ⟨rfl, .nothing _⟩

theorem performAll_draws (size : Nat) (ops : List Operation) :
    ((fresh size).performAll ops).frames = framesOf size [] ops ∧
      (Replica.fresh size).Draws (boards (framesOf size [] ops))
        ((fresh size).performAll ops).replica := by
  induction ops using List.reverseRecOn with
  | nil => exact ⟨rfl, .nothing _⟩
  | append_singleton ops op ih =>
    obtain ⟨same, recounts⟩ := recounts_performAll size ops
    obtain ⟨frames, draws⟩ := perform_draws same recounts (bestScore_performAll size ops) op
    rw [performAll_concat, framesOf_concat, boards_append, List.nil_append, frames, ih.1]
    exact ⟨rfl, ih.2.trans draws⟩

/-- Frames tell the truth. Whatever is asked of a controller, it has drawn the frames of each
operation, one after the other: for a setup the opening of a round, for an update that is taken over
its announcement, for a restart or a notice that notice, and for an update that is refused or a move
nothing. On every board the score is at most the best score, and the round is terminated if and only
if it is lost or won. The best score never falls, and the last board shows the replica as it is. -/
theorem frames_tell_the_truth (size : Nat) (ops : List Operation) :
    let c := (fresh size).performAll ops
    c.frames = framesOf size [] ops ∧
    (∀ u, c.update u = .ok (c.applyUpdate u) ∨
      (∃ detail, c.update u = .error (.malformedUpdate detail)) ∧ c.applyUpdate u = c) ∧
    (∀ grid figures, .board grid figures ∈ c.frames → figures.score ≤ figures.bestScore ∧
      figures.terminated = (figures.lost || figures.won)) ∧
    (boards c.frames).Pairwise (fun b b' => b.2.bestScore ≤ b'.2.bestScore) ∧
    ∀ grid figures, (boards c.frames).getLast? = some (grid, figures) →
      grid = c.replica.grid ∧ figures = c.replica.figures := by
  intro c
  obtain ⟨frames, draws⟩ : c.frames = framesOf size [] ops ∧
      (Replica.fresh size).Draws (boards (framesOf size [] ops)) c.replica :=
    performAll_draws size ops
  rw [← frames] at draws
  refine ⟨frames, fun u => ?_, fun grid figures drawn => ?_, draws.rising,
    fun grid figures last => ?_⟩
  · by_cases square : u.grid.IsSquare c.size
    · have read := Grid.ofSnapshot_of_isSquare square
      exact .inl (by rw [update_of_grid read, applyUpdate_of_grid read])
    · exact .inr ⟨update_eq_malformed_iff.mpr square, applyUpdate_of_misshapen square⟩
  · exact draws.honest (grid, figures) (List.mem_filterMap.mpr ⟨_, drawn, rfl⟩)
  · have shown := draws.last
    rw [last, Option.getD_some] at shown
    exact Prod.mk.inj shown

example : framesOf 1 [] [.update ⟨4, [[2]], false, true⟩, .move .up, .update ⟨8, [[4]], true, false⟩] =
    let lost : Frame := .board ⟨1, [[some (.plain ⟨0, 0⟩ 2)]]⟩ ⟨4, true, false, 4, true⟩
    [lost, lost, .board ⟨1, [[some (.plain ⟨0, 0⟩ 4)]]⟩ ⟨8, true, true, 8, true⟩,
      .board (.empty 1) ⟨0, false, false, 8, false⟩] := by
  decide

end Controller

end TileClient.Game
