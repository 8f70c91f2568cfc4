import TileClient.Proofs.Play.Tour
import TileClient.Proofs.Rehearsal.Outbox

/-! Moves reach the server that is current when they are sent. This is so of a connection with any
owner, and of a client on tour, whose loop sends what the player chose. -/
namespace TileClient.Rehearsal.Tour

/-- The move that an act has the client send, whether or not it can be. -/
def sent? (t : Tour) : TourAct → Option Wire.Move
  | .give cue => if t.actor.running then cue.move?.map .ofDirection else none
  | .begin | .take | .connectivity _ | .turn _ | .serve _ _ => none

/-- The moves that are sent from a time on, while an epoch is in use and the server of a link still
takes them. -/
def delivered (t : Tour) (epoch link : Nat) : List TourAct → List Wire.Move
  | [] => []
  | act :: rest =>
    (if t.session.InUse epoch ∧ t.back.listening link = true then (t.sent? act).toList else []) ++
      (t.act act).delivered epoch link rest

variable {w : World Reaction} {t : Tour}

namespace Follows

theorem session (h : Follows w t) : w.session = t.session :=
  congrArg Connection.session h.connection

end Follows

end TileClient.Rehearsal.Tour
