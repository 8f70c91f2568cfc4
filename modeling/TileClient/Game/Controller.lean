import TileClient.Game.Frame
import TileClient.Wire.Move
import TileClient.Wire.Update

/-! The controller: it keeps the replica by what the server says and shows every change. -/
namespace TileClient.Game

/-- The replica with every frame drawn so far, oldest first. -/
structure Controller where
  size : Nat
  replica : Replica
  frames : List Frame
  deriving DecidableEq, Repr

/-- What a person is told who asks for a restart. -/
def restartNotice : String :=
  "Restarting is not supported; a new round starts automatically after a win."

namespace Controller

def fresh (size : Nat) : Controller := ⟨size, .fresh size, []⟩

def draw (c : Controller) : Controller :=
  { c with frames := c.frames ++ [.board c.replica.grid c.replica.figures] }

def notify (c : Controller) (text : String) : Controller :=
  { c with frames := c.frames ++ [.notice text] }

/-- Begins a round and shows its empty board. -/
def setup (c : Controller) : Controller := { c with replica := c.replica.resetRound }.draw

/-- The replica with the board and the score of an update. The flags are left alone. -/
def accepted (r : Replica) (grid : Board.Grid) (u : Wire.Update) : Replica :=
  { r with grid, score := u.score, bestScore := max r.bestScore u.score }

/-- Takes an update over. A won round is shown and followed by a new one; a lost round is shown
twice and stays. An update of another shape is rejected and changes nothing. -/
def update (c : Controller) (u : Wire.Update) : Except Fault Controller :=
  match Board.Grid.ofSnapshot c.size u.grid with
  | .error shape => .error (.malformedUpdate (Violation.gridDimension shape).message)
  | .ok grid =>
    let c := { c with replica := accepted c.replica grid u }
    if u.won then
      let c := { c with replica := { c.replica with won := true } }.draw
      .ok { c with replica := c.replica.resetRound }.draw
    else if u.lost then
      .ok { c with replica := { c.replica with lost := true } }.draw.draw
    else .ok c.draw

/-- Takes an update over if it can be, and forgets it otherwise. -/
def applyUpdate (c : Controller) (u : Wire.Update) : Controller :=
  match c.update u with
  | .ok c => c
  | .error _ => c

/-- Sends a move on its way. The replica waits for the server's answer. -/
def move {α : Type} (_ : Controller) (d : Board.Direction) (send : Wire.Move → Except Fault α) :
    Except Fault α :=
  send (.ofDirection d)

/-- There is no restart: the notice says so, and nothing else happens. -/
def restart (c : Controller) : Controller × Fault := (c.notify restartNotice, .restartRejected)

end Controller

end TileClient.Game
