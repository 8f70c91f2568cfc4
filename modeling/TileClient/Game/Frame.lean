import TileClient.Game.Replica

/-! What a person is shown, as values and as text. -/
namespace TileClient.Game

/-- A drawn board with its figures, or a notice to acknowledge. -/
inductive Frame where
  | board (grid : Board.Grid) (figures : Figures)
  | notice (text : String)
  deriving DecidableEq, Repr

namespace Frame

/-- The line that announces the end of a round. A win is announced even if the round is also
over. -/
def banner (f : Figures) : String :=
  if f.won then "You win!\n" else if f.lost then "Game over!\n" else ""

/-- A board as text: its rows, the scores, the banner and an empty line. -/
def boardText (grid : Board.Grid) (f : Figures) : String :=
  grid.text ++ "Score: " ++ toString f.score.toNat ++ "\n" ++
    "Best: " ++ toString f.bestScore.toNat ++ "\n" ++ banner f ++ "\n"

def text : Frame → String
  | .board grid figures => boardText grid figures
  | .notice text => "!! " ++ text ++ "\n"

end Frame

/-- Paper that takes text. It may refuse every stroke, or take the strokes and fail to bring
them out; neither is reported to the one who draws. -/
structure Page where
  refuses : Bool
  retains : Bool
  text : String
  deriving DecidableEq, Repr

/-- Draws a frame. A page that fails to bring out a board has its text all the same. -/
def Page.draw (p : Page) (f : Frame) : Page :=
  if p.refuses then p else { p with text := p.text ++ f.text }

end TileClient.Game
