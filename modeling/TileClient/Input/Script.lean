import TileClient.Board.Direction
import TileClient.Fault

/-! Moves written down in advance. -/
namespace TileClient.Input
open Board

/-- The character as a small letter, if it is an ASCII capital. -/
def lowered (c : Char) : Char := c.toLower

def moveOf? (c : Char) : Option Direction :=
  if c = 'u' || c = '0' then some .up
  else if c = 'r' || c = '1' then some .right
  else if c = 'd' || c = '2' then some .down
  else if c = 'l' || c = '3' then some .left
  else none

/-- The characters that may stand between moves. Not every blank is one of them. -/
def isSeparator (c : Char) : Bool := c = ' ' || c = ',' || c = '\t' || c = '\n'

/-- Reads moves up to the first character that is neither a move nor a separator. -/
def readMoves : List Char → Except Fault (List Direction)
  | [] => .ok []
  | c :: rest =>
    match moveOf? (lowered c) with
    | some d => (readMoves rest).map (d :: ·)
    | none =>
      if isSeparator (lowered c) then readMoves rest
      else .error (.invalidMoves ("unexpected " ++ Text.quotedChar (lowered c)))

end TileClient.Input
