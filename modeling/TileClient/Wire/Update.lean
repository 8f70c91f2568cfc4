import TileClient.Board.Snapshot
import TileClient.Json.Record

/-! The message by which a server tells the whole state of the game. -/
namespace TileClient.Wire

/-- The state of the game as the server sees it. The rows may have any shape. -/
structure Update where
  score : UInt64
  grid : Board.Snapshot
  won : Bool
  lost : Bool
  deriving DecidableEq, Repr

namespace Update

/-- A list in brackets with commas between its items. -/
def bracketed (items : List String) : String := "[" ++ String.intercalate "," items ++ "]"

def flagText (b : Bool) : String := if b then "true" else "false"

def gridText (rows : Board.Snapshot) : String :=
  bracketed (rows.map fun row => bracketed (row.map fun v => toString v.toNat))

def encode (u : Update) : String :=
  "\x7b\"Score\":" ++ toString u.score.toNat ++ ",\"Grid\":" ++ gridText u.grid ++
    ",\"Won\":" ++ flagText u.won ++ ",\"Over\":" ++ flagText u.lost ++ "\x7d"

def score? (v : Json.Value) : Option UInt64 := (v.natural? (UInt64.size - 1)).map UInt64.ofNat

def cell? (v : Json.Value) : Option UInt32 := (v.natural? (UInt32.size - 1)).map UInt32.ofNat

def grid? (v : Json.Value) : Option Board.Snapshot := v.items? (·.items? cell?)

/-- The update of an object with the four members, or of an array of their values in the order
of the fields. -/
def ofValue? : Json.Value → Option Update
  | .object members => do
    let members ← Json.members? members
    let score ← members.required? "Score" score?
    let grid ← members.required? "Grid" grid?
    let won ← members.required? "Won" (·.bool?)
    let lost ← members.required? "Over" (·.bool?)
    return ⟨score, grid, won, lost⟩
  | .array [score, grid, won, lost] => do
    return ⟨← score? score, ← grid? grid, ← won.bool?, ← lost.bool?⟩
  | _ => none

def decode? (text : String) : Option Update := (Json.Value.parse? text.toList).bind ofValue?

end Update

end TileClient.Wire
