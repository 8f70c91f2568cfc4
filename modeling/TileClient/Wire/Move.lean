import TileClient.Board.Direction
import TileClient.Fault
import TileClient.Json.Record

/-! The one message that a player sends: a move. -/
namespace TileClient.Wire

/-- A move by its code. The code need not name a direction. -/
structure Move where
  code : UInt8
  deriving DecidableEq, Repr

namespace Move

def ofDirection (d : Board.Direction) : Move := ⟨d.code⟩

/-- The direction of a move, or what is wrong with its code. -/
def direction (m : Move) : Except Violation Board.Direction :=
  match Board.Direction.ofCode? m.code with
  | some d => .ok d
  | none => .error (.direction m.code)

def encode (m : Move) : String := "\x7b\"Direction\":" ++ toString m.code.toNat ++ "\x7d"

def code? (v : Json.Value) : Option UInt8 := (v.natural? 255).map UInt8.ofNat

/-- The move of an object with a member `Direction`, or of an array of the code alone. -/
def ofValue? : Json.Value → Option Move
  | .object members => do
    let members ← Json.members? members
    return ⟨← members.required? "Direction" code?⟩
  | .array [code] => (code? code).map Move.mk
  | _ => none

def decode? (text : String) : Option Move := (Json.Value.parse? text.toList).bind ofValue?

end Move

end TileClient.Wire
