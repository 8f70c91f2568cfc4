import TileClient.Json.Token

/-! Values as trees of tokens. -/
namespace TileClient.Json

/-- A value as it is written: members keep their order and may repeat, numbers keep their
spelling. -/
inductive Value where
  | null
  | bool (b : Bool)
  | number (spelling : List Char)
  | literal (l : Literal)
  | array (items : List Value)
  | object (members : List (Literal × Value))

namespace Value

mutual

/-- The value at the start of a list of tokens, and the tokens after it. Each call of the three
readers uses up one of `limit`. -/
def read : (limit : Nat) → List Token → Option (Value × List Token)
  | 0, _ => none
  | _ + 1, .null :: rest => some (.null, rest)
  | _ + 1, .bool b :: rest => some (.bool b, rest)
  | _ + 1, .number spelling :: rest => some (.number spelling, rest)
  | _ + 1, .literal l :: rest => some (.literal l, rest)
  | _ + 1, .openBracket :: .closeBracket :: rest => some (.array [], rest)
  | limit + 1, .openBracket :: rest =>
    (readItems limit rest).map fun (items, rest) => (.array items, rest)
  | _ + 1, .openBrace :: .closeBrace :: rest => some (.object [], rest)
  | limit + 1, .openBrace :: rest =>
    (readMembers limit rest).map fun (members, rest) => (.object members, rest)
  | _ + 1, _ => none

/-- One value or more with commas between them, up to the closing bracket. -/
def readItems : (limit : Nat) → List Token → Option (List Value × List Token)
  | 0, _ => none
  | limit + 1, text =>
    match read limit text with
    | some (item, .closeBracket :: rest) => some ([item], rest)
    | some (item, .comma :: rest) =>
      (readItems limit rest).map fun (items, rest) => (item :: items, rest)
    | _ => none

/-- One member or more with commas between them, up to the closing brace. -/
def readMembers : (limit : Nat) → List Token → Option (List (Literal × Value) × List Token)
  | 0, _ => none
  | limit + 1, .literal name :: .colon :: rest =>
    match read limit rest with
    | some (value, .closeBrace :: rest) => some ([(name, value)], rest)
    | some (value, .comma :: rest) =>
      (readMembers limit rest).map fun (members, rest) => ((name, value) :: members, rest)
    | _ => none
  | _ + 1, _ => none

end

/-- The value that a whole text spells, blanks around it aside. No more calls are needed than
two for each token. -/
def parse? (text : List Char) : Option Value :=
  match tokens? text with
  | none => none
  | some tokens =>
    match read (2 * tokens.length + 1) tokens with
    | some (value, []) => some value
    | _ => none

end Value

end TileClient.Json
