import TileClient.Json.Value

/-! Records: objects of which some members are known by name, and the same members by position. -/
namespace TileClient.Json

namespace Value

/-- A whole number up to `limit`, written with digits alone. -/
def natural? (limit : Nat) : Value → Option Nat
  | .number spelling =>
    if spelling.all Char.isDigit then (Text.digitsValue? spelling).filter (· ≤ limit) else none
  | _ => none

def bool? : Value → Option Bool
  | .bool b => some b
  | _ => none

def text? : Value → Option String
  | .literal l => l.text?.map String.ofList
  | _ => none

/-- Every item read in the same way. -/
def items? {α : Type} (item? : Value → Option α) : Value → Option (List α)
  | .array items => items.mapM item?
  | _ => none

end Value

/-- The members of an object under the names that they spell. -/
abbrev Members := List (List Char × Value)

/-- An object's members; every name must spell a text, known or not. -/
def members? (members : List (Literal × Value)) : Option Members :=
  members.mapM fun (name, value) => name.text?.map (·, value)

/-- How often a known member stands in an object. -/
inductive Occurrence where
  | missing
  | once (value : Value)
  | repeated

namespace Members

def occurrence (members : Members) (name : String) : Occurrence :=
  match members.filter (·.1 = name.toList) with
  | [] => .missing
  | [(_, value)] => .once value
  | _ => .repeated

/-- A member that must stand exactly once. -/
def required? {α : Type} (members : Members) (name : String) (value? : Value → Option α) :
    Option α :=
  match members.occurrence name with
  | .once value => value? value
  | _ => none

/-- A member that may be left out, but not repeated. -/
def optional? {α : Type} (members : Members) (name : String) (value? : Value → Option α)
    (absent : α) : Option α :=
  match members.occurrence name with
  | .once value => value? value
  | .missing => some absent
  | .repeated => none

end Members

end TileClient.Json
