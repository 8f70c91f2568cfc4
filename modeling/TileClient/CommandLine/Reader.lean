import TileClient.CommandLine.Flag

/-! The command line is read word by word, and the first fault ends the reading. -/
namespace TileClient.CommandLine

/-- What has been read. The last option stays `pending` with its value, or without one while the
next word may be it; it is checked when another option or the end comes. After two dashes no
options follow. -/
structure Reader where
  given : List (Flag × String)
  pending : Option (Flag × Option String)
  escaped : Bool
  deriving DecidableEq, Repr

namespace Reader

def start : Reader := ⟨[], none, false⟩

/-- Gives an option its value; an option is given once. -/
def assign (r : Reader) (f : Flag) (value : String) : Except Refusal Reader :=
  if r.given.any (·.1 = f) then .error .repeated
  else if f.accepts value then .ok { r with given := r.given ++ [(f, value)] }
  else .error .badNumber

/-- Checks the pending option. -/
def resolve (r : Reader) : Except Refusal Reader :=
  match r.pending with
  | none => .ok r
  | some (_, none) => .error .missingValue
  | some (f, some value) => { r with pending := none }.assign f value

/-- Takes an option, with a value attached or still to come. -/
def take (r : Reader) (f : Flag) (attached : Option String) : Except Refusal Reader := do
  let r ← r.resolve
  match attached with
  | some value => r.assign f value
  | none => return { r with pending := some (f, none) }

/-- Answers an inquiry, unless the pending option is at fault. -/
def inquire (r : Reader) (i : Inquiry) : Except Refusal Reader := do
  let _ ← r.resolve
  throw (.inquiry i)

/-- A word after two dashes: a name, and perhaps an equals sign and a value. A name that is no
option's is refused whatever is pending. -/
def long (r : Reader) (word : List Char) : Except Refusal Reader :=
  let (name, rest) := (word.takeWhile (· != '='), word.dropWhile (· != '='))
  let attached := if rest.isEmpty then none else some (String.ofList rest.tail)
  match Flag.ofLong? name, Inquiry.ofLong? name with
  | some f, _ => r.take f attached
  | none, some i => if attached.isSome then .error .unneededValue else r.inquire i
  | none, none => .error .unknownArgument

/-- A word after one dash. A letter takes the rest of the word as its value, less one equals
sign in front. -/
def short (r : Reader) : List Char → Except Refusal Reader
  | [] => .ok r
  | letter :: rest =>
    match Flag.ofShort? letter, Inquiry.ofShort? letter with
    | some f, _ =>
      r.take f <| match rest with
        | [] => none
        | '=' :: value => some (String.ofList value)
        | value => some (String.ofList value)
    | none, some i => r.inquire i
    | none, none => .error .unknownArgument

/-- A word that is no option: the value that is waited for, or else refused. A single dash is
such a word. -/
def plain (r : Reader) (word : List Char) : Except Refusal Reader :=
  match r.pending with
  | some (f, none) => .ok { r with pending := some (f, some (String.ofList word)) }
  | _ => .error .unknownArgument

/-- Reads a word. -/
def word (r : Reader) (text : String) : Except Refusal Reader :=
  if r.escaped then .error .unknownArgument
  else match text.toList with
    | ['-', '-'] => .ok { r with escaped := true }
    | '-' :: '-' :: name => r.long name
    | ['-'] => r.plain ['-']
    | '-' :: letters => r.short letters
    | other => r.plain other

def read (words : List String) : Except Refusal (List (Flag × String)) := do
  let r ← words.foldlM word start
  let r ← r.resolve
  return r.given

end Reader

end TileClient.CommandLine
