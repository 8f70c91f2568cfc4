import TileClient.Settings
import TileClient.Text.Numeral

/-! The options of the command line and what they may hold. -/
namespace TileClient.CommandLine

/-- The options that take a value. -/
inductive Flag where
  | directory | server | gridSize | retryDelay | requestTimeout | path | interval | moves | seed
  deriving DecidableEq, Repr

/-- The switches that ask for a text instead of a run. -/
inductive Inquiry where
  | help | version
  deriving DecidableEq, Repr

/-- Why a command line is not run. -/
inductive Refusal where
  | unknownArgument
  | missingValue
  /-- A switch was given a value. -/
  | unneededValue
  | badNumber
  | repeated
  | inquiry (i : Inquiry)
  deriving DecidableEq, Repr

namespace Flag

def all : List Flag :=
  [.directory, .server, .gridSize, .retryDelay, .requestTimeout, .path, .interval, .moves, .seed]

/-- The name after two dashes. -/
def long : Flag → String
  | .directory => "directory"
  | .server => "server"
  | .gridSize => "grid-size"
  | .retryDelay => "retry-ms"
  | .requestTimeout => "request-timeout-ms"
  | .path => "path"
  | .interval => "interval"
  | .moves => "moves"
  | .seed => "seed"

/-- The letter after one dash, for the options that have one. -/
def short? : Flag → Option Char
  | .directory => some 'd'
  | .server => some 's'
  | .gridSize => some 'g'
  | .interval => some 'i'
  | .moves => some 'm'
  | _ => none

def isNumber : Flag → Bool
  | .gridSize | .retryDelay | .requestTimeout | .interval | .seed => true
  | .directory | .server | .path | .moves => false

def ofLong? (name : List Char) : Option Flag := all.find? (·.long.toList = name)

def ofShort? (letter : Char) : Option Flag := all.find? (·.short? = some letter)

/-- Numbers of the command line have 64 bits. -/
def number? (value : String) : Option Nat := Text.numeral? (UInt64.size - 1) value.toList

/-- Whether a value may stand with the option. -/
def accepts (f : Flag) (value : String) : Bool := !f.isNumber || (number? value).isSome

end Flag

namespace Inquiry

def ofLong? (name : List Char) : Option Inquiry :=
  if name = "help".toList then some .help
  else if name = "version".toList then some .version
  else none

def ofShort? : Char → Option Inquiry
  | 'h' => some .help
  | 'V' => some .version
  | _ => none

end Inquiry

end TileClient.CommandLine
