import TileClient.Text.Numeral

/-! What is wrong with a JSON text, and the place in it. -/
namespace TileClient.Json

/-- A complaint and where it arose. Lines are counted from one; line zero says that there is no
place. -/
structure Complaint where
  text : String
  line : Nat
  column : Nat
  deriving DecidableEq, Repr

namespace Complaint

def lineMark : String := " at line "

def columnMark : String := " column "

/-- The number that a text ends with, and the text before its digits. -/
def numberAtEnd? (text : List Char) : Option (List Char × Nat) :=
  let digits := (text.reverse.takeWhile Char.isDigit).reverse
  (Text.numeral? (UInt64.size - 1) digits).map fun n =>
    ((text.reverse.dropWhile Char.isDigit).reverse, n)

/-- A text without a mark at its end. -/
def withoutMark? (mark : String) (text : List Char) : Option (List Char) :=
  if mark.toList.isSuffixOf text then some (text.take (text.length - mark.length)) else none

/-- The complaint of a text that ends with a place. -/
def placed? (text : List Char) : Option Complaint := do
  let (text, column) ← numberAtEnd? text
  let text ← withoutMark? columnMark text
  let (text, line) ← numberAtEnd? text
  let text ← withoutMark? lineMark text
  return ⟨String.ofList text, line, column⟩

/-- The complaint that a text makes. A place at its very end is taken for the place of the
complaint, and one such place only; without it there is none. -/
def ofText (text : String) : Complaint := (placed? text.toList).getD ⟨text, 0, 0⟩

/-- The complaint in words, with its place if there is one. -/
def message (c : Complaint) : String :=
  if c.line = 0 then c.text
  else c.text ++ lineMark ++ toString c.line ++ columnMark ++ toString c.column

end Complaint

end TileClient.Json
