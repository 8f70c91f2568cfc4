import TileClient.Text.Numeral

/-! String literals: the pieces between the quotation marks, what they spell, and how a text is spelled. -/
namespace TileClient.Json

/-- One piece of a literal: a character that is given as itself or by a short escape, or a
16-bit unit given by number. Two units may together spell one character. -/
inductive Piece where
  | plain (c : Char)
  | unit (n : UInt16)
  deriving DecidableEq, Repr

/-- A literal as it is written. It need not spell a text. -/
abbrev Literal := List Piece

/-- The character of a short escape. -/
def shortEscape? : Char → Option Char
  | '\x22' => some '\x22'
  | '\x5c' => some '\x5c'
  | '/' => some '/'
  | 'b' => some '\x08'
  | 'f' => some '\x0c'
  | 'n' => some '\n'
  | 'r' => some '\x0d'
  | 't' => some '\t'
  | _ => none

def hexDigit? (c : Char) : Option Nat :=
  if c.isDigit then some (c.toNat - 48)
  else if 'a' ≤ c && c ≤ 'f' then some (c.toNat - 87)
  else if 'A' ≤ c && c ≤ 'F' then some (c.toNat - 55)
  else none

/-- The unit that four hexadecimal digits name. -/
def unit? (a b c d : Char) : Option UInt16 := do
  let a ← hexDigit? a
  let b ← hexDigit? b
  let c ← hexDigit? c
  let d ← hexDigit? d
  return UInt16.ofNat (4096 * a + 256 * b + 16 * c + d)

/-- Reads a literal up to its closing mark, given the text after the opening one. Characters
below the space must be escaped. -/
def readLiteral : List Char → Option (Literal × List Char)
  | [] => none
  | '\x5c' :: 'u' :: a :: b :: c :: d :: rest =>
    match unit? a b c d, readLiteral rest with
    | some n, some (pieces, rest) => some (.unit n :: pieces, rest)
    | _, _ => none
  | '\x5c' :: e :: rest =>
    match shortEscape? e, readLiteral rest with
    | some c, some (pieces, rest) => some (.plain c :: pieces, rest)
    | _, _ => none
  | c :: rest =>
    if c = '\x22' then some ([], rest)
    else if c = '\x5c' || c < ' ' then none
    else match readLiteral rest with
      | some (pieces, rest) => some (.plain c :: pieces, rest)
      | none => none

/-- A unit that opens a pair. -/
def isHigh (n : UInt16) : Bool := 0xD800 ≤ n && n ≤ 0xDBFF

/-- A unit that closes a pair. -/
def isLow (n : UInt16) : Bool := 0xDC00 ≤ n && n ≤ 0xDFFF

/-- The character beyond the first 65536 that a pair of units spells. -/
def paired (high low : UInt16) : Char :=
  Char.ofNat (0x10000 + 1024 * (high.toNat - 0xD800) + (low.toNat - 0xDC00))

/-- The text that a literal spells. A unit that belongs to a pair and stands alone spells
nothing, and then the literal is no text. -/
def Literal.text? : Literal → Option (List Char)
  | [] => some []
  | .plain c :: rest => (Literal.text? rest).map (c :: ·)
  | .unit high :: .unit low :: rest =>
    if isHigh high then
      if isLow low then (Literal.text? rest).map (paired high low :: ·) else none
    else if isLow high then none
    else (Literal.text? (.unit low :: rest)).map (Char.ofNat high.toNat :: ·)
  | .unit n :: rest =>
    if isHigh n || isLow n then none
    else (Literal.text? rest).map (Char.ofNat n.toNat :: ·)

/-- The literal that spells a text by itself. -/
def Literal.ofText (text : List Char) : Literal := text.map .plain

/-- The digit of a value below sixteen. -/
def hexDigit (n : Nat) : Char := Nat.digitChar n

/-- The written form of a character: a short escape where there is one and the slash aside,
four digits for the other characters below the space, and the character itself otherwise. -/
def escape (c : Char) : List Char :=
  if c = '\x22' || c = '\x5c' then ['\x5c', c]
  else if c = '\x08' then ['\x5c', 'b']
  else if c = '\x0c' then ['\x5c', 'f']
  else if c = '\n' then ['\x5c', 'n']
  else if c = '\x0d' then ['\x5c', 'r']
  else if c = '\t' then ['\x5c', 't']
  else if c < ' ' then
    ['\x5c', 'u', '0', '0', hexDigit (c.toNat / 16), hexDigit (c.toNat % 16)]
  else [c]

/-- A text as a literal, with its quotation marks. -/
def writeLiteral (text : List Char) : List Char :=
  '\x22' :: text.flatMap escape ++ ['\x22']

end TileClient.Json
