import TileClient.Text.Unprintable

/-! Texts and single characters in quotation marks, with everything invisible spelled out. -/
namespace TileClient.Text

/-- A character by its number: a backslash, `u` and the hexadecimal digits in braces. -/
def numbered (c : Char) : String :=
  "\\u\x7b" ++ String.ofList (Nat.toDigits 16 c.toNat) ++ "\x7d"

/-- The spelling of a character between quotation marks of the kind `mark`. The other kind of
mark stands for itself. -/
def spelled (mark c : Char) : String :=
  if c = '\x00' then "\\0"
  else if c = '\t' then "\\t"
  else if c = '\n' then "\\n"
  else if c = '\x0d' then "\\r"
  else if c = mark || c = '\x5c' then "\\" ++ c.toString
  else if isUnprintable c then numbered c
  else c.toString

def quoted (text : String) : String :=
  "\"" ++ String.join (text.toList.map (spelled '\x22')) ++ "\""

def quotedChar (c : Char) : String := "'" ++ spelled '\x27' c ++ "'"

end TileClient.Text
