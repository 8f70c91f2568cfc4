/-! Whole numbers as people and options write them: decimal digits after at most one plus sign. -/
namespace TileClient.Text

/-- The value of a list of decimal digits, most significant first; `none` if it holds anything
else. The empty list has value zero. -/
def digitsValue? (digits : List Char) : Option Nat :=
  digits.foldl (fun value? c => value?.bind fun value =>
    if c.isDigit then some (10 * value + (c.toNat - 48)) else none) (some 0)

/-- Reads a number up to `limit`: an optional plus sign, then at least one digit, any number of
leading zeros. No blanks, no minus sign, no other script's digits. -/
def numeral? (limit : Nat) (text : List Char) : Option Nat :=
  let digits := if text.head? = some '+' then text.tail else text
  if digits.isEmpty then none
  else (digitsValue? digits).filter (· ≤ limit)

end TileClient.Text
