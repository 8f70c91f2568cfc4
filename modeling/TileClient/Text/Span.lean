/-! Lengths of time in words. -/
namespace TileClient.Text

/-- A fraction of a second in thousandths, without the zeros at its end. -/
def thousandths (ms : Nat) : String :=
  let digits := (Nat.toDigits 10 (1000 + ms)).tail
  String.ofList (digits.reverse.dropWhile (· = '0')).reverse

/-- A length of time given in milliseconds: in seconds from one second on, with as many places
as it needs, below that in milliseconds; nothing at all is `0ns`. -/
def span (ms : Nat) : String :=
  if ms = 0 then "0ns"
  else if ms < 1000 then toString ms ++ "ms"
  else if ms % 1000 = 0 then toString (ms / 1000) ++ "s"
  else toString (ms / 1000) ++ "." ++ thousandths (ms % 1000) ++ "s"

end TileClient.Text
