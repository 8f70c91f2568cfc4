import TileClient.Json.Literal

/-! The tokens of a message text. Blanks end here; everything later is about tokens. -/
namespace TileClient.Json

/-- A token. Numbers keep their spelling, and literals their pieces: what they stand for is for
the reader of a member to decide. -/
inductive Token where
  | openBrace | closeBrace | openBracket | closeBracket | comma | colon
  | null
  | bool (b : Bool)
  | number (spelling : List Char)
  | literal (l : Literal)
  deriving DecidableEq, Repr

/-- The four characters that may stand between tokens. -/
def isGap (c : Char) : Bool := c = ' ' || c = '\t' || c = '\n' || c = '\x0d'

/-- At least one digit, as many as there are. -/
def readDigits (text : List Char) : Option (List Char × List Char) :=
  if (text.takeWhile Char.isDigit).isEmpty then none
  else some (text.takeWhile Char.isDigit, text.dropWhile Char.isDigit)

/-- Digits without a leading zero, unless zero is all there is. -/
def readWhole (text : List Char) : Option (List Char × List Char) :=
  match readDigits text with
  | some (digits, rest) =>
    if digits.head? = some '0' && digits.length ≠ 1 then none else some (digits, rest)
  | none => none

/-- The fraction of a number, if a point follows. -/
def readFraction : List Char → Option (List Char × List Char)
  | '.' :: rest => (readDigits rest).map fun (digits, rest) => ('.' :: digits, rest)
  | rest => some ([], rest)

/-- The exponent of a number, if its mark follows. -/
def readExponent : List Char → Option (List Char × List Char)
  | [] => some ([], [])
  | e :: rest =>
    if e = 'e' || e = 'E' then
      match rest with
      | '+' :: rest => (readDigits rest).map fun (digits, rest) => (e :: '+' :: digits, rest)
      | '-' :: rest => (readDigits rest).map fun (digits, rest) => (e :: '-' :: digits, rest)
      | rest => (readDigits rest).map fun (digits, rest) => (e :: digits, rest)
    else some ([], e :: rest)

def readUnsigned (text : List Char) : Option (List Char × List Char) := do
  let (whole, rest) ← readWhole text
  let (fraction, rest) ← readFraction rest
  let (exponent, rest) ← readExponent rest
  return (whole ++ fraction ++ exponent, rest)

def readNumber : List Char → Option (List Char × List Char)
  | '-' :: rest => (readUnsigned rest).map fun (digits, rest) => ('-' :: digits, rest)
  | rest => readUnsigned rest

/-- The token at the start of a text that does not start with a blank, and the text after it. -/
def readToken : List Char → Option (Token × List Char)
  | '\x7b' :: rest => some (.openBrace, rest)
  | '\x7d' :: rest => some (.closeBrace, rest)
  | '[' :: rest => some (.openBracket, rest)
  | ']' :: rest => some (.closeBracket, rest)
  | ',' :: rest => some (.comma, rest)
  | ':' :: rest => some (.colon, rest)
  | '\x22' :: rest => (readLiteral rest).map fun (l, rest) => (.literal l, rest)
  | 'n' :: 'u' :: 'l' :: 'l' :: rest => some (.null, rest)
  | 't' :: 'r' :: 'u' :: 'e' :: rest => some (.bool true, rest)
  | 'f' :: 'a' :: 'l' :: 's' :: 'e' :: rest => some (.bool false, rest)
  | text => (readNumber text).map fun (spelling, rest) => (.number spelling, rest)

/-- The tokens of a text, at most `limit` of them. -/
def tokensWithin : (limit : Nat) → List Char → Option (List Token)
  | limit, text =>
    match text.dropWhile isGap, limit with
    | [], _ => some []
    | _ :: _, 0 => none
    | c :: rest, limit + 1 =>
      match readToken (c :: rest) with
      | some (token, rest) => (tokensWithin limit rest).map (token :: ·)
      | none => none

/-- The tokens of a text; a text has no more tokens than characters. -/
def tokens? (text : List Char) : Option (List Token) := tokensWithin text.length text

end TileClient.Json
