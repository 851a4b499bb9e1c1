import Ribbon.Toml.Tree

/-!
# Literals

How strings, numbers and truth values are written in a document.
-/

namespace Ribbon.Toml

open Text Decimal

/-! ## Strings -/

/-- The character of an escape: what follows the backslash, and the rest. -/
def escaped? : List Char → Option (Char × List Char)
  | 'b' :: r => some ('\x08', r)
  | 't' :: r => some ('\t', r)
  | 'n' :: r => some ('\n', r)
  | 'f' :: r => some ('\x0c', r)
  | 'r' :: r => some ('\r', r)
  | '"' :: r => some ('"', r)
  | '\\' :: r => some ('\\', r)
  | 'u' :: r => byNumber? 4 r
  | 'U' :: r => byNumber? 8 r
  | _ => none
where
  byNumber? (size : Nat) (s : List Char) : Option (Char × List Char) := do
    let digits := s.take size
    if digits.length < size then none
    else
      let n ← hexNumber? digits
      if n.isValidChar then return (Char.ofNat n, s.drop size) else none

def basicPiece : Reader Char
  | '\\' :: r => escaped? r
  | c :: r => if Reader.isVisible c && c != '"' then some (c, r) else none
  | [] => none

def basicString : Reader (List Char) :=
  Reader.word ['"'] *> Reader.many basicPiece <* Reader.word ['"']

def literalString : Reader (List Char) :=
  Reader.word ['\''] *> Reader.span (fun c => Reader.isVisible c && c != '\'') <*
    Reader.word ['\'']

/-- A backslash at the end of a line takes away the blanks and line ends after it. -/
def joinedLines : Reader Unit := do
  Reader.word ['\\']
  Reader.gap
  Reader.newline
  discard (Reader.many (discard (Reader.one Reader.isGap) <|> Reader.newline))

/-- One piece of a string in triple quotes. A line end counts as a line feed. -/
def linesPiece (quote : Char) (escapes : Bool) : Reader (List Char) :=
  (do Reader.newline; return ['\n']) <|>
  (do
    if escapes then joinedLines else failure
    return []) <|>
  (do
    let c ← if escapes then basicPiece else
      Reader.one fun c => Reader.isVisible c && c != quote
    return [c])

/-- One or two quotes inside a string in triple quotes, with more text after them. -/
def linesQuotes (quote : Char) (escapes : Bool) : Reader (List Char) := fun s =>
  let quotes := s.takeWhile (· == quote)
  let rest := s.dropWhile (· == quote)
  if quotes.length < 3 ∧ 0 < quotes.length then
    (linesPiece quote escapes rest).map fun _ => (quotes, rest)
  else none

/-- A string in triple quotes. Its first line end is left out, and up to two quotes may stand before
the closing ones. -/
def linesString (quote : Char) (escapes : Bool) : Reader (List Char) := do
  let triple := List.replicate 3 quote
  Reader.word triple
  let _ ← Reader.optional Reader.newline
  let pieces ← Reader.many (linesPiece quote escapes <|> linesQuotes quote escapes)
  let closing ← Reader.span (· == quote)
  if 3 ≤ closing.length ∧ closing.length ≤ 5 then
    return pieces.flatten ++ List.replicate (closing.length - 3) quote
  else failure

def string : Reader String :=
  String.ofList <$>
    (linesString '"' true <|> linesString '\'' false <|> basicString <|> literalString)

/-! ## Numbers -/

def digits (p : Char → Bool) : Reader (List Char) := do
  let first ← Reader.one p
  let more ← Reader.many (Reader.optional (Reader.one (· == '_')) *> Reader.one p)
  return first :: more

def isBinary (c : Char) : Bool := c == '0' || c == '1'
def isOctal (c : Char) : Bool := '0' ≤ c && c ≤ '7'
def isHex (c : Char) : Bool := (hexValue? c).isSome

def valueOf (base : Nat) (s : List Char) : Nat :=
  s.foldl (fun n c => base * n + (hexValue? c).getD 0) 0

/-- Integers have 64 bits. -/
def integerOf (n : Int) : Option Int :=
  if -0x8000000000000000 ≤ n ∧ n < 0x8000000000000000 then some n else none

/-- A number in another base, which has no sign. -/
def based : Reader Int := do
  Reader.word ['0']
  let base ← Reader.one fun c => c == 'x' || c == 'o' || c == 'b'
  let n ← match base with
    | 'x' => valueOf 16 <$> digits isHex
    | 'o' => valueOf 8 <$> digits isOctal
    | _ => valueOf 2 <$> digits isBinary
  integerOf n

/-- Whether there is a minus sign; there may be a plus sign instead, or none. -/
def sign : Reader Bool := do
  return (← Reader.optional (Reader.one fun c => c == '+' || c == '-')) == some '-'

/-- Digits without a leading zero, or a zero alone. -/
def wholeDigits : Reader (List Char) := do
  match ← Reader.peek with
  | some '0' => return [← Reader.one (· == '0')]
  | _ => digits Char.isDigit

def power : Reader Int := do
  let _ ← Reader.one fun c => c == 'e' || c == 'E'
  let negative ← sign
  let n := valueOf 10 (← digits Char.isDigit)
  return if negative then -n else n

def signed (negative : Bool) (n : Nat) : Int :=
  if negative then -n else n

/-- A decimal number. With a point or a power it is a fraction, which must not be too great. -/
def decimal : Reader Scalar := do
  let negative ← sign
  let whole ← wholeDigits
  match ← Reader.peek with
  | some '.' | some 'e' | some 'E' =>
    let fraction ← if ← Reader.ifWord ['.'] then digits Char.isDigit else pure []
    let scale ← match ← Reader.peek with
      | some 'e' | some 'E' => power
      | _ => pure 0
    let x := Binary64.ofDecimal negative (valueOf 10 (whole ++ fraction))
      (scale - fraction.length)
    if x = .infinite false then failure else return .float x
  | _ => return .integer (← (integerOf (signed negative (valueOf 10 whole)) : Option Int))

def special : Reader Scalar := do
  let negative ← sign
  (do Reader.word ['i', 'n', 'f']; return .float (.infinite negative)) <|>
  (do Reader.word ['n', 'a', 'n']; return .float .nan)

def boolean : Reader Bool :=
  (do Reader.word ['t', 'r', 'u', 'e']; return true) <|>
  (do Reader.word ['f', 'a', 'l', 's', 'e']; return false)

/-! ## Scalars -/

def scalar : Reader Scalar :=
  (.string <$> string) <|> (.boolean <$> boolean) <|>
  (.moment <$> Moment.read) <|>
  (.integer <$> based) <|> decimal <|> special

end Ribbon.Toml
