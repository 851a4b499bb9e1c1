import Ribbon.Decimal.Shortest
import Ribbon.Text.Hex
import Ribbon.Toml.Value

/-!
# Values as text

The text of a value on its own, as messages show it. Strings have the simplest quotes that do with
as few escapes as possible.
-/

namespace Ribbon.Toml

open Text Decimal

/-! ## Strings -/

inductive Quotes
  | basic
  | literal
  | basicLines
  | literalLines
  deriving DecidableEq, Repr

namespace Quotes

/-- A control character that no quotes can show: neither a tab nor a line feed. -/
def isControl (c : Char) : Bool :=
  (c < ' ' && c != '\t' && c != '\n') || c == '\x7f'

/-- The length of the longest run of a character; `n` of them have gone before. -/
def longestRun (c : Char) (n : Nat) : List Char → Nat
  | [] => n
  | d :: r => if d = c then longestRun c (n + 1) r else max n (longestRun c 0 r)

def ofKey (s : List Char) : Quotes :=
  let plain := !s.any isControl && !s.contains '\n'
  if plain && !s.contains '\\' && !s.contains '"' then basic
  else if plain && !s.contains '\'' then literal
  else basic

def ofString (s : List Char) : Quotes :=
  let visible := !s.any isControl
  let oneLine := !s.contains '\n'
  let straight := !s.contains '\\'
  if visible && straight && oneLine && !s.contains '"' then basic
  else if visible && oneLine && !s.contains '\'' then literal
  else if visible && straight && longestRun '"' 0 s < 3 then basicLines
  else if visible && longestRun '\'' 0 s < 3 then literalLines
  else if oneLine then basic
  else basicLines

def delimiter : Quotes → List Char
  | basic => ['"']
  | literal => ['\'']
  | basicLines => ['"', '"', '"']
  | literalLines => ['\'', '\'', '\'']

/-- A character other than a quote, where escapes are read. -/
def escape (lines : Bool) (c : Char) : List Char :=
  if c = '\\' then ['\\', '\\']
  else if c = '\x08' then ['\\', 'b']
  else if c = '\t' then ['\\', 't']
  else if c = '\n' then if lines then ['\n'] else ['\\', 'n']
  else if c = '\x0c' then ['\\', 'f']
  else if c = '\r' then ['\\', 'r']
  else if c < ' ' || c = '\x7f' then
    ['\\', 'u', '0', '0', hexDigit (c.toNat / 16), hexDigit (c.toNat % 16)]
  else [c]

/-- A string where escapes are read. Between triple quotes two quotes may stand together; `n` of
them have gone before. -/
def escapeAll (lines : Bool) (n : Nat) : List Char → List Char
  | [] => []
  | c :: r =>
    if c = '"' then
      if lines ∧ n < 2 then '"' :: escapeAll lines (n + 1) r
      else '\\' :: '"' :: escapeAll lines 0 r
    else escape lines c ++ escapeAll lines 0 r

/-- The text between the quotes. A string of several lines begins on a line of its own. -/
def body (q : Quotes) (s : List Char) : List Char :=
  let first := if s.contains '\n' then ['\n'] else []
  match q with
  | basic => escapeAll false 0 s
  | literal => s
  | basicLines => first ++ escapeAll true 0 s
  | literalLines => first ++ s

def write (q : Quotes) (s : List Char) : List Char :=
  q.delimiter ++ q.body s ++ q.delimiter

end Quotes

def isBare (c : Char) : Bool :=
  c.isAlphanum || c == '-' || c == '_'

def keyShown (key : String) : List Char :=
  let s := key.toList
  if !s.isEmpty && s.all isBare then s else (Quotes.ofKey s).write s

def stringShown (s : String) : List Char :=
  (Quotes.ofString s.toList).write s.toList

/-! ## Values -/

def momentKey : String := "$__toml_private_datetime"

def Scalar.shown : Scalar → List Char
  | string s => stringShown s
  | integer n => (toString n).toList
  | float x => x.shown
  | boolean b => (toString b).toList
  | moment m => m.shown

def commaSeparated (items : List (List Char)) : List Char :=
  [',', ' '].intercalate items

def braced (entries : List (List Char)) : List Char :=
  if entries.isEmpty then ['{', '}'] else ['{', ' '] ++ commaSeparated entries ++ [' ', '}']

def entryShown (key : String) (value : List Char) : List Char :=
  keyShown key ++ [' ', '=', ' '] ++ value

mutual

def Value.inner : Value → List Char
  | .scalar s => s.shown
  | .array items => ['['] ++ commaSeparated (itemsShown items) ++ [']']
  | .table entries => braced (entriesShown entries)

def itemsShown : List Value → List (List Char)
  | [] => []
  | v :: rest => v.inner :: itemsShown rest

def entriesShown : List (String × Value) → List (List Char)
  | [] => []
  | (key, v) :: rest => entryShown key v.inner :: entriesShown rest

end

/-- A value on its own. A date or time comes as a table there, with its text under the reserved
key. -/
def Value.shown : Value → String
  | .scalar (.moment m) =>
    String.ofList (braced [entryShown momentKey (stringShown (String.ofList m.shown))])
  | v => String.ofList v.inner

end Ribbon.Toml
