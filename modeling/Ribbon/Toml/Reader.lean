/-!
# Readers

A reader takes a value off the front of a text, or refuses. Choosing between two readers starts
again where the first one started.
-/

namespace Ribbon.Toml

/-- What a reader gives is the value and the rest of the text. -/
abbrev Reader := StateT (List Char) Option

namespace Reader

def one (p : Char → Bool) : Reader Char
  | c :: r => if p c then some (c, r) else none
  | [] => none

def span (p : Char → Bool) : Reader (List Char) :=
  fun s => some (s.takeWhile p, s.dropWhile p)

def word (w : List Char) : Reader Unit :=
  fun s => if w.isPrefixOf s then some ((), s.drop w.length) else none

/-- Whether the word comes next, which is taken if it does. -/
def ifWord (w : List Char) : Reader Bool :=
  fun s => if w.isPrefixOf s then some (true, s.drop w.length) else some (false, s)

def peek : Reader (Option Char) :=
  fun s => some (s.head?, s)

def finish : Reader Unit
  | [] => some ((), [])
  | _ => none

def optional {α : Type} (item : Reader α) : Reader (Option α) :=
  fun s => match item s with
    | some (a, r) => some (some a, r)
    | none => some (none, s)

def upTo {α : Type} (item : Reader α) : Nat → Reader (List α)
  | 0 => pure []
  | n + 1 => fun s => match item s with
    | some (a, r) => (upTo item n r).map fun (as, r) => (a :: as, r)
    | none => some ([], s)

/-- As many values as come. A reader that takes a character each time is never cut short. -/
def many {α : Type} (item : Reader α) : Reader (List α) :=
  fun s => upTo item s.length s

def times {α : Type} (item : Reader α) : Nat → Reader (List α)
  | 0 => pure []
  | n + 1 => do return (← item) :: (← times item n)

def all? {α : Type} (item : Reader α) (s : List Char) : Option α :=
  match item s with
  | some (a, []) => some a
  | _ => none

/-! ## Blanks and line ends -/

def isGap (c : Char) : Bool :=
  c == ' ' || c == '\t'

/-- A character that may stand in a comment: no control but the tab. -/
def isVisible (c : Char) : Bool :=
  c == '\t' || (' ' ≤ c && c != '\x7f')

def gap : Reader Unit :=
  discard (span isGap)

/-- A line ends in a line feed, or in a carriage return with a line feed after it. -/
def newline : Reader Unit :=
  word ['\n'] <|> word ['\r', '\n']

def comment : Reader Unit :=
  discard (word ['#'] *> span isVisible)

/-- What may follow a statement on its line. -/
def lineEnd : Reader Unit :=
  gap *> optional comment *> (newline <|> finish)

/-- Blanks, line ends and comments, as they may stand between the items of an array. -/
def spread : Reader Unit :=
  discard (many (discard (one isGap) <|> newline <|> (comment *> newline)))

end Reader

end Ribbon.Toml
