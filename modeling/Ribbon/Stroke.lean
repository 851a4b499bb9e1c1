import Ribbon.Color
import Ribbon.Text.Numeral

/-!
# Strokes

What is sent to a terminal: texts, and control sequences that set how the texts after them look.
-/

namespace Ribbon

open Text

inductive Stroke
  | text (s : List Char)
  | foreground (c : Rgb)
  | background (c : Rgb)
  | dim
  | undim
  | plain
  deriving DecidableEq, Repr

namespace Stroke

def select (parameters : List Nat) : List Char :=
  ['\x1b', '['] ++ [';'].intercalate (parameters.map numeral) ++ ['m']

def channels (c : Rgb) : List Nat :=
  [c.red.toNat, c.green.toNat, c.blue.toNat]

def encode : Stroke → List Char
  | text s => s
  | foreground c => select (38 :: 2 :: channels c)
  | background c => select (48 :: 2 :: channels c)
  | dim => select [2]
  | undim => select [22]
  | plain => select [0]

/-! ## Short drawings -/

def newRow : List Stroke :=
  [plain, text ['\n']]

def block (c : Rgb) (cells : Nat) : List Stroke :=
  [background c, text (List.replicate cells ' '), plain]

def fill (c : Color) (cells : Nat) : List Stroke :=
  match c.rgb? with
  | some c => block c cells
  | none => [text (List.replicate cells ' ')]

def colored (c : Rgb) (s : List Char) : List Stroke :=
  [foreground c, text s, plain]

def dimmed (s : List Char) : List Stroke :=
  [dim, text s, undim]

def encodeAll (drawing : List Stroke) : List Char :=
  drawing.flatMap encode

@[simp] theorem encodeAll_append (a b : List Stroke) :
    encodeAll (a ++ b) = encodeAll a ++ encodeAll b := by
  simp [encodeAll]

end Stroke

/-- The number of columns of a terminal that reports `n` of them. There is always one. -/
def columns (n : Nat) : Nat :=
  max 1 n

/-- The number of columns where there is no terminal to ask. -/
def defaultColumns : Nat := 100

end Ribbon
