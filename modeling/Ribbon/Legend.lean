import Ribbon.Palette
import Ribbon.Stroke

/-!
# Legends

Colors and what they mean, as many to a row as there is room for. Main statement: every entry is
in one row, and in order.
-/

namespace Ribbon.Legend

abbrev Entry := String × Color

/-- The sign that shows a color. It takes one cell. -/
def swatch : List Char := ['■']

/-- The cells that an entry takes: the swatch, a space and the label. -/
def Entry.width (e : Entry) : Nat :=
  swatch.length + 1 + e.1.length

def gap : List Char := [' ', ' ']

/-! ## Rows -/

/-- Continues a row of which some cells are used: its further entries, and the rows after it. An
entry that does not fit into the row begins the next one. -/
def continueRow (columns used : Nat) : List Entry → List Entry × List (List Entry)
  | [] => ([], [])
  | e :: rest =>
    let used' := used + gap.length + Entry.width e
    if used' ≤ columns then
      let r := continueRow columns used' rest
      (e :: r.1, r.2)
    else
      let r := continueRow columns (Entry.width e) rest
      ([], (e :: r.1) :: r.2)

/-- The rows of a legend. The first entry of a row is there even if it does not fit. -/
def rows (columns : Nat) : List Entry → List (List Entry)
  | [] => []
  | e :: rest =>
    let r := continueRow columns (Entry.width e) rest
    (e :: r.1) :: r.2

theorem flatten_continueRow (columns used : Nat) (es : List Entry) :
    (continueRow columns used es).1 ++ (continueRow columns used es).2.flatten = es := by
  induction es generalizing used with
  | nil => rfl
  | cons e rest ih =>
    simp only [continueRow]
    split <;> simp [ih]

theorem flatten_rows (columns : Nat) (es : List Entry) : (rows columns es).flatten = es := by
  cases es with
  | nil => rfl
  | cons e rest => simp [rows, flatten_continueRow]

/-! ## Drawing -/

/-- One entry: its swatch, or an empty cell if nothing is drawn in its color, and its label. -/
def Entry.draw (e : Entry) : List Stroke :=
  let sign := match e.2.rgb? with
    | some c => Stroke.colored c swatch
    | none => [.text [' ']]
  sign ++ [.text (' ' :: e.1.toList)]

def drawEntries : List Entry → List Stroke
  | [] => []
  | [e] => e.draw
  | e :: rest => e.draw ++ [.text gap] ++ drawEntries rest

def drawRow (row : List Entry) : List Stroke :=
  drawEntries row ++ Stroke.newRow

def draw (columns : Nat) (palette : Palette) : List Stroke :=
  (rows columns palette.legend).flatMap drawRow

end Ribbon.Legend
