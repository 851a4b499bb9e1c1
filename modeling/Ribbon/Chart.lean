import Ribbon.Legend
import Ribbon.Strip

/-!
# Charts

Strips drawn as rows of colored blocks, and a legend below them.
-/

namespace Ribbon

open Text

structure Chart where
  palette : Palette
  /-- The width that one cell of the terminal covers. None covers less than 1. -/
  cellWidth : Nat
  lineNumbers : Bool
  legend : Bool

namespace Chart

def warnings (k : Chart) : List Warning :=
  k.palette.missing.map fun c => .missingColor c.name

theorem warnings_eq_nil {k : Chart} (h : k.palette.missing = []) : k.warnings = [] := by
  rw [warnings, h, List.map_nil]

/-- The cells that it takes to cover a width, and one at least. -/
def cells (k : Chart) (width : Nat) : Nat :=
  let unit := max 1 k.cellWidth
  max 1 ((width + (unit - 1)) / unit)

/-! ## Line numbers -/

/-- The columns for the line numbers and the space after them. The last line has the number that
they have to hold. -/
def gutter (k : Chart) (strips : List Strip) : Nat :=
  if k.lineNumbers then
    max 3 (numeral ((strips.getLast?.map (·.number)).getD 1)).length + 1
  else 0

def drawNumber (gutter number : Nat) : List Stroke :=
  if gutter = 0 then []
  else Stroke.dimmed (padLeft (gutter - 1) (numeral number) ++ [' '])

/-! ## Rows -/

def drawBlocks (k : Chart) (room : Nat) : List Segment → List Stroke
  | [] => []
  | g :: rest =>
    if room = 0 then []
    else
      let n := min (k.cells g.width) room
      Stroke.fill (k.palette.colorOf g.category) n ++ k.drawBlocks (room - n) rest

def drawRow (k : Chart) (columns gutter : Nat) (s : Strip) : List Stroke :=
  drawNumber gutter s.number ++ k.drawBlocks (columns - gutter) s.segments ++ Stroke.newRow

/-- The rows of the strips; then the legend, if it is wanted, below an empty row. -/
def draw (k : Chart) (columns : Nat) (strips : List Strip) : List Stroke :=
  let rows := strips.flatMap (k.drawRow columns (k.gutter strips))
  let space := if strips.isEmpty then [] else Stroke.newRow
  rows ++ if k.legend then space ++ Legend.draw columns k.palette else []

end Chart

end Ribbon
