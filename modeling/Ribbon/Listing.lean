import Ribbon.Strip
import Ribbon.Text.Numeral
import Ribbon.Text.Quoted

/-!
# Listings

Strips as plain text: the number of each line, then a row for each of its segments.
-/

namespace Ribbon

open Text

def Segment.row (g : Segment) : List Char :=
  [' ', ' '] ++ padRight 12 g.category.name.toList ++ padLeft 5 (numeral g.width) ++ [' ', ' '] ++
    quoted g.text

def Segment.listing (g : Segment) : List Char :=
  g.row ++ ['\n']

def Strip.heading (number : Nat) : List Char :=
  numeral number ++ [':']

def Strip.listing (s : Strip) : List Char :=
  heading s.number ++ ['\n'] ++ s.segments.flatMap Segment.listing

def listing (strips : List Strip) : List Char :=
  strips.flatMap Strip.listing

end Ribbon
