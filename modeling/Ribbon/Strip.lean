import Ribbon.Lexicon
import Ribbon.Text.Lines

/-!
# Strips

A text as strips of segments, one strip for each line that is not empty. Main statements: the
segments of a line make up the line, and the category rules have no say in how it is cut.
-/

namespace Ribbon

open Text

structure Segment where
  text : List Char
  category : Category
  width : Nat
  deriving DecidableEq, Repr

structure Strip where
  /-- The place of the line in the text, counted from 1. -/
  number : Nat
  segments : List Segment
  deriving DecidableEq, Repr

namespace Strip

def width (s : Strip) : Nat :=
  s.segments.foldl (fun sum g => Word.saturate (sum + g.width)) 0

def text (s : Strip) : List Char :=
  (s.segments.map (·.text)).flatten

end Strip

structure Scheme (τ : Type) where
  lexicon : Lexicon τ
  charWidth : Nat

namespace Scheme

def defaultWidth : Nat := 8

def standard (charWidth : Nat) : Scheme (Test Shape) :=
  ⟨.standard, charWidth⟩

variable {τ : Type}

def widthOf (k : Scheme τ) (text : List Char) : Nat :=
  Word.saturate (text.length * k.charWidth)

variable [Tests τ]

def segment (k : Scheme τ) (line : List Char) (x : Lexeme) : Segment :=
  ⟨x.text, k.lexicon.categoryOf line x, k.widthOf x.text⟩

def segments (k : Scheme τ) (line : List Char) : List Segment :=
  (Lexeme.ofLine line).map (k.segment line)

def strip? (k : Scheme τ) (line : List Char × Nat) : Option Strip :=
  match k.segments line.1 with
  | [] => none
  | gs => some ⟨line.2, gs⟩

/-- The strips of a text. Lines keep their numbers when empty lines before them are left out. -/
def strips (k : Scheme τ) (text : List Char) : List Strip :=
  ((lines text).zipIdx 1).filterMap k.strip?

theorem map_text_segments (k : Scheme τ) (line : List Char) :
    (k.segments line).map (·.text) = (Lexeme.ofLine line).map (·.text) := by
  simp [segments, segment]

theorem flatten_segments (k : Scheme τ) (line : List Char) :
    ((k.segments line).map (·.text)).flatten = line := by
  rw [map_text_segments, Lexeme.flatten_ofLine]

theorem segments_eq_nil_iff (k : Scheme τ) (line : List Char) :
    k.segments line = [] ↔ line = [] := by
  constructor
  · intro h
    simpa [h] using (k.flatten_segments line).symm
  · rintro rfl
    rfl

end Scheme

end Ribbon
