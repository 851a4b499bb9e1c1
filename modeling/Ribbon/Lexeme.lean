import Ribbon.Text.Blank
import Ribbon.Text.Bytes
import Ribbon.Word

/-!
# Lexemes

A line is cut into lexemes: runs of blanks, single marks, the plain texts between them, and the
comment that may end the line. Nothing is lost: the texts of the lexemes make up the line.
-/

namespace Ribbon

open Text

structure Lexeme where
  text : List Char
  offset : Nat
  isComment : Bool
  deriving DecidableEq, Repr

namespace Lexeme

/-- The byte just past the piece. -/
def stop (x : Lexeme) : Nat :=
  x.offset + byteLength x.text

/-- The character right after a lexeme in a line. The lexeme need not be one of the line's, and
there may be no character where it stops. -/
def next? (line : List Char) (x : Lexeme) : Option Char :=
  (afterBytes? x.stop line).bind List.head?

/-- Looking for the character right after a lexeme, which fails where the stop is no word. -/
def lookAhead (line : List Char) (x : Lexeme) : Except Word.Overflow (Option Char) := do
  return (afterBytes? (← Word.add x.offset (byteLength x.text)) line).bind List.head?

theorem lookAhead_of_lt {x : Lexeme} (h : x.stop < Word.size) (line : List Char) :
    x.lookAhead line = .ok (x.next? line) := by
  rw [stop] at h
  rw [lookAhead, Word.add, if_pos h]
  rfl

theorem lookAhead_of_le {x : Lexeme} (h : Word.size ≤ x.stop) (line : List Char) :
    x.lookAhead line = .error .sum := by
  rw [stop] at h
  rw [lookAhead, Word.add, if_neg (Nat.not_lt.mpr h)]
  rfl

/-! ## Code and comment -/

def opensComment (s : List Char) : Bool :=
  ['/', '/'].isPrefixOf s

/-- A line as its code and its comment. A line without a comment has the empty one. -/
def cutComment : List Char → List Char × List Char
  | [] => ([], [])
  | c :: r =>
    if opensComment (c :: r) then ([], c :: r)
    else
      let cut := cutComment r
      (c :: cut.1, cut.2)

theorem cutComment_append (line : List Char) :
    (cutComment line).1 ++ (cutComment line).2 = line := by
  induction line with
  | nil => rfl
  | cons c r ih =>
    simp only [cutComment]
    split <;> simp [ih]

theorem opensComment_of_cutComment {line : List Char} (h : (cutComment line).2 ≠ []) :
    opensComment (cutComment line).2 = true := by
  induction line with
  | nil => simp [cutComment] at h
  | cons c r ih =>
    simp only [cutComment] at h ⊢
    split
    · assumption
    · simp_all

/-! ## Plain texts and separators -/

def marks : List Char :=
  ['{', '}', '(', ')', '[', ']', ',', ';', '.']

def isMark (c : Char) : Bool :=
  marks.contains c

def isPlain (c : Char) : Bool :=
  !isMark c && !isBlank c

/-- A code text as its first plain text and, for each separator, the plain text after it. Plain
texts may be empty. -/
structure Cut where
  first : List Char
  rest : List (List Char × List Char)
  deriving DecidableEq, Repr

namespace Cut

def texts (k : Cut) : List (List Char) :=
  k.first :: k.rest.flatMap fun (separator, plain) => [separator, plain]

def separate (separator : List Char) (k : Cut) : Cut :=
  ⟨[], (separator, k.first) :: k.rest⟩

/-- A blank in front: it joins the blanks that the cut begins with, if it does. -/
def addBlank (c : Char) : Cut → Cut
  | ⟨[], (b :: s, p) :: rest⟩ =>
    if isBlank b then ⟨[], (c :: b :: s, p) :: rest⟩
    else separate [c] ⟨[], (b :: s, p) :: rest⟩
  | k => separate [c] k

def add (c : Char) (k : Cut) : Cut :=
  if isMark c then separate [c] k
  else if isBlank c then addBlank c k
  else { k with first := c :: k.first }

@[simp] theorem flatten_separate (s : List Char) (k : Cut) :
    (separate s k).texts.flatten = s ++ k.texts.flatten := by
  simp [separate, texts]

@[simp] theorem flatten_add (c : Char) (k : Cut) :
    (add c k).texts.flatten = c :: k.texts.flatten := by
  unfold add
  split
  · simp
  · split
    · unfold addBlank
      split
      · split <;> simp [texts, separate]
      · simp
    · simp [texts]

end Cut

def cut (code : List Char) : Cut :=
  code.foldr Cut.add ⟨[], []⟩

theorem flatten_cut (code : List Char) : (cut code).texts.flatten = code := by
  induction code with
  | nil => rfl
  | cons c r ih => simpa [cut] using ih

/-! ## Lexemes of a line -/

/-- Code pieces that follow each other, the first at the given byte. -/
def placed (offset : Nat) : List (List Char) → List Lexeme
  | [] => []
  | t :: ts => ⟨t, offset, false⟩ :: placed (offset + byteLength t) ts

/-- Every piece of a line, the empty ones included. -/
def allOfLine (line : List Char) : List Lexeme :=
  let (code, comment) := cutComment line
  let pieces := placed 0 (cut code).texts
  if comment.isEmpty then pieces else pieces ++ [⟨comment, byteLength code, true⟩]

def ofLine (line : List Char) : List Lexeme :=
  (allOfLine line).filter fun x => !x.text.isEmpty

@[simp] theorem map_text_placed (n : Nat) (ts : List (List Char)) :
    (placed n ts).map text = ts := by
  induction ts generalizing n with
  | nil => rfl
  | cons t ts ih => simp [placed, ih]

theorem flatten_allOfLine (line : List Char) : ((allOfLine line).map text).flatten = line := by
  have h := cutComment_append line
  simp only [allOfLine]
  split
  · rename_i empty
    simp only [List.isEmpty_iff] at empty
    rw [map_text_placed, flatten_cut]
    simpa [empty] using h
  · simpa [flatten_cut] using h

theorem map_text_filter (xs : List Lexeme) :
    (xs.filter fun x => !x.text.isEmpty).map text = (xs.map text).filter fun t => !t.isEmpty := by
  rw [List.filter_map]
  rfl

theorem flatten_ofLine (line : List Char) : ((ofLine line).map text).flatten = line := by
  rw [ofLine, map_text_filter, List.flatten_filter_not_isEmpty, flatten_allOfLine]

end Lexeme

end Ribbon
