import Ribbon.Word

/-!
# Numerals

Numbers as decimal numerals, and texts set flush in a column.
-/

namespace Ribbon.Text

def numeral (n : Nat) : List Char :=
  Nat.toDigits 10 n

def padLeft (size : Nat) (s : List Char) : List Char :=
  List.replicate (size - s.length) ' ' ++ s

def padRight (size : Nat) (s : List Char) : List Char :=
  s ++ List.replicate (size - s.length) ' '

theorem numeral_ne_nil (n : Nat) : numeral n ≠ [] :=
  Nat.toDigits_ne_nil

theorem isDigit_of_mem_numeral {n : Nat} {c : Char} (h : c ∈ numeral n) : c.isDigit = true :=
  Nat.isDigit_of_mem_toDigits (by decide) (by decide) h

theorem length_padLeft (size : Nat) (s : List Char) :
    (padLeft size s).length = max size s.length := by
  simp [padLeft]
  omega

def digitsValue? (s : List Char) : Option Nat :=
  if s.isEmpty || !s.all Char.isDigit then none
  else some (s.foldl (fun n c => 10 * n + (c.toNat - 48)) 0)

/-- The word that a text stands for: digits, after one plus sign at most. -/
def number? (s : List Char) : Option Nat :=
  let digits := match s with
    | '+' :: r => r
    | s => s
  (digitsValue? digits).filter (· < Word.size)

end Ribbon.Text
