/-!
# Words

Widths, byte positions and numbers in arguments are words of 64 bits.
-/

namespace Ribbon.Word

def size : Nat := 0x10000000000000000

def last : Nat := 0xFFFFFFFFFFFFFFFF

/-- What stops a program that adds words up. -/
inductive Overflow
  | sum
  deriving DecidableEq, Repr

/-- The sum of two words, unless it is none. -/
def add (m n : Nat) : Except Overflow Nat :=
  if m + n < size then .ok (m + n) else .error .sum

/-- What is too great for a word counts as the last one. -/
def saturate (n : Nat) : Nat :=
  min last n

theorem saturate_of_le {n : Nat} (h : n ≤ last) : saturate n = n :=
  Nat.min_eq_right h

/-- A sum may be cut off early. -/
theorem saturate_add_saturate (m n : Nat) : saturate (saturate m + n) = saturate (m + n) := by
  simp only [saturate]
  omega

end Ribbon.Word
