/-!
# Hexadecimal digits

Reading a digit in either case, writing it as a capital. Main statement: a written digit is read
back.
-/

namespace Ribbon.Text

def hexValue? (c : Char) : Option Nat :=
  if '0' ≤ c ∧ c ≤ '9' then some (c.toNat - 48)
  else if 'A' ≤ c ∧ c ≤ 'F' then some (c.toNat - 55)
  else if 'a' ≤ c ∧ c ≤ 'f' then some (c.toNat - 87)
  else none

def hexDigit (n : Nat) : Char :=
  (Nat.digitChar n).toUpper

theorem hexValue?_hexDigit {n : Nat} (h : n < 16) : hexValue? (hexDigit n) = some n := by
  revert n
  decide

theorem hexValue?_lt {c : Char} {n : Nat} (h : hexValue? c = some n) : n < 16 := by
  simp only [hexValue?, Char.le_def, UInt32.le_iff_toNat_le] at h
  have : c.toNat = c.val.toNat := rfl
  split at h
  · simp at h; simp_all; omega
  · split at h
    · simp at h; simp_all; omega
    · split at h
      · simp at h; simp_all; omega
      · cases h

def hexNumber? (s : List Char) : Option Nat :=
  (s.mapM hexValue?).map fun ds => ds.foldl (fun n d => 16 * n + d) 0

end Ribbon.Text
