/-!
# Texts measured in UTF-8 bytes

How many bytes a text takes, and what is left of it after a number of bytes. Main statement: after
the bytes of its first part, a text goes on with its second part.
-/

namespace Ribbon.Text

def byteLength : List Char → Nat
  | [] => 0
  | c :: r => c.utf8Size + byteLength r

/-- What follows the first `n` bytes; nothing if the cut is inside a character or past the end. -/
def afterBytes? (n : Nat) : List Char → Option (List Char)
  | [] => if n = 0 then some [] else none
  | c :: r =>
    if n = 0 then some (c :: r)
    else if c.utf8Size ≤ n then afterBytes? (n - c.utf8Size) r else none

@[simp] theorem byteLength_nil : byteLength [] = 0 := rfl

@[simp] theorem byteLength_cons (c : Char) (r : List Char) :
    byteLength (c :: r) = c.utf8Size + byteLength r := rfl

@[simp] theorem byteLength_append (a b : List Char) :
    byteLength (a ++ b) = byteLength a + byteLength b := by
  induction a with
  | nil => simp
  | cons c r ih => simp [ih, Nat.add_assoc]

@[simp] theorem afterBytes?_zero (s : List Char) : afterBytes? 0 s = some s := by
  cases s <;> simp [afterBytes?]

theorem afterBytes?_append (a b : List Char) : afterBytes? (byteLength a) (a ++ b) = some b := by
  induction a with
  | nil => simp
  | cons c r ih =>
    have := c.utf8Size_pos
    simp [afterBytes?, ih]
    omega

/-- A rest is left exactly where the text can be cut in two. -/
theorem afterBytes?_eq_some_iff {n : Nat} {s b : List Char} :
    afterBytes? n s = some b ↔ ∃ a, s = a ++ b ∧ byteLength a = n := by
  constructor
  · intro h
    induction s generalizing n with
    | nil =>
      simp only [afterBytes?] at h
      split at h
      · exact ⟨[], by simp_all⟩
      · cases h
    | cons c r ih =>
      simp only [afterBytes?] at h
      split at h
      · exact ⟨[], by simp_all⟩
      · split at h
        · obtain ⟨a, rfl, ha⟩ := ih h
          exact ⟨c :: a, rfl, by simp; omega⟩
        · cases h
  · rintro ⟨a, rfl, rfl⟩
    exact afterBytes?_append a b

end Ribbon.Text
