/-!
# Lines of a text

A text is cut at its line feeds; a line may end in one carriage return, which is not part of it.
Main statement: a line feed between two texts keeps their lines apart.
-/

namespace Ribbon.Text

/-- A piece without the carriage return at its end, if there is one. -/
def dropReturn : List Char → List Char
  | [] => []
  | ['\r'] => []
  | c :: r => c :: dropReturn r

/-- The lines of a text, in order, the empty ones included. There is always one. -/
def lines (s : List Char) : List (List Char) :=
  (s.splitOn '\n').map dropReturn

theorem splitOn_cons (x c : Char) (r : List Char) :
    (c :: r).splitOn x =
      if c = x then [] :: r.splitOn x else (r.splitOn x).modifyHead (c :: ·) := by
  simpa [List.splitOn] using List.splitOnP_cons_eq_if_modifyHead (p := (· == x)) c r

theorem notMem_of_mem_splitOn {x : Char} {s p : List Char} (h : p ∈ s.splitOn x) : x ∉ p := by
  induction s generalizing p with
  | nil => simp_all
  | cons c r ih =>
    rw [splitOn_cons] at h
    split at h
    · rcases List.mem_cons.1 h with rfl | h
      · simp
      · exact ih h
    · rename_i ne
      cases hr : r.splitOn x with
      | nil => exact absurd hr (List.splitOn_ne_nil x r)
      | cons q qs =>
        rw [hr] at h ih
        rcases List.mem_cons.1 h with rfl | h
        · simpa [Ne.symm ne] using ih (List.mem_cons_self)
        · exact ih (by simp [h])

theorem lines_append (a b : List Char) : lines (a ++ '\n' :: b) = lines a ++ lines b := by
  rw [lines, List.splitOn_append_cons_self, List.map_append, lines, lines]

end Ribbon.Text
