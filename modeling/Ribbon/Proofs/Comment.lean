import Ribbon.Lexeme

/-!
# Where the comment of a line begins

`cutComment` cuts a line at its first `//`, and only there.
-/

namespace Ribbon.Lexeme

/-- A line as the part before its first `//` and the part from there on. -/
structure CommentAt (line code comment : List Char) : Prop where
  whole : code ++ comment = line
  opens : comment = [] ∨ ['/', '/'] <+: comment
  /-- Wherever a `//` stands in the line, the code has ended. -/
  first : ∀ a b, line = a ++ '/' :: '/' :: b → code.length ≤ a.length

theorem opensComment_iff (s : List Char) : opensComment s = true ↔ ['/', '/'] <+: s := by
  unfold opensComment
  rw [List.isPrefixOf_iff_prefix]

theorem cutComment_first (line a b : List Char) (h : line = a ++ '/' :: '/' :: b) :
    (cutComment line).1.length ≤ a.length := by
  induction line generalizing a with
  | nil => simp [cutComment]
  | cons c r ih =>
    rw [cutComment]
    split
    · simp
    · rename_i hno
      cases a with
      | nil =>
        have hopen : ['/', '/'] <+: c :: r := ⟨b, h.symm⟩
        exact absurd ((opensComment_iff _).mpr hopen) hno
      | cons x a =>
        simp only [List.cons_append, List.cons.injEq] at h
        have := ih a h.2
        simp only [List.length_cons]
        omega

theorem cutComment_at (line : List Char) :
    CommentAt line (cutComment line).1 (cutComment line).2 where
  whole := cutComment_append line
  opens := by
    by_cases h : (cutComment line).2 = []
    · exact Or.inl h
    · exact Or.inr ((opensComment_iff _).mp (opensComment_of_cutComment h))
  first := cutComment_first line

namespace CommentAt

variable {line code comment : List Char}

/-- Neither part of a line could be longer at the cost of the other. -/
theorem length_le (h : CommentAt line code comment) {code' comment' : List Char}
    (h' : CommentAt line code' comment') : code.length ≤ code'.length := by
  rcases h'.opens with hnil | ⟨b, hb⟩
  · have hline := h'.whole
    rw [hnil, List.append_nil] at hline
    rw [hline, ← h.whole, List.length_append]
    omega
  · exact h.first code' b (by rw [← h'.whole, ← hb]; rfl)

theorem iff_eq_cutComment :
    CommentAt line code comment ↔ code = (cutComment line).1 ∧ comment = (cutComment line).2 := by
  constructor
  · intro h
    have hcut := cutComment_at line
    have hlen : code.length = (cutComment line).1.length :=
      Nat.le_antisymm (h.length_le hcut) (hcut.length_le h)
    exact List.append_inj (h.whole.trans hcut.whole.symm) hlen
  · rintro ⟨rfl, rfl⟩
    exact cutComment_at line

/-- There is a comment exactly where there is a `//`. -/
theorem eq_nil_iff (h : CommentAt line code comment) : comment = [] ↔ ¬ ['/', '/'] <:+: line := by
  constructor
  · rintro hnil ⟨a, b, hab⟩
    have hlen := h.first a b (by rw [← hab]; simp)
    have hline := congrArg List.length (h.whole.trans hab.symm)
    simp only [hnil, List.append_nil, List.length_append, List.length_cons, List.length_nil] at hline
    omega
  · intro hno
    rcases h.opens with hnil | ⟨b, hb⟩
    · exact hnil
    · refine absurd ⟨code, b, ?_⟩ hno
      rw [List.append_assoc, hb, h.whole]

end CommentAt

end Ribbon.Lexeme
