import Ribbon.Proofs.Joined

/-!
# Segments alone on a line

A lexeme that is put on a line of its own is the one lexeme of that line, and its category stays,
but for a function name: without the bracket after it, it is a variable.
-/

namespace Ribbon

open Text Lexeme Lexicon

namespace Lexeme

theorem ofLine_of_comment {t : List Char} (h : ['/', '/'] <+: t) : ofLine t = [⟨t, 0, true⟩] := by
  obtain ⟨r, rfl⟩ := h
  rfl

theorem ofLine_of_run {t : List Char} (hrun : Run t) (hclosed : ¬ ['/', '/'] <:+: t) :
    ofLine t = [⟨t, 0, false⟩] := by
  rw [ofLine_of_closed hclosed, runs_of_run hrun]
  rfl

theorem ofLine_text {line : List Char} {x : Lexeme} (hx : x ∈ ofLine line) :
    ofLine x.text = [⟨x.text, 0, x.isComment⟩] := by
  rcases run_or_comment hx with ⟨hflag, hopens⟩ | ⟨hflag, hrun⟩
  · rw [hflag, ofLine_of_comment hopens]
  · rw [hflag, ofLine_of_run hrun (closed_of_mem hx hflag)]

end Lexeme

namespace Lexicon

theorem categoryOf_ne_functionName {line : List Char} {x : Lexeme} (hflag : x.isComment = false)
    (hlast : x.next? line = none) : standard.categoryOf line x ≠ .functionName := by
  intro h
  have hholds := holds_of_category (r := Rule.functionName) hflag (by decide) h
  rw [(functionName_holds.mp hholds).2] at hlast
  cases hlast

end Lexicon

/-- A function name that nothing calls. -/
def Segment.uncalled (g : Segment) : Segment :=
  if g.category = .functionName then { g with category := .variableName } else g

namespace Lexicon

theorem categoryOf_alone {line : List Char} {x : Lexeme} (hx : x ∈ ofLine line) :
    standard.categoryOf x.text ⟨x.text, 0, x.isComment⟩ =
      if standard.categoryOf line x = .functionName then .variableName
      else standard.categoryOf line x := by
  have halone := ofLine_text hx
  by_cases hcomment : x.isComment = true
  · rw [categoryOf_comment standard hcomment]
    exact categoryOf_comment standard hcomment
  · have hflag : x.isComment = false := Bool.eq_false_iff.mpr hcomment
    have hsplit : ofLine x.text = [] ++ ⟨x.text, 0, x.isComment⟩ :: [] := halone
    have hlast : (Lexeme.mk x.text 0 x.isComment).next? x.text = none := next?_of_split hsplit
    have hcode : InCode ⟨x.text, 0, x.isComment⟩ := inCode_of_mem (by rw [halone]; simp) hflag
    have hname : standard.categoryOf x.text ⟨x.text, 0, x.isComment⟩ ≠ .functionName :=
      categoryOf_ne_functionName hflag hlast
    have hline := categoryOf_continued hcode hlast line (y := x) rfl hflag
    rw [hline]
    by_cases hcalled : x.next? line = some '(' ∧
        standard.categoryOf x.text ⟨x.text, 0, x.isComment⟩ = .variableName
    · rw [if_pos hcalled, if_pos rfl, hcalled.2]
    · rw [if_neg hcalled, if_neg hname]

end Lexicon

namespace Scheme

theorem segments_text (width : Nat) {line : List Char} {x : Lexeme} (hx : x ∈ ofLine line) :
    (standard width).segments x.text = [((standard width).segment line x).uncalled] := by
  have hsegment (line : List Char) (y : Lexeme) : (standard width).segment line y =
      ⟨y.text, Lexicon.standard.categoryOf line y, (standard width).widthOf y.text⟩ := rfl
  rw [segments, ofLine_text hx, List.map_singleton, hsegment, hsegment, categoryOf_alone hx,
    Segment.uncalled]
  split <;> rfl

/-- A segment alone on its line comes back as it is, a function name as a variable; and a lexeme
alone on its line comes back as that lexeme. -/
theorem segments_stable (width : Nat) (line : List Char) :
    (∀ g ∈ (standard width).segments line, (standard width).segments g.text = [g.uncalled]) ∧
    ∀ x ∈ ofLine line, ofLine x.text = [⟨x.text, 0, x.isComment⟩] := by
  refine ⟨?_, fun x hx => ofLine_text hx⟩
  intro g hg
  obtain ⟨x, hx, rfl⟩ := exists_lexeme_of_mem_segments _ hg
  exact segments_text width hx

/-- A function name is a variable without the bracket, and a comment stays one whatever it holds. -/
theorem segments_stable_call :
    (⟨['f'], .functionName, 8⟩ ∈ (standard 8).segments ['f', '(', '/', '/', ' ', '/', '/'] ∧
      (standard 8).segments ['f'] = [⟨['f'], .variableName, 8⟩]) ∧
    ⟨['/', '/', ' ', '/', '/'], 2, true⟩ ∈ ofLine ['f', '(', '/', '/', ' ', '/', '/'] ∧
      ofLine ['/', '/', ' ', '/', '/'] = [⟨['/', '/', ' ', '/', '/'], 0, true⟩] := by
  have hcall : ⟨['f'], .functionName, 8⟩ ∈
      (standard 8).segments ['f', '(', '/', '/', ' ', '/', '/'] := by decide
  have hcomment : ⟨['/', '/', ' ', '/', '/'], 2, true⟩ ∈
      ofLine ['f', '(', '/', '/', ' ', '/', '/'] := by decide
  obtain ⟨hsegments, hlexemes⟩ := segments_stable 8 ['f', '(', '/', '/', ' ', '/', '/']
  exact ⟨⟨hcall, (hsegments _ hcall).trans (by decide)⟩, hcomment, hlexemes _ hcomment⟩

end Scheme

end Ribbon
