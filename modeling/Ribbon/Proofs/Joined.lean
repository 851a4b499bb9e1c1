import Mathlib.Data.List.ModifyLast
import Ribbon.Proofs.Precedence
import Ribbon.Proofs.Seams

/-!
# Segments of lines put together

More text after a line changes its last segment alone. Two texts around a separator have the
segments that they have alone, but a variable before an opening bracket becomes a function name.
-/

namespace Ribbon

open Text Lexeme Rule

namespace Lexicon

/-- What decides the category of a lexeme, besides the rules. -/
theorem categoryOf_congr {π : Type} [Pattern π] (rules : Lexicon (Test π))
    {line line' : List Char} {x y : Lexeme} (htext : x.text = y.text)
    (hflag : x.isComment = y.isComment) (hnext : x.next? line = y.next? line') :
    rules.categoryOf line x = rules.categoryOf line' y := by
  have htest (t : Test π) : t.holds line x = t.holds line' y := by
    cases t <;> simp only [Test.holds, htext, hnext]
  unfold categoryOf find?
  simp only [Rule.holds_test, hflag, htest]

end Lexicon

namespace Scheme

variable {π : Type} [Pattern π]

theorem segment_congr (k : Scheme (Test π)) {line line' : List Char} {x y : Lexeme}
    (htext : x.text = y.text) (hflag : x.isComment = y.isComment)
    (hnext : x.next? line = y.next? line') : k.segment line x = k.segment line' y := by
  unfold segment
  rw [htext, k.lexicon.categoryOf_congr htext hflag hnext]

/-- What is told of the lexemes of a line, when both lines have the same to tell. -/
theorem map_dropLast_prefix {α : Type} {f g : Lexeme → α} {a : List Char}
    (h : ∀ x ∈ (ofLine a).dropLast, f x = g x) (b : List Char) :
    ((ofLine a).map f).dropLast <+: (ofLine (a ++ b)).map g := by
  obtain ⟨ys, hys⟩ := exists_ofLine_append a b
  refine ⟨ys.map g, ?_⟩
  rw [← List.map_dropLast, List.map_congr_left h, hys, List.map_append]

/-- More text after a line changes its last lexeme alone, and no segment but the last one. So it is
with rules of any kind that look at a lexeme and the character after it. -/
theorem dropLast_prefix_append (a b : List Char) :
    (ofLine a).dropLast <+: ofLine (a ++ b) ∧
    (∀ {π : Type} [Pattern π] (k : Scheme (Test π)),
      (k.segments a).dropLast <+: k.segments (a ++ b)) ∧
    ∀ {α : Type} (f : Lexeme → Option Char → α),
      ((ofLine a).map fun x => f x (x.next? a)).dropLast <+:
        (ofLine (a ++ b)).map fun x => f x (x.next? (a ++ b)) := by
  refine ⟨?_, fun k => ?_, fun f => ?_⟩
  · obtain ⟨ys, hys⟩ := exists_ofLine_append a b
    exact ⟨ys, hys.symm⟩
  · exact map_dropLast_prefix (fun x hx => k.segment_congr rfl rfl (next?_append hx).symm) b
  · exact map_dropLast_prefix (fun x hx => congrArg (f x) (next?_append hx).symm) b

/-! ## Separated texts -/

theorem segments_join (k : Scheme (Test π)) {a s b : List Char} (h : Separates a s b)
    (ha : ¬ ['/', '/'] <:+: a) :
    k.segments (a ++ (s ++ b)) = (ofLine a).map (k.segment (a ++ (s ++ b))) ++
      k.segment (a ++ (s ++ b)) ⟨s, byteLength a, false⟩ :: k.segments b := by
  have hright : (ofLine b).map (k.segment (a ++ (s ++ b)) ∘ shift (byteLength (a ++ s))) =
      k.segments b :=
    List.map_congr_left fun x hx => k.segment_congr rfl rfl (next?_shift h ha hx)
  rw [segments, ofLine_join h ha, List.map_append, List.map_cons, List.map_map, hright]

end Scheme

namespace Lexicon

/-- Of the standard rules only those on free names look ahead. -/
theorem means_next {t : List Char} {next next' : Option (List Char)} {c : Category}
    (hfunction : c ≠ .functionName) (hvariable : c ≠ .variableName) (h : Means t next c) :
    Means t next' c := by
  cases c with
  | functionName => exact absurd rfl hfunction
  | variableName => exact absurd rfl hvariable
  | _ => exact h

/-- A variable at the end of a line becomes a function name when a bracket follows it, and nothing
else changes. -/
theorem categoryOf_continued {line : List Char} {x y : Lexeme} (h : InCode x)
    (hlast : x.next? line = none) (line' : List Char) (htext : y.text = x.text)
    (hflag : y.isComment = false) :
    standard.categoryOf line' y =
      if y.next? line' = some '(' ∧ standard.categoryOf line x = .variableName then .functionName
      else standard.categoryOf line x := by
  have hrun : Run y.text := htext ▸ h.run
  obtain ⟨c, hc⟩ := exists_means x.text none
  have hcategory : standard.categoryOf line x = c :=
    categoryOf_of_means h.flag h.run (by simp [hlast]) hc
  have hfunction : c ≠ .functionName := by
    rintro rfl
    cases hc.2
  rw [hcategory]
  by_cases hvariable : c = .variableName
  · subst hvariable
    rw [categoryOf_freeName hflag hrun (htext ▸ hc.1)]
    simp
  · rw [if_neg fun hboth => hvariable hboth.2]
    have hnext : y.next? line' = some '(' ↔
        (if y.next? line' = some '(' then some ['('] else none) = some ['('] := by
      split <;> simp_all
    exact categoryOf_of_means hflag hrun hnext (htext ▸ means_next hfunction hvariable hc)

/-- What a separator is: a bracket, a punctuation mark, or blanks. -/
def separatorCategory : List Char → Category
  | [c] =>
    if c ∈ bracketChars then .bracket
    else if c ∈ punctuationChars then .punctuation
    else .space
  | _ => .space

theorem separatorCategory_blank {s : List Char} (h : BlankRun s) : separatorCategory s = .space := by
  unfold separatorCategory
  split
  · rename_i c
    have hmark : c ∉ marks := fun hc => MarkText.not_blank ⟨c, hc, rfl⟩ h
    rw [if_neg fun hc => hmark (bracketChars_subset hc),
      if_neg fun hc => hmark (punctuationChars_subset hc)]
  · rfl

theorem categoryOf_separator {a s b : List Char} (h : Separates a s b) (line : List Char) (n : Nat) :
    standard.categoryOf line ⟨s, n, false⟩ = separatorCategory s := by
  rcases h with ⟨c, hc, rfl⟩ | ⟨hblank, -⟩
  · by_cases hbracket : c ∈ bracketChars
    · rw [separatorCategory, if_pos hbracket]
      exact categoryOf_bracket rfl ⟨c, hbracket, rfl⟩
    · have hpunctuation := (mem_of_mark hc).resolve_left hbracket
      rw [separatorCategory, if_neg hbracket, if_pos hpunctuation]
      exact categoryOf_punctuation rfl ⟨c, hpunctuation, rfl⟩
  · rw [separatorCategory_blank hblank]
    exact categoryOf_first rfl [] _ space (by simp) (space_holds.mpr hblank.2)

end Lexicon

/-- A variable that is called. -/
def Segment.called (g : Segment) : Segment :=
  if g.category = .variableName then { g with category := .functionName } else g

namespace Scheme

open Lexicon

theorem segment_continued (width : Nat) {line : List Char} {x : Lexeme} (h : InCode x)
    (hlast : x.next? line = none) (line' : List Char) :
    (standard width).segment line' x =
      if x.next? line' = some '(' then ((standard width).segment line x).called
      else (standard width).segment line x := by
  have hcategory := categoryOf_continued h hlast line' rfl h.flag
  unfold segment Segment.called
  change Segment.mk _ (Lexicon.standard.categoryOf line' x) _ = _
  rw [hcategory]
  by_cases hnext : x.next? line' = some '('
  · by_cases hvariable : Lexicon.standard.categoryOf line x = .variableName <;>
      simp [hnext, hvariable, standard]
  · simp [hnext, standard]

/-- Segments of the first text before a separator. -/
theorem map_segment_left (width : Nat) {a s b : List Char} (h : Separates a s b)
    (ha : ¬ ['/', '/'] <:+: a) :
    (ofLine a).map ((standard width).segment (a ++ (s ++ b))) =
      if s = ['('] then ((standard width).segments a).modifyLast Segment.called
      else (standard width).segments a := by
  unfold segments
  rcases List.eq_nil_or_concat' (ofLine a) with hnil | ⟨before, x, hsplit⟩
  · rw [hnil]
    split <;> rfl
  · obtain ⟨hlast, hnext⟩ := next?_last h ha hsplit
    have hbefore : before.map ((standard width).segment (a ++ (s ++ b))) =
        before.map ((standard width).segment a) := by
      apply List.map_congr_left
      intro y hy
      have hmem : y ∈ (ofLine a).dropLast := by rwa [hsplit, List.dropLast_concat]
      exact (standard width).segment_congr rfl rfl (next?_append hmem)
    have hmem : x ∈ ofLine a := by simp [hsplit]
    have hflag : x.isComment = false := by
      rw [ofLine_of_closed ha] at hmem
      exact isComment_placed 0 (cut a).runs x hmem
    have hcontinued := segment_continued width (inCode_of_mem hmem hflag) hlast (a ++ (s ++ b))
    rw [hnext] at hcontinued
    simp only [h.head?_iff] at hcontinued
    rw [hsplit, List.map_append, List.map_append, List.map_singleton, List.map_singleton, hbefore,
      hcontinued]
    split
    · rw [List.modifyLast_concat]
    · rfl

/-- Two texts around a separator have the segments that they have alone, but a variable before an
opening bracket is called. -/
theorem segments_separated (width : Nat) {a s b : List Char} (ha : ¬ ['/', '/'] <:+: a)
    (h : Separates a s b) :
    (standard width).segments (a ++ s ++ b) =
      (if s = ['('] then ((standard width).segments a).modifyLast Segment.called
        else (standard width).segments a) ++
      ⟨s, separatorCategory s, (standard width).widthOf s⟩ :: (standard width).segments b := by
  have hseparator : (standard width).segment (a ++ (s ++ b)) ⟨s, byteLength a, false⟩ =
      ⟨s, separatorCategory s, (standard width).widthOf s⟩ := by
    rw [← categoryOf_separator h (a ++ (s ++ b)) (byteLength a)]
    rfl
  rw [List.append_assoc, segments_join _ h ha, map_segment_left width h ha, hseparator]

/-- A variable that is called, and a comment after the bracket. -/
theorem segments_separated_call :
    (¬ ['/', '/'] <:+: ['a', ' ', 'f'] ∧ Separates ['a', ' ', 'f'] ['('] ['/', '/']) ∧
    (Scheme.standard 8).segments ['a', ' ', 'f', '(', '/', '/'] =
      [⟨['a'], .variableName, 8⟩, ⟨[' '], .space, 8⟩, ⟨['f'], .functionName, 8⟩,
        ⟨['('], .bracket, 8⟩, ⟨['/', '/'], .comment, 16⟩] := by
  have hclosed : ¬ ['/', '/'] <:+: ['a', ' ', 'f'] := by decide
  have hseparates : Separates ['a', ' ', 'f'] ['('] ['/', '/'] := .inl ⟨'(', by decide, rfl⟩
  exact ⟨⟨hclosed, hseparates⟩, (segments_separated 8 hclosed hseparates).trans (by decide)⟩

end Scheme

end Ribbon
