import Mathlib.Data.List.Forall2
import Ribbon.Proofs.Timeline

/-!
# Rules of any kind

Rules have a say in categories and in nothing else. Lines, texts and widths are the same under all
rules, and so is the comment of a line. Rules that are added at the end decide where no rule before
them holds.
-/

namespace Ribbon

open Text Lexeme

/-- A test may be any function of the line and the lexeme. -/
instance : Tests (List Char → Lexeme → Bool) := ⟨fun line x test => test line x⟩

/-- The rule with its test as a function. Rules of several kinds can stand in one lexicon so. -/
def Rule.byFunction {τ : Type} [Tests τ] (r : Rule τ) : Rule (List Char → Lexeme → Bool) where
  name := r.name
  test := r.holds
  category := r.category

/-- What a strip tells, its categories aside. -/
def Strip.outline (s : Strip) : Nat × List (List Char × Nat) :=
  (s.number, s.segments.map fun g => (g.text, g.width))

namespace Lexicon

variable {τ : Type} [Tests τ] {rules more : Lexicon τ} {line : List Char} {x : Lexeme}

theorem categoryOf_byFunction (rules : Lexicon τ) (line : List Char) (x : Lexeme) :
    categoryOf (rules.map Rule.byFunction) line x = rules.categoryOf line x := by
  unfold categoryOf find?
  rw [List.find?_map, Option.map_map]
  rfl

/-! ## The first rule that holds -/

/-- The category of a lexeme of the code: that of the first rule to hold, or none in particular. -/
inductive Decides (rules : Lexicon τ) (line : List Char) (x : Lexeme) : Category → Prop
  | first {before after : Lexicon τ} {r : Rule τ} (hrules : rules = before ++ r :: after)
    (hbefore : ∀ q ∈ before, q.holds line x = false) (hholds : r.holds line x = true) :
    Decides rules line x r.category
  | none (hnone : ∀ r ∈ rules, r.holds line x = false) : Decides rules line x .other

theorem decides_categoryOf (hx : x.isComment = false) :
    Decides rules line x (categoryOf rules line x) := by
  unfold categoryOf find?
  rw [hx]
  cases hfind : List.find? (fun r => r.holds line x) rules with
  | none =>
    have hnone := List.find?_eq_none.mp hfind
    exact .none fun r hr => Bool.eq_false_iff.mpr (hnone r hr)
  | some r =>
    obtain ⟨hholds, before, after, hrules, hbefore⟩ := List.find?_eq_some_iff_append.mp hfind
    exact .first hrules (fun q hq => by simpa using hbefore q hq) hholds

/-! ## Rules added at the end -/

theorem categoryOf_append_of_holds (h : ∃ r ∈ rules, r.holds line x = true) :
    categoryOf (rules ++ more) line x = rules.categoryOf line x := by
  obtain ⟨r, hr⟩ := Option.isSome_iff_exists.mp (List.find?_isSome.mpr h)
  unfold categoryOf
  rw [find?_append, find?, hr, Option.some_or]

theorem categoryOf_append_of_open (h : ∀ r ∈ rules, r.holds line x = false) :
    categoryOf (rules ++ more) line x = more.categoryOf line x := by
  have hnone : rules.find? line x = none :=
    List.find?_eq_none.mpr fun r hr => Bool.eq_false_iff.mp (h r hr)
  unfold categoryOf
  rw [find?_append, hnone, Option.none_or]

/-- The segment of a lexeme before and after rules are added. -/
structure Added (rules more : Lexicon τ) (line : List Char) (x : Lexeme) (gs : Segment × Segment) :
    Prop where
  text : gs.1.text = x.text ∧ gs.2.text = x.text
  comment : x.isComment = true → gs.1.category = .comment ∧ gs.2.category = .comment
  decided : x.isComment = false → Decides rules line x gs.1.category
  kept : x.isComment = false → (∃ r ∈ rules, r.holds line x = true) →
    gs.2.category = gs.1.category
  claimed : x.isComment = false → (∀ r ∈ rules, r.holds line x = false) →
    Decides more line x gs.2.category

theorem added_segment (rules more : Lexicon τ) (width : Nat) (line : List Char) (x : Lexeme) :
    Added rules more line x
      ((Scheme.mk rules width).segment line x,
        (Scheme.mk (rules ++ more) width).segment line x) where
  text := ⟨rfl, rfl⟩
  comment hx := ⟨categoryOf_comment rules hx, categoryOf_comment (rules ++ more) hx⟩
  decided hx := decides_categoryOf hx
  kept _ h := categoryOf_append_of_holds h
  claimed hx h := by
    have hmore : Decides more line x (more.categoryOf line x) := decides_categoryOf hx
    rwa [← categoryOf_append_of_open h] at hmore

end Lexicon

/-! ## Strips under rules -/

namespace Scheme

open Lexicon

variable {τ : Type} [Tests τ]

theorem strips_byFunction (k : Scheme τ) (text : List Char) :
    (Scheme.mk (k.lexicon.map Rule.byFunction) k.charWidth).strips text = k.strips text := by
  rw [strips_eq, strips_eq]
  refine List.map_congr_left fun p _ => congrArg (Strip.mk p.2) ?_
  refine List.map_congr_left fun x _ => ?_
  rw [segment, categoryOf_byFunction]
  rfl

theorem map_outline_strips (k : Scheme τ) (text : List Char) :
    (k.strips text).map Strip.outline = (filled (lines text)).map fun p =>
      (p.2, (ofLine p.1).map fun x => (x.text, Word.saturate (x.text.length * k.charWidth))) := by
  rw [strips_eq, List.map_map]
  refine List.map_congr_left fun p _ => ?_
  simp [Strip.outline, segments, segment, widthOf]

theorem segments_of_comment (k : Scheme τ) {text code comment : List Char} {s : Strip}
    (hs : s ∈ k.strips text) (hcut : CommentAt s.text code comment) (hne : comment ≠ []) :
    ∃ gs, s.segments = gs ++ [⟨comment, .comment, Word.saturate (comment.length * k.charWidth)⟩] ∧
      (gs.map (·.text)).flatten = code := by
  obtain ⟨rfl, rfl⟩ := CommentAt.iff_eq_cutComment.mp hcut
  have hcomment : ofComment (cutComment s.text).1 (cutComment s.text).2 =
      [⟨(cutComment s.text).2, byteLength (cutComment s.text).1, true⟩] := by
    simp [ofComment, hne]
  refine ⟨(ofCode (cutComment s.text).1).map (k.segment s.text), ?_, ?_⟩
  · rw [segments_of_mem_strips k hs, segments, ofLine_eq, hcomment, List.map_append]
    rfl
  · rw [List.map_map]
    exact spelled_ofCode _

/-- Strips that rules of any kind give to a text differ in their categories alone, and not in those
of comments. Rules added at the end leave what is decided and decide the rest among themselves. A
test may be any function, and nothing changes where it is replaced by one. -/
theorem strips_added {υ : Type} [Tests υ] (rules more : Lexicon τ) (others : Lexicon υ)
    (width : Nat) (text : List Char) :
    (∀ {σ : Type} [Tests σ] (k : Scheme σ), k.strips text =
      (Scheme.mk (k.lexicon.map Rule.byFunction) k.charWidth).strips text) ∧
    ((Scheme.mk rules width).strips text).map Strip.outline =
      ((Scheme.mk others width).strips text).map Strip.outline ∧
    (∀ s ∈ (Scheme.mk rules width).strips text, ∀ code comment,
      CommentAt s.text code comment → comment ≠ [] →
      ∃ gs, s.segments = gs ++ [⟨comment, .comment, Word.saturate (comment.length * width)⟩] ∧
        (gs.map (·.text)).flatten = code) ∧
    ∀ ss ∈ ((Scheme.mk rules width).strips text).zip
        ((Scheme.mk (rules ++ more) width).strips text),
      List.Forall₂ (Added rules more ss.1.text) (ofLine ss.1.text)
        (ss.1.segments.zip ss.2.segments) := by
  refine ⟨fun k => (strips_byFunction k text).symm, ?_, ?_, ?_⟩
  · rw [map_outline_strips, map_outline_strips]
  · exact fun s hs code comment hcut hne => segments_of_comment _ hs hcut hne
  · intro ss hss
    rw [strips_eq, strips_eq, List.zip_map'] at hss
    obtain ⟨p, -, rfl⟩ := List.mem_map.mp hss
    rw [text_strip, segments, segments, List.zip_map', List.forall₂_map_right_iff,
      List.forall₂_same]
    exact fun x _ => added_segment rules more width p.1 x

/-- Texts of two characters are made properties, by a rule after the standard ones: that decides `$a`,
but neither the keyword nor the comment, and no line changes its place. -/
theorem strips_added_pairs :
    List.Forall₂
        (Added (Lexicon.standard.map Rule.byFunction)
          [⟨"pair", fun _ x => x.text.length == 2, .property⟩] ['i', 'f', ' ', '$', 'a', '/', '/'])
        (ofLine ['i', 'f', ' ', '$', 'a', '/', '/'])
        [(⟨['i', 'f'], .keyword, 2⟩, ⟨['i', 'f'], .keyword, 2⟩),
          (⟨[' '], .space, 1⟩, ⟨[' '], .space, 1⟩),
          (⟨['$', 'a'], .other, 2⟩, ⟨['$', 'a'], .property, 2⟩),
          (⟨['/', '/'], .comment, 2⟩, ⟨['/', '/'], .comment, 2⟩)] ∧
      ∃ gs, [(⟨['i', 'f'], .keyword, 2⟩ : Segment), ⟨[' '], .space, 1⟩, ⟨['$', 'a'], .other, 2⟩,
          ⟨['/', '/'], .comment, 2⟩] = gs ++ [⟨['/', '/'], .comment, 2⟩] ∧
        (gs.map (·.text)).flatten = ['i', 'f', ' ', '$', 'a'] := by
  obtain ⟨-, -, hcomment, hadded⟩ := strips_added (Lexicon.standard.map Rule.byFunction)
    [⟨"pair", fun _ x => x.text.length == 2, .property⟩] Lexicon.standard 1
    ['\n', 'i', 'f', ' ', '$', 'a', '/', '/']
  constructor
  · exact hadded (⟨2, [⟨['i', 'f'], .keyword, 2⟩, ⟨[' '], .space, 1⟩, ⟨['$', 'a'], .other, 2⟩,
      ⟨['/', '/'], .comment, 2⟩]⟩, ⟨2, [⟨['i', 'f'], .keyword, 2⟩, ⟨[' '], .space, 1⟩,
      ⟨['$', 'a'], .property, 2⟩, ⟨['/', '/'], .comment, 2⟩]⟩) (by decide)
  · exact hcomment ⟨2, [⟨['i', 'f'], .keyword, 2⟩, ⟨[' '], .space, 1⟩, ⟨['$', 'a'], .other, 2⟩,
      ⟨['/', '/'], .comment, 2⟩]⟩ (by decide) ['i', 'f', ' ', '$', 'a'] ['/', '/']
      (CommentAt.iff_eq_cutComment.mpr ⟨by decide, by decide⟩) (by decide)

end Scheme

end Ribbon
