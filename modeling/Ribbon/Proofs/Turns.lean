import Ribbon.Proofs.Seams

/-!
# Plain texts and separators in turn

A line is divided into plain texts and separators that take turns, and the comment that may end it.
`Divided` says when a list of lexemes does that; there is one such list for each line, and it is the
one that `allOfLine` delivers.
-/

namespace Ribbon.Lexeme

open Text

/-! ## A code text has one cut -/

theorem cut_plain_append {p : List Char} (hp : ∀ c ∈ p, isPlain c = true) (r : List Char) :
    cut (p ++ r) = ⟨p ++ (cut r).first, (cut r).rest⟩ := by
  induction p with
  | nil => rfl
  | cons c p ih =>
    obtain ⟨hc, hp⟩ := List.forall_mem_cons.mp hp
    have hadd : cut (c :: (p ++ r)) = (cut (p ++ r)).add c := rfl
    obtain ⟨hmark, hblank⟩ : isMark c = false ∧ isBlank c = false := by simpa [isPlain] using hc
    rw [List.cons_append, hadd, ih hp, Cut.add, hmark, hblank]
    rfl

theorem cut_mark_append {c : Char} (hc : c ∈ marks) (r : List Char) :
    cut (c :: r) = (cut r).separate [c] :=
  if_pos ((isMark_iff c).mpr hc)

/-- A blank in front of anything else is a separator of its own. -/
theorem addBlank_eq {k : Cut} (hk : ∀ b ∈ k.texts.flatten.head?, isBlank b = false) (c : Char) :
    k.addBlank c = k.separate [c] := by
  unfold Cut.addBlank
  split
  · rename_i b s p rest
    have hb : isBlank b = false := hk b rfl
    rw [hb]
    rfl
  · rfl

theorem cut_cons_blank {c : Char} (hc : isBlank c = true) (r : List Char) :
    cut (c :: r) = (cut r).addBlank c := by
  have hmark : isMark c = false := by
    by_contra h
    rw [Bool.not_eq_false, isMark_iff] at h
    rw [isBlank_of_mark h] at hc
    cases hc
  have hadd : cut (c :: r) = (cut r).add c := rfl
  rw [hadd, Cut.add, hmark, hc]
  rfl

theorem cut_blank_append {s r : List Char} (hs : BlankRun s)
    (hr : ∀ c ∈ r.head?, isBlank c = false) : cut (s ++ r) = (cut r).separate s := by
  obtain ⟨hne, hs⟩ := hs
  induction s with
  | nil => exact absurd rfl hne
  | cons c s ih =>
    obtain ⟨hc, hs⟩ := List.forall_mem_cons.mp hs
    rw [List.cons_append, cut_cons_blank hc]
    cases s with
    | nil =>
      rw [List.nil_append, addBlank_eq (by rwa [flatten_cut])]
    | cons d s =>
      -- The blanks after it are there already, and it joins them.
      rw [ih (List.cons_ne_nil d s) hs]
      exact if_pos (hs d List.mem_cons_self)

/-- What follows blanks begins with something else. -/
theorem not_blank_next {p s q : List Char} {rest : List (List Char × List Char)}
    (hk : Proper ⟨p, (s, q) :: rest⟩) (hs : BlankRun s) :
    ∀ c ∈ (Cut.mk q rest).texts.flatten.head?, isBlank c = false := by
  have hflat : (Cut.mk q rest).runs.flatten = (Cut.mk q rest).texts.flatten :=
    List.flatten_filter_not_isEmpty
  rw [← hflat]
  cases hruns : (Cut.mk q rest).runs with
  | nil => simp
  | cons t ts =>
    have ht : Run t := run_of_mem_runs hk.tail (hruns ▸ List.mem_cons_self)
    have hapart : Apart s t := apart_next hk t (by rw [hruns]; rfl)
    intro c hc
    rw [List.flatten_cons, List.head?_append_of_ne_nil _ ht.ne_nil] at hc
    have hmem := List.mem_of_mem_head? hc
    rcases ht with hblank | ⟨m, hm, rfl⟩ | hplain
    · exact absurd ⟨hs, hblank⟩ hapart.1
    · rw [List.mem_singleton.mp hmem]
      exact isBlank_of_mark hm
    · exact ((isPlain_iff c).mp (hplain.2 c hmem)).2

theorem cut_separator_append {p s q : List Char} {rest : List (List Char × List Char)}
    (hk : Proper ⟨p, (s, q) :: rest⟩) :
    cut (s ++ (Cut.mk q rest).texts.flatten) = (cut (Cut.mk q rest).texts.flatten).separate s := by
  rcases hk.separator (s, q) List.mem_cons_self with hblank | ⟨c, hc, hs⟩
  · exact cut_blank_append hblank (not_blank_next hk hblank)
  · obtain rfl : s = [c] := hs
    exact cut_mark_append hc _

theorem Cut.flatten_texts_nil (p : List Char) : (Cut.mk p []).texts.flatten = p := by
  simp [Cut.texts]

theorem Cut.flatten_texts_cons (p s q : List Char) (rest : List (List Char × List Char)) :
    (Cut.mk p ((s, q) :: rest)).texts.flatten = p ++ (s ++ (Cut.mk q rest).texts.flatten) := by
  simp [Cut.texts]

theorem cut_flatten (p : List Char) (rest : List (List Char × List Char)) (hk : Proper ⟨p, rest⟩) :
    cut (Cut.mk p rest).texts.flatten = ⟨p, rest⟩ := by
  induction rest generalizing p with
  | nil =>
    have hplain : cut (p ++ []) = ⟨p ++ [], []⟩ := cut_plain_append hk.first []
    rw [List.append_nil] at hplain
    rw [Cut.flatten_texts_nil, hplain]
  | cons sq rest ih =>
    obtain ⟨s, q⟩ := sq
    rw [Cut.flatten_texts_cons, cut_plain_append hk.first, cut_separator_append hk, ih q hk.tail,
      Cut.separate, List.append_nil]

theorem eq_cut_of_proper {k : Cut} (hk : Proper k) {code : List Char}
    (hcode : k.texts.flatten = code) : k = cut code := by
  rw [← hcode, cut_flatten k.first k.rest hk]

/-! ## Places -/

/-- Lying side by side, said of each lexeme by what comes before it. -/
theorem tiles_iff (n : Nat) (xs : List Lexeme) :
    Tiles n xs ↔
      ∀ before x after, xs = before ++ x :: after → x.offset = n + byteLength (spelled before) := by
  constructor
  · rintro h before x after rfl
    exact ((tiles_append n before (x :: after)).mp h).2.1
  · intro h
    induction xs generalizing n with
    | nil => exact trivial
    | cons y ys ih =>
      have hy : y.offset = n := h [] y ys rfl
      refine ⟨hy, ih y.stop ?_⟩
      rintro before x after rfl
      rw [h (y :: before) x after rfl, spelled_cons, byteLength_append, stop, hy, Nat.add_assoc]

theorem eq_placed {n : Nat} {xs : List Lexeme} (hplace : Tiles n xs)
    (hflag : ∀ x ∈ xs, x.isComment = false) : xs = placed n (xs.map text) := by
  induction xs generalizing n with
  | nil => rfl
  | cons x xs ih =>
    obtain ⟨rfl, hplace⟩ := hplace
    obtain ⟨hx, hflag⟩ := List.forall_mem_cons.mp hflag
    rw [List.map_cons, placed, ← hx]
    exact congrArg (x :: ·) (ih hplace hflag)

/-! ## Main result -/

/-- A line as plain texts and separators in turn, and its comment after them, if it has one. -/
structure Divided (line : List Char) (pieces comment : List Lexeme) : Prop where
  turns : ∃ k, Proper k ∧ pieces.map text = k.texts
  code : ∀ x ∈ pieces, x.isComment = false
  opened : ['/', '/'] <:+: line →
    ∃ c, comment = [c] ∧ c.isComment = true ∧ ∃ before, CommentAt line before c.text
  closed : ¬ ['/', '/'] <:+: line → comment = []
  whole : spelled (pieces ++ comment) = line
  place : ∀ before x after, pieces ++ comment = before ++ x :: after →
    x.offset = byteLength (spelled before)

theorem divided_allOfLine (line : List Char) :
    Divided line (placed 0 (cut (cutComment line).1).texts)
      (ofComment (cutComment line).1 (cutComment line).2) where
  turns := ⟨_, proper_cut _, map_text_placed 0 _⟩
  code := isComment_placed 0 _
  opened hin := by
    have hne : (cutComment line).2 ≠ [] := fun hnil => (cutComment_at line).eq_nil_iff.mp hnil hin
    exact ⟨⟨(cutComment line).2, byteLength (cutComment line).1, true⟩, by simp [ofComment, hne],
      rfl, _, cutComment_at line⟩
  closed hout := by
    have hnil := (cutComment_at line).eq_nil_iff.mpr hout
    simp [ofComment, hnil]
  whole := by
    rw [← allOfLine_eq]
    exact flatten_allOfLine line
  place := by
    have htiles := (tiles_iff 0 _).mp (tiles_allOfLine line)
    rw [allOfLine_eq] at htiles
    simpa only [Nat.zero_add] using htiles

namespace Divided

variable {line : List Char} {pieces comment : List Lexeme}

theorem tiles (h : Divided line pieces comment) : Tiles 0 (pieces ++ comment) := by
  rw [tiles_iff]
  simpa only [Nat.zero_add] using h.place

theorem spelled_pieces (h : Divided line pieces comment) : spelled pieces = (cutComment line).1 := by
  have hwhole := h.whole
  rw [spelled_append] at hwhole
  by_cases hin : ['/', '/'] <:+: line
  · obtain ⟨c, rfl, -, before, hat⟩ := h.opened hin
    have hboth : spelled pieces ++ c.text = before ++ c.text := by
      rw [hat.whole, ← hwhole]
      simp [spelled]
    rw [List.append_cancel_right hboth, (CommentAt.iff_eq_cutComment.mp hat).1]
  · rw [h.closed hin] at hwhole
    rw [cutComment_of_closed hin, ← hwhole]
    exact (List.append_nil _).symm

theorem pieces_eq (h : Divided line pieces comment) :
    pieces = placed 0 (cut (cutComment line).1).texts := by
  obtain ⟨k, hk, htexts⟩ := h.turns
  have hcode : k.texts.flatten = (cutComment line).1 := by
    rw [← htexts]
    exact h.spelled_pieces
  rw [← eq_cut_of_proper hk hcode, ← htexts]
  exact eq_placed ((tiles_append 0 pieces comment).mp h.tiles).1 h.code

theorem comment_eq (h : Divided line pieces comment) :
    comment = ofComment (cutComment line).1 (cutComment line).2 := by
  by_cases hin : ['/', '/'] <:+: line
  · obtain ⟨c, rfl, hflag, before, hat⟩ := h.opened hin
    have htext := (CommentAt.iff_eq_cutComment.mp hat).2
    have hplace := ((tiles_append 0 pieces [c]).mp h.tiles).2.1
    rw [h.spelled_pieces, Nat.zero_add] at hplace
    have hne : (cutComment line).2 ≠ [] := fun hnil => (cutComment_at line).eq_nil_iff.mp hnil hin
    have hc : c = ⟨(cutComment line).2, byteLength (cutComment line).1, true⟩ := by
      rw [← htext, ← hplace, ← hflag]
    rw [hc]
    simp [ofComment, hne]
  · rw [h.closed hin, cutComment_of_closed hin]
    rfl

end Divided

/-- The pieces of a line are the one way to divide it, and its lexemes are those of them that are
not empty. -/
theorem divided_iff (line : List Char) (xs : List Lexeme) :
    ((∃ pieces comment, xs = pieces ++ comment ∧ Divided line pieces comment) ↔
      xs = allOfLine line) ∧
    ofLine line = (allOfLine line).filter fun x => x.text ≠ [] := by
  refine ⟨⟨?_, ?_⟩, ?_⟩
  · rintro ⟨pieces, comment, rfl, h⟩
    rw [allOfLine_eq, h.pieces_eq, h.comment_eq]
  · rintro rfl
    exact ⟨_, _, allOfLine_eq line, divided_allOfLine line⟩
  · unfold ofLine
    apply List.filter_congr
    intro x _
    cases x.text <;> rfl

end Ribbon.Lexeme
