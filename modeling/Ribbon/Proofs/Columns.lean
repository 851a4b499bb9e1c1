import Mathlib.Data.List.Forall2
import Ribbon.Proofs.Picture
import Ribbon.Proofs.Timeline

/-!
# Columns

How wide the rows of a chart are, and which characters of a text their cells stand for. The rows of
a text are as wide as the terminal at most, unless the margin alone is wider; and where a character
is as wide as a number of cells, the columns of a row follow the characters of its line.
-/

namespace Ribbon

open Text Screen

namespace Chart

variable (k : Chart)

/-! ## The rows of the strips -/

/-- What a terminal shows for the strips of a chart, a row for each, above the legend. -/
def shown (columns : Nat) (strips : List Strip) : List (List Cell) :=
  (Screen.empty.read (Stroke.encodeAll (k.draw columns strips))).rows.take strips.length

theorem shown_eq (columns : Nat) (strips : List Strip) :
    k.shown columns strips = strips.map (k.rowOf columns (k.margin strips)) := by
  have hread := k.showsRows_draw columns strips []
  have hlength : (strips.map (k.rowOf columns (k.margin strips))).length = strips.length :=
    List.length_map _
  rw [shown, Screen.empty, hread, ready, List.nil_append, picture, ← hlength, List.take_left]

theorem length_tag (margin : Nat) (s : Strip) :
    (k.tag margin s).length =
      if k.lineNumbers then max (margin - 1) (numeral s.number).length + 1 else 0 := by
  unfold tag
  split
  · rw [List.length_map, List.length_append, length_padLeft, List.length_singleton]
  · rfl

theorem number_le_last {strips : List Strip} (h : (strips.map (·.number)).Pairwise (· < ·))
    {s last : Strip} (hs : s ∈ strips) (hlast : strips.getLast? = some last) :
    s.number ≤ last.number := by
  obtain ⟨before, rfl⟩ := List.getLast?_eq_some_iff.mp hlast
  rw [List.map_append, List.pairwise_append] at h
  rcases List.mem_append.mp hs with hs | hs
  · have hlt := h.2.2 s.number (List.mem_map_of_mem hs) last.number (by simp)
    omega
  · rw [List.mem_singleton.mp hs]

/-- Where numbers increase, the margin has room for each of them. -/
theorem length_tag_margin {strips : List Strip} (h : (strips.map (·.number)).Pairwise (· < ·))
    {s : Strip} (hs : s ∈ strips) : (k.tag (k.margin strips) s).length = k.margin strips := by
  have hlast := List.getLast?_eq_some_getLast (List.ne_nil_of_mem hs)
  have hdigits := Nat.le_length_digits_le 10 _ _ (number_le_last h hs hlast)
  rw [length_tag, length_numeral, margin, hlast, Option.map_some, Option.getD_some]
  split
  · omega
  · rfl

theorem length_rowOf {columns : Nat} {strips : List Strip}
    (h : (strips.map (·.number)).Pairwise (· < ·)) {s : Strip} (hs : s ∈ strips) :
    (k.rowOf columns (k.margin strips) s).length =
      max (k.margin strips) (min columns (k.margin strips + (s.segments.flatMap k.band).length)) := by
  rw [rowOf, List.length_append, length_tag_margin k h hs, List.length_take]
  omega

/-! ## Clipping -/

/-- Each row fits a terminal that reports `n` columns. -/
def Clipped (n : Nat) (strips : List Strip) : Prop :=
  ∀ row ∈ k.shown (columns n) strips, row.length ≤ columns n

theorem length_shown (columns : Nat) {strips : List Strip}
    (h : (strips.map (·.number)).Pairwise (· < ·)) :
    ∀ row ∈ k.shown columns strips,
      k.margin strips ≤ row.length ∧ row.length ≤ max (k.margin strips) columns := by
  rw [shown_eq]
  intro row hrow
  obtain ⟨s, hs, rfl⟩ := List.mem_map.mp hrow
  rw [length_rowOf k h hs]
  omega

/-- The rows of a text fit the terminal exactly when the margin does; a wider margin is what they
exceed it by. -/
theorem clipped_iff {τ : Type} [Tests τ] (scheme : Scheme τ) (n : Nat) (text : List Char) :
    (k.Clipped n (scheme.strips text) ↔
      scheme.strips text = [] ∨ k.margin (scheme.strips text) ≤ columns n) ∧
    ∀ row ∈ k.shown (columns n) (scheme.strips text),
      row.length ≤ max (k.margin (scheme.strips text)) (columns n) := by
  have hlength := k.length_shown (columns n) (scheme.numbers_increase text)
  refine ⟨⟨?_, ?_⟩, fun row hrow => (hlength row hrow).2⟩
  · intro hclipped
    cases hstrips : scheme.strips text with
    | nil => exact Or.inl rfl
    | cons s rest =>
      rw [← hstrips]
      have hrow : k.rowOf (columns n) (k.margin (scheme.strips text)) s ∈
          k.shown (columns n) (scheme.strips text) := by
        rw [shown_eq]
        exact List.mem_map_of_mem (hstrips ▸ List.mem_cons_self)
      exact Or.inr (Nat.le_trans (hlength _ hrow).1 (hclipped _ hrow))
  · rintro (hnil | hmargin) row hrow
    · rw [shown_eq, hnil, List.map_nil] at hrow
      cases hrow
    · have := (hlength row hrow).2
      omega

/-- Three columns are too few for the number of the first line and the space after it. -/
theorem not_clipped_three_columns :
    ¬ Clipped ⟨Palette.ofTheme .dark, 8, true, false⟩ 3 ((Scheme.standard 8).strips ['a']) := by
  unfold Clipped
  rw [shown_eq]
  decide

/-! ## Columns and characters -/

/-- The segment that holds the `i`-th character of what the segments spell, counted from 0. -/
def Covers (gs : List Segment) (i : Nat) (g : Segment) : Prop :=
  ∃ before after, gs = before ++ g :: after ∧
    (before.map (·.text)).flatten.length ≤ i ∧
    i < (before.map (·.text)).flatten.length + g.text.length

theorem Covers.cons {gs : List Segment} {i : Nat} {g d : Segment} (h : Covers gs i g) :
    Covers (d :: gs) (d.text.length + i) g := by
  obtain ⟨before, after, rfl, hle, hlt⟩ := h
  refine ⟨d :: before, after, rfl, ?_, ?_⟩
  · rw [List.map_cons, List.flatten_cons, List.length_append]
    omega
  · rw [List.map_cons, List.flatten_cons, List.length_append]
    omega

/-- Segments drawn with `m` cells for each character. -/
def stretch (m : Nat) (cell : Segment → Cell) (gs : List Segment) : List Cell :=
  gs.flatMap fun g => List.replicate (m * g.text.length) (cell g)

theorem length_stretch (m : Nat) (cell : Segment → Cell) (gs : List Segment) :
    (stretch m cell gs).length = m * (gs.map (·.text)).flatten.length := by
  induction gs with
  | nil => rfl
  | cons g gs ih =>
    rw [stretch, List.flatMap_cons, List.length_append, List.length_replicate, List.map_cons,
      List.flatten_cons, List.length_append, Nat.mul_add, ← ih, stretch]

/-- A cell has the look of the segment that its character is in. -/
theorem getElem?_stretch {m : Nat} (hm : 0 < m) (cell : Segment → Cell) (gs : List Segment)
    (j : Nat) (h : j < (stretch m cell gs).length) :
    ∃ g, Covers gs (j / m) g ∧ (stretch m cell gs)[j]? = some (cell g) := by
  induction gs generalizing j with
  | nil => simp [stretch] at h
  | cons g gs ih =>
    have hcons : stretch m cell (g :: gs) =
        List.replicate (m * g.text.length) (cell g) ++ stretch m cell gs := rfl
    rw [hcons] at h ⊢
    by_cases hj : j < m * g.text.length
    · refine ⟨g, ⟨[], gs, rfl, Nat.zero_le _, ?_⟩, ?_⟩
      · simpa using Nat.div_lt_of_lt_mul hj
      · rw [List.getElem?_append_left (by simpa using hj), List.getElem?_replicate, if_pos hj]
    · -- The cell is past those of `g`: it is one of the cells of the segments after it.
      have hrest : j - m * g.text.length < (stretch m cell gs).length := by
        rw [List.length_append, List.length_replicate] at h
        omega
      obtain ⟨d, hd, hcell⟩ := ih _ hrest
      refine ⟨d, ?_, ?_⟩
      · have hplace : j / m = g.text.length + (j - m * g.text.length) / m := by
          rw [Nat.add_comm, ← Nat.add_mul_div_left _ _ hm, Nat.sub_add_cancel (by omega)]
        rw [hplace]
        exact hd.cons
      · rw [List.getElem?_append_right (by simpa using hj), List.length_replicate]
        exact hcell

/-- A row as an image of the line that it is drawn for, with `m` cells for each character. -/
structure Mirrors (columns margin m : Nat) (gs : List Segment) (line : List Char) (number : Nat)
    (row : List Cell) : Prop where
  width : row.length = max margin (min columns (margin + m * line.length))
  /-- The margin shows the whole number of the line, blanks before it and a space after it. -/
  number : k.lineNumbers = true → ∃ pad, margin = pad + (numeral number).length + 1 ∧
    row.take margin = (List.replicate pad ' ' ++ numeral number ++ [' ']).map .faint
  cell : ∀ j, margin + j < row.length → ∃ g, Covers gs (j / m) g ∧
    row[margin + j]? = some (.blank (k.palette.colorOf g.category))

variable {τ : Type} [Tests τ]

/-- Where the width of the whole line is no word too great, no segment is cut short. -/
theorem width_of_segment {scheme : Scheme τ} {line : List Char}
    (hline : line.length * scheme.charWidth ≤ Word.last) {g : Segment}
    (hg : g ∈ scheme.segments line) : g.width = g.text.length * scheme.charWidth := by
  obtain ⟨x, hx, rfl⟩ := scheme.exists_lexeme_of_mem_segments hg
  have hsub : x.text.Sublist line := by
    rw [← Lexeme.flatten_ofLine line]
    exact List.sublist_flatten_of_mem (List.mem_map_of_mem hx)
  have hle : x.text.length * scheme.charWidth ≤ line.length * scheme.charWidth :=
    Nat.mul_le_mul_right _ hsub.length_le
  exact Word.saturate_of_le (Nat.le_trans hle hline)

/-- A character takes `m` cells where the width of a character is that of `m` cells. -/
theorem band_of_segment {scheme : Scheme τ} {line : List Char}
    (hline : line.length * scheme.charWidth ≤ Word.last) {m : Nat} (hm : 0 < m)
    (hcell : 0 < k.cellWidth) (hratio : scheme.charWidth = m * k.cellWidth) {g : Segment}
    (hg : g ∈ scheme.segments line) :
    k.band g = List.replicate (m * g.text.length) (.blank (k.palette.colorOf g.category)) := by
  have hpos : 0 < g.text.length := by
    obtain ⟨x, hx, rfl⟩ := scheme.exists_lexeme_of_mem_segments hg
    exact List.length_pos_of_ne_nil (Lexeme.text_ne_nil hx)
  have hwidth : g.width = k.cellWidth * (m * g.text.length) := by
    rw [width_of_segment hline hg, hratio]
    ring
  have hquotient : (k.cellWidth * (m * g.text.length)) ⌈/⌉ k.cellWidth = m * g.text.length :=
    smul_ceilDiv hcell _
  have hcells : 0 < m * g.text.length := Nat.mul_pos hm hpos
  rw [band, Nat.max_eq_right hcell, hwidth, hquotient, Nat.max_eq_right hcells]

theorem mirrors_rowOf {scheme : Scheme τ} {line : List Char}
    (hline : line.length * scheme.charWidth ≤ Word.last) {m : Nat} (hm : 0 < m)
    (hcell : 0 < k.cellWidth) (hratio : scheme.charWidth = m * k.cellWidth)
    {strips : List Strip} (hnumbers : (strips.map (·.number)).Pairwise (· < ·)) {number : Nat}
    (hs : ⟨number, scheme.segments line⟩ ∈ strips) (columns : Nat) :
    k.Mirrors columns (k.margin strips) m (scheme.segments line) line number
      (k.rowOf columns (k.margin strips) ⟨number, scheme.segments line⟩) := by
  have htag := k.length_tag_margin hnumbers hs
  have hbands : (scheme.segments line).flatMap k.band =
      stretch m (fun g => .blank (k.palette.colorOf g.category)) (scheme.segments line) :=
    List.flatMap_congr fun g hg => k.band_of_segment hline hm hcell hratio hg
  constructor
  · -- The segments spell the line, so that their cells are `m` for each character of it.
    rw [length_rowOf k hnumbers hs, hbands, length_stretch, scheme.flatten_segments]
  · intro hshow
    have hroom : max (k.margin strips - 1) (numeral number).length + 1 = k.margin strips := by
      rwa [length_tag, if_pos hshow] at htag
    refine ⟨k.margin strips - 1 - (numeral number).length, by omega, ?_⟩
    rw [rowOf, List.take_left' htag, tag, if_pos hshow, padLeft]
  · intro j hj
    rw [rowOf, hbands, List.length_append, htag, List.length_take] at hj
    obtain ⟨g, hg, hlook⟩ := getElem?_stretch hm (fun g => .blank (k.palette.colorOf g.category))
      (scheme.segments line) j (by omega)
    refine ⟨g, hg, ?_⟩
    rw [rowOf, hbands, List.getElem?_append_right (by omega), htag, Nat.add_sub_cancel_left,
      List.getElem?_take_of_lt (by omega), hlook]

theorem shown_strips (columns : Nat) (scheme : Scheme τ) (text : List Char) :
    k.shown columns (scheme.strips text) =
      (Scheme.filled (Scheme.pieces text)).map fun p =>
        k.rowOf columns (k.margin (scheme.strips text)) ⟨p.2, scheme.segments p.1⟩ := by
  rw [shown_eq]
  generalize k.margin (scheme.strips text) = margin
  rw [Scheme.strips_eq, Scheme.lines_eq_pieces, List.map_map]
  rfl

/-- Where a character is as wide as `m` cells, the rows are images of the lines that are not empty,
all behind the same margin. -/
theorem rows_mirror_source (n m charWidth : Nat) (text : List Char)
    (hchar : 1 ≤ charWidth ∧ charWidth ≤ 64) (hcell : 1 ≤ k.cellWidth ∧ k.cellWidth ≤ 64)
    (hratio : charWidth = m * k.cellWidth)
    (hshort : ∀ line ∈ Scheme.pieces text, line.length < 2 ^ 58) :
    ∃ margin, (k.lineNumbers = false → margin = 0) ∧
      List.Forall₂
        (fun (line, number) row =>
          k.Mirrors (columns n) margin m ((Scheme.standard charWidth).segments line) line number row)
        (Scheme.filled (Scheme.pieces text))
        (k.shown (columns n) ((Scheme.standard charWidth).strips text)) := by
  have hm : 0 < m := by
    rcases Nat.eq_zero_or_pos m with rfl | hm
    · omega
    · exact hm
  refine ⟨k.margin ((Scheme.standard charWidth).strips text), ?_, ?_⟩
  · intro hhide
    rw [margin, hhide]
    rfl
  · rw [shown_strips, List.forall₂_map_right_iff, List.forall₂_same]
    rintro ⟨line, number⟩ hline
    have hs : (⟨number, (Scheme.standard charWidth).segments line⟩ : Strip) ∈
        (Scheme.standard charWidth).strips text := by
      rw [Scheme.strips_eq, Scheme.lines_eq_pieces]
      exact List.mem_map_of_mem hline
    have hwidth : line.length * charWidth ≤ Word.last := by
      have hlt := hshort line (List.mem_of_getElem? (Scheme.mem_filled.mp hline).1.2)
      calc line.length * charWidth ≤ (2 ^ 58 - 1) * 64 := Nat.mul_le_mul (by omega) hchar.2
        _ ≤ Word.last := by decide
    exact k.mirrors_rowOf hwidth hm hcell.1 hratio (Scheme.numbers_increase _ text) hs (columns n)

theorem rows_mirror_source_two_cells :
    let k : Chart := ⟨Palette.ofTheme .dark, 4, true, false⟩
    let text := ['a', '\n', '\n', 'f', '(', 'x', ')']
    (1 ≤ 8 ∧ 8 ≤ 64) ∧ (1 ≤ k.cellWidth ∧ k.cellWidth ≤ 64) ∧ 8 = 2 * k.cellWidth ∧
      (∀ line ∈ Scheme.pieces text, line.length < 2 ^ 58) ∧
      Scheme.filled (Scheme.pieces text) = [(['a'], 1), (['f', '(', 'x', ')'], 3)] ∧
      ∃ margin, (k.lineNumbers = false → margin = 0) ∧
        List.Forall₂
          (fun (line, number) row =>
            k.Mirrors (columns 9) margin 2 ((Scheme.standard 8).segments line) line number row)
          (Scheme.filled (Scheme.pieces text))
          (k.shown (columns 9) ((Scheme.standard 8).strips text)) :=
  ⟨by decide, by decide, by decide, by decide, by decide,
    rows_mirror_source ⟨Palette.ofTheme .dark, 4, true, false⟩ 9 2 8 _ (by decide) (by decide)
      (by decide) (by decide)⟩

end Chart

end Ribbon
