import Ribbon.Proofs.Picture

/-!
# Layout of a legend

How the entries of a legend are put into rows. There is one layout of given entries in which no
entry is moved to a new row without need and no row is too long without need, and it is the one that
is drawn.
-/

namespace Ribbon.Legend

open Text Screen Stroke

/-! ## Widths of rows -/

theorem width_ne_zero (e : Entry) : Entry.width e ≠ 0 := by
  rw [Entry.width]
  omega

theorem length_cells (e : Entry) : e.cells.length = Entry.width e := by
  simp only [Entry.cells, Entry.width, swatch, List.length_cons, List.length_map, List.length_nil,
    String.length_toList]
  omega

theorem rowCells_cons (e : Entry) (row : List Entry) :
    rowCells (e :: row) = e.cells ++ row.flatMap fun d => gap.map Cell.bare ++ d.cells := by
  induction row generalizing e with
  | nil => simp [rowCells]
  | cons d row ih =>
    have hrest := ih d
    rw [rowCells, List.map_cons] at hrest
    rw [rowCells, List.map_cons, List.map_cons, List.intercalate_cons_cons, hrest,
      List.flatMap_cons]
    simp

theorem length_rowCells_singleton (e : Entry) : (rowCells [e]).length = Entry.width e := by
  rw [rowCells_cons, List.flatMap_nil, List.append_nil, length_cells]

theorem length_rowCells_concat {row : List Entry} (h : row ≠ []) (e : Entry) :
    (rowCells (row ++ [e])).length = (rowCells row).length + gap.length + Entry.width e := by
  obtain ⟨d, row, rfl⟩ := List.exists_cons_of_ne_nil h
  rw [List.cons_append, rowCells_cons, rowCells_cons, List.flatMap_append, List.flatMap_singleton]
  simp only [List.length_append, List.length_map, length_cells]
  omega

theorem length_rowCells_le_append {row : List Entry} (h : row ≠ []) (more : List Entry) :
    (rowCells row).length ≤ (rowCells (row ++ more)).length := by
  obtain ⟨d, row, rfl⟩ := List.exists_cons_of_ne_nil h
  rw [List.cons_append, rowCells_cons, rowCells_cons, List.flatMap_append]
  simp only [List.length_append]
  omega

/-! ## Greedy layouts -/

/-- Rows that hold as much as there is room for. A row that is too long has one entry, and the first
entry of a row had no room in the row before it. -/
structure Greedy (columns : Nat) (layout : List (List Entry)) : Prop where
  filled : ∀ row ∈ layout, row ≠ []
  fits : ∀ row ∈ layout, columns < (rowCells row).length → row.length = 1
  tight : layout.IsChain fun row next =>
    ∀ e ∈ next.head?, columns < (rowCells (row ++ [e])).length

variable {columns used : Nat} {row : List Entry} {layout : List (List Entry)}

theorem Greedy.tail (h : Greedy columns (row :: layout)) : Greedy columns layout where
  filled r hr := h.filled r (List.mem_cons_of_mem _ hr)
  fits r hr := h.fits r (List.mem_cons_of_mem _ hr)
  tight := h.tight.tail

theorem eq_nil_of_flatten (hfilled : ∀ row ∈ layout, row ≠ []) (h : layout.flatten = []) :
    layout = [] := by
  cases layout with
  | nil => rfl
  | cons row layout =>
    rw [List.flatten_cons, List.append_eq_nil_iff] at h
    exact absurd h.1 (hfilled row List.mem_cons_self)

theorem continueRow_of_fits {e : Entry} {es : List Entry}
    (h : used + gap.length + Entry.width e ≤ columns) :
    continueRow columns used (e :: es) =
      (e :: (continueRow columns (used + gap.length + Entry.width e) es).1,
        (continueRow columns (used + gap.length + Entry.width e) es).2) := by
  rw [continueRow, if_pos h]

theorem continueRow_of_full {e : Entry} {es : List Entry}
    (h : ¬ used + gap.length + Entry.width e ≤ columns) :
    continueRow columns used (e :: es) =
      ([], (e :: (continueRow columns (Entry.width e) es).1) ::
        (continueRow columns (Entry.width e) es).2) := by
  rw [continueRow, if_neg h]

/-- A row of which some entries are there is filled up, as long as `used` counts its cells. -/
theorem greedy_continueRow (es : List Entry) (hrow : row ≠ [])
    (hused : used = (rowCells row).length) (hfits : columns < used → row.length = 1) :
    Greedy columns ((row ++ (continueRow columns used es).1) :: (continueRow columns used es).2) := by
  induction es generalizing row used with
  | nil =>
    simp only [continueRow, List.append_nil]
    exact ⟨by simpa using hrow, by simpa [← hused] using hfits, .singleton _⟩
  | cons e es ih =>
    have hnext := length_rowCells_concat hrow e
    rw [← hused] at hnext
    by_cases hroom : used + gap.length + Entry.width e ≤ columns
    · have hne : row ++ [e] ≠ [] := by simp
      have hgreedy := ih hne hnext.symm (by omega)
      rw [continueRow_of_fits hroom]
      rwa [List.append_assoc] at hgreedy
    · have hgreedy := ih (List.cons_ne_nil e []) (length_rowCells_singleton e).symm fun _ => rfl
      rw [continueRow_of_full hroom, List.append_nil]
      exact {
        filled := List.forall_mem_cons.mpr ⟨hrow, hgreedy.filled⟩
        fits := List.forall_mem_cons.mpr ⟨by rwa [← hused], hgreedy.fits⟩
        tight := List.isChain_cons_cons.mpr ⟨by simp; omega, hgreedy.tight⟩ }

/-- Which entries go on in a row is settled by what is there, and so are the rows after it. -/
theorem eq_continueRow (es : List Entry) (hrow : row ≠ []) (hused : used = (rowCells row).length)
    {more : List Entry} (h : Greedy columns ((row ++ more) :: layout))
    (hall : more ++ layout.flatten = es) : (more, layout) = continueRow columns used es := by
  induction es generalizing row used more layout with
  | nil =>
    obtain ⟨rfl, hflatten⟩ := List.append_eq_nil_iff.mp hall
    rw [eq_nil_of_flatten h.tail.filled hflatten, continueRow]
  | cons e es ih =>
    have hnext := length_rowCells_concat hrow e
    rw [← hused] at hnext
    cases more with
    | cons d more =>
      obtain ⟨rfl, hrest⟩ := List.cons.inj hall
      have hsplit : row ++ d :: more = row ++ [d] ++ more := by simp
      have hne : row ++ [d] ≠ [] := by simp
      rw [hsplit] at h
      have hroom : used + gap.length + Entry.width d ≤ columns := by
        have hle := length_rowCells_le_append hne more
        have hlong := h.fits _ List.mem_cons_self
        have hpos := List.length_pos_of_ne_nil hrow
        simp only [List.length_append, List.length_singleton] at hlong
        omega
      rw [continueRow_of_fits hroom, ← ih hne hnext.symm h hrest]
    | nil =>
      rw [List.append_nil] at h
      cases layout with
      | nil => cases hall
      | cons next layout =>
        obtain ⟨d, next, rfl⟩ := List.exists_cons_of_ne_nil (h.tail.filled next List.mem_cons_self)
        obtain ⟨rfl, hrest⟩ := List.cons.inj hall
        have htight := (List.isChain_cons_cons.mp h.tight).1 d rfl
        rw [continueRow_of_full (by omega),
          ← ih (List.cons_ne_nil d []) (length_rowCells_singleton d).symm h.tail hrest]

theorem eq_rows_iff (es : List Entry) :
    layout.flatten = es ∧ Greedy columns layout ↔ layout = rows columns es := by
  constructor
  · rintro ⟨rfl, h⟩
    cases layout with
    | nil => rfl
    | cons row layout =>
      obtain ⟨e, row, rfl⟩ := List.exists_cons_of_ne_nil (h.filled row List.mem_cons_self)
      have hrest := eq_continueRow _ (List.cons_ne_nil e []) (length_rowCells_singleton e).symm h rfl
      rw [List.flatten_cons, List.cons_append, rows, ← hrest]
  · rintro rfl
    refine ⟨flatten_rows columns es, ?_⟩
    cases es with
    | nil => exact ⟨by simp [rows], by simp [rows], .nil⟩
    | cons e es =>
      have hwidth := (length_rowCells_singleton e).symm
      exact greedy_continueRow es (List.cons_ne_nil e []) hwidth fun _ => rfl

/-! ## Entry by entry -/

def entry (palette : Palette) (c : Category) : Entry := (c.label, palette.colorOf c)

/-- A legend drawn category by category, with the cells of the row counted in `used`. How many cells
a text takes is for the terminal to say. -/
def drawEach (width : List Char → Nat) (palette : Palette) (columns used : Nat) :
    List Category → List Stroke
  | [] => newRow
  | c :: rest =>
    let e := entry palette c
    let size := width swatch + 1 + width c.label.toList
    if used = 0 then e.draw ++ drawEach width palette columns size rest
    else if columns < used + 2 + size then
      newRow ++ e.draw ++ drawEach width palette columns size rest
    else .text gap :: e.draw ++ drawEach width palette columns (used + 2 + size) rest

/-- A terminal on which the swatch and letters take one cell each. -/
structure Narrow (width : List Char → Nat) : Prop where
  swatch : width swatch = 1
  letters : ∀ s : List Char, (∀ c ∈ s, c.isAlpha = true) → width s = s.length

theorem label_letters (c : Category) : ∀ d ∈ c.label.toList, d.isAlpha = true := by
  have hall : c.label.toList.all Char.isAlpha = true := by cases c <;> rfl
  exact List.all_eq_true.mp hall

theorem Narrow.width_entry {width : List Char → Nat} (h : Narrow width) (palette : Palette)
    (c : Category) : width Legend.swatch + 1 + width c.label.toList = (entry palette c).width := by
  rw [h.swatch, h.letters _ (label_letters c), String.length_toList]
  rfl

theorem drawEntries_cons (e : Entry) (row : List Entry) :
    drawEntries (e :: row) = e.draw ++ row.flatMap fun d => .text gap :: d.draw := by
  induction row generalizing e with
  | nil => simp [drawEntries]
  | cons d row ih => simp [drawEntries, ih]

theorem drawRow_cons (e : Entry) (row : List Entry) :
    drawRow (e :: row) = e.draw ++ (row.flatMap fun d => .text gap :: d.draw) ++ newRow := by
  rw [drawRow, drawEntries_cons]

variable {width : List Char → Nat} (palette : Palette)

/-- The count of cells is never 0 within a row, so what is drawn is the rest of the row, its end and
the rows after it. -/
theorem drawEach_eq (hwidth : Narrow width) (hused : used ≠ 0) (cs : List Category) :
    drawEach width palette columns used cs =
      ((continueRow columns used (cs.map (entry palette))).1.flatMap fun d => .text gap :: d.draw) ++
        newRow ++ (continueRow columns used (cs.map (entry palette))).2.flatMap drawRow := by
  induction cs generalizing used with
  | nil => simp [drawEach, continueRow]
  | cons c cs ih =>
    have hgap : gap.length = 2 := rfl
    rw [drawEach, if_neg hused, hwidth.width_entry palette c, List.map_cons]
    by_cases hroom : used + gap.length + (entry palette c).width ≤ columns
    · rw [if_neg (by omega), continueRow_of_fits hroom, ih (by omega), hgap]
      simp
    · rw [if_pos (by omega), continueRow_of_full hroom, ih (width_ne_zero _)]
      simp [drawRow_cons]

theorem drawEach_legend (hwidth : Narrow width) (columns : Nat) :
    drawEach width palette columns 0 Category.legend = draw columns palette := by
  obtain ⟨c, cs, hcs⟩ : ∃ c cs, Category.legend = c :: cs := ⟨_, _, rfl⟩
  have hlegend : palette.legend = entry palette c :: cs.map (entry palette) := by
    rw [Palette.legend, hcs]
    rfl
  rw [hcs, drawEach, if_pos rfl, hwidth.width_entry palette c,
    drawEach_eq palette hwidth (width_ne_zero _), draw, hlegend, rows, List.flatMap_cons,
    drawRow_cons]
  simp

/-- A legend is drawn as its one greedy layout, a row for each of the layout. Drawing it category by
category, with the cells of the row counted, comes to the same. -/
theorem legend_greedy (hwidth : Narrow width) (n : Nat) :
    drawEach width palette (Ribbon.columns n) 0 Category.legend = draw (Ribbon.columns n) palette ∧
    ∃ layout, Screen.empty.read (encodeAll (draw (Ribbon.columns n) palette)) =
        ⟨layout.map rowCells, [], .plain, .text⟩ ∧
      (layout.flatten = palette.legend ∧ Greedy (max 1 n) layout) ∧
      ∀ other, other.flatten = palette.legend → Greedy (max 1 n) other → other = layout := by
  refine ⟨drawEach_legend palette hwidth _, rows (max 1 n) palette.legend, ?_, ?_, ?_⟩
  · exact showsRows_draw (Ribbon.columns n) palette []
  · exact (eq_rows_iff palette.legend).mpr rfl
  · exact fun other hflatten hgreedy => (eq_rows_iff palette.legend).mp ⟨hflatten, hgreedy⟩

/-- The first row has no cell to spare. The second one has room for eight more, two fewer than the
gap and the next entry take. -/
theorem legend_greedy_thirty :
    drawEach List.length (.ofTheme .dark) (Ribbon.columns 30) 0 Category.legend =
        draw (Ribbon.columns 30) (.ofTheme .dark) ∧
      Screen.empty.read (encodeAll (draw (Ribbon.columns 30) (.ofTheme .dark))) =
        ⟨[[.keyword, .className, .functionName], [.variableName, .operator],
            [.string, .number, .boolean], [.comment, .importing], [.decorator, .punctuation],
            [.bracket, .property]].map fun row => rowCells (row.map (entry (.ofTheme .dark))),
          [], .plain, .text⟩ := by
  have hnarrow : Narrow List.length := ⟨rfl, fun _ _ => rfl⟩
  obtain ⟨hdraw, layout, hshown, -, hunique⟩ := legend_greedy (.ofTheme .dark) hnarrow 30
  refine ⟨hdraw, ?_⟩
  have hlayout := hunique
    ([[.keyword, .className, .functionName], [.variableName, .operator], [.string, .number, .boolean],
      [.comment, .importing], [.decorator, .punctuation], [.bracket, .property]].map
        fun row => row.map (entry (.ofTheme .dark)))
    (by decide) ⟨by decide, by decide, by decide⟩
  rw [hshown, ← hlayout, List.map_map]
  rfl

end Ribbon.Legend
