import Mathlib.Algebra.Order.Floor.Div
import Mathlib.Data.Nat.Digits.Lemmas
import Ribbon.Chart
import Ribbon.Proofs.Screen

/-!
# Pictures

What a chart looks like on a screen, cell by cell, and that this is what its drawing shows.
-/

namespace Ribbon

open Text Screen Stroke

theorem length_numeral_le_iff {n m : Nat} (hm : 0 < m) :
    (numeral n).length ≤ m ↔ (Nat.digits 10 n).length ≤ m := by
  rw [numeral, Nat.length_toDigits_le_iff (by decide) hm, Nat.digits_length_le_iff (by decide)]

theorem length_numeral (n : Nat) : (numeral n).length = max 1 (Nat.digits 10 n).length := by
  have hpos : 0 < (numeral n).length := List.length_pos_of_ne_nil (numeral_ne_nil n)
  apply Nat.le_antisymm
  · exact (length_numeral_le_iff (by omega)).mpr (Nat.le_max_right _ _)
  · exact Nat.max_le.mpr ⟨hpos, (length_numeral_le_iff hpos).mp (Nat.le_refl _)⟩

/-! ## Legends -/

namespace Legend

/-- The cell that stands for a color. A transparent color has an empty one. -/
def signCell (color : Color) : Cell :=
  match color.rgb? with
  | some c => .inked c '■'
  | none => .bare ' '

def Entry.cells (e : Entry) : List Cell :=
  signCell e.2 :: (' ' :: e.1.toList).map .bare

def rowCells (row : List Entry) : List Cell :=
  (gap.map Cell.bare).intercalate (row.map Entry.cells)

def picture (columns : Nat) (palette : Palette) : List (List Cell) :=
  (rows columns palette.legend).map rowCells

theorem visible_label (c : Category) : Visible (' ' :: c.label.toList) := by
  cases c <;> decide

theorem shows_sign (color : Color) :
    Shows (match color.rgb? with
      | some c => colored c swatch
      | none => [.text [' ']]) [signCell color] := by
  cases color with
  | transparent =>
    have hblank : Visible [' '] := by decide
    exact shows_text hblank
  | solid c =>
    have hswatch : Visible swatch := by decide
    exact shows_colored c hswatch

theorem shows_entry {e : Entry} (h : Visible (' ' :: e.1.toList)) : Shows e.draw e.cells :=
  (shows_sign e.2).append (shows_text h)

theorem shows_entries {row : List Entry} (h : ∀ e ∈ row, Visible (' ' :: e.1.toList)) :
    Shows (drawEntries row) (rowCells row) := by
  fun_induction drawEntries row with
  | case1 => exact shows_nil
  | case2 e => simpa [rowCells] using shows_entry (h e List.mem_cons_self)
  | case3 e rest hrest ih =>
    obtain ⟨he, hes⟩ := List.forall_mem_cons.mp h
    have hgap : Visible gap := by decide
    obtain ⟨d, ds, rfl⟩ := List.exists_cons_of_ne_nil hrest
    have hcells : rowCells (e :: d :: ds) = e.cells ++ gap.map .bare ++ rowCells (d :: ds) := by
      simp [rowCells, List.intercalate_cons_cons]
    rw [hcells]
    exact ((shows_entry he).append (shows_text hgap)).append (ih hes)

theorem showsRows_draw (columns : Nat) (palette : Palette) :
    ShowsRows (draw columns palette) (picture columns palette) := by
  apply showsRows_flatMap
  intro row hrow
  apply Shows.endRow
  apply shows_entries
  intro e he
  have hmem : e ∈ palette.legend := by
    rw [← flatten_rows columns palette.legend]
    exact List.mem_flatten_of_mem hrow he
  obtain ⟨c, -, rfl⟩ := List.mem_map.mp hmem
  exact visible_label c

end Legend

/-! ## Charts -/

namespace Chart

variable (k : Chart)

/-- The columns in front of the rows: they have room for the number of the last strip, or three
digits if that has fewer, and for a space. -/
def margin (strips : List Strip) : Nat :=
  let last := (strips.getLast?.map (·.number)).getD 1
  if k.lineNumbers then max 3 (Nat.digits 10 last).length + 1 else 0

/-- The number of a strip, flush right in the margin up to the space. -/
def tag (margin : Nat) (s : Strip) : List Cell :=
  if k.lineNumbers then (padLeft (margin - 1) (numeral s.number) ++ [' ']).map .faint else []

/-- A segment in the color of its category: as many cells as it takes to cover its width, and one
at least. -/
def band (g : Segment) : List Cell :=
  List.replicate (max 1 (g.width ⌈/⌉ max 1 k.cellWidth)) (.blank (k.palette.colorOf g.category))

/-- The tag of a strip, and as much of its bands as there is room for. -/
def rowOf (columns margin : Nat) (s : Strip) : List Cell :=
  k.tag margin s ++ (s.segments.flatMap k.band).take (columns - margin)

def picture (columns : Nat) (strips : List Strip) : List (List Cell) :=
  let legend := (if strips = [] then [] else [[]]) ++ Legend.picture columns k.palette
  strips.map (k.rowOf columns (k.margin strips)) ++ if k.legend then legend else []

theorem gutter_eq_margin (strips : List Strip) : k.gutter strips = k.margin strips := by
  unfold gutter margin
  simp only [length_numeral]
  split <;> omega

theorem cells_eq (width : Nat) : k.cells width = max 1 (width ⌈/⌉ max 1 k.cellWidth) := by
  rw [cells, Nat.ceilDiv_eq_add_pred_div, Nat.add_sub_assoc (by omega)]

theorem shows_tag (strips : List Strip) (s : Strip) :
    Shows (drawNumber (k.margin strips) s.number) (k.tag (k.margin strips) s) := by
  unfold drawNumber tag margin
  by_cases h : k.lineNumbers = true
  · have hspace : Visible [' '] := visible_blanks 1
    have htext : Visible (padLeft (k.margin strips - 1) (numeral s.number) ++ [' ']) :=
      List.forall_mem_append.mpr ⟨visible_padLeft _ (visible_numeral _), hspace⟩
    simpa [h, margin] using shows_dimmed htext
  · simpa [h] using shows_nil

/-- What a band takes of the room is what the bands after it have lost. -/
theorem shows_drawBlocks (room : Nat) (gs : List Segment) :
    Shows (k.drawBlocks room gs) ((gs.flatMap k.band).take room) := by
  induction gs generalizing room with
  | nil =>
    rw [List.flatMap_nil, List.take_nil]
    exact shows_nil
  | cons g gs ih =>
    rw [drawBlocks, cells_eq]
    split
    · rename_i h
      rw [h]
      exact shows_nil
    · rw [List.flatMap_cons, List.take_append, band, List.take_replicate, List.length_replicate]
      generalize max 1 (g.width ⌈/⌉ max 1 k.cellWidth) = w
      have hleft : room - w = room - min w room := by omega
      rw [Nat.min_comm room, hleft]
      exact (shows_fill _ _).append (ih _)

theorem showsRows_strips (columns : Nat) (strips : List Strip) :
    ShowsRows (strips.flatMap (k.drawRow columns (k.gutter strips)))
      (strips.map (k.rowOf columns (k.margin strips))) := by
  rw [gutter_eq_margin]
  apply showsRows_flatMap
  intro s _
  exact ((k.shows_tag strips s).append (k.shows_drawBlocks _ s.segments)).endRow

theorem showsRows_space (strips : List Strip) :
    ShowsRows (if strips.isEmpty then [] else Stroke.newRow) (if strips = [] then [] else [[]]) := by
  cases strips with
  | nil => exact showsRows_nil
  | cons s strips => exact shows_nil.endRow

theorem showsRows_draw (columns : Nat) (strips : List Strip) :
    ShowsRows (k.draw columns strips) (k.picture columns strips) := by
  unfold draw picture
  apply (k.showsRows_strips columns strips).append
  split
  · exact (showsRows_space strips).append (Legend.showsRows_draw columns k.palette)
  · exact showsRows_nil

/-- The characters of a drawn chart are read as its picture, with the terminal left as it was found,
and the legend alone is read as the last rows of it. -/
theorem screen_of_draw (n : Nat) (strips : List Strip) :
    Screen.empty.read (encodeAll (k.draw (columns n) strips)) =
        ⟨k.picture (max 1 n) strips, [], .plain, .text⟩ ∧
      Screen.empty.read (encodeAll (Legend.draw (columns n) k.palette)) =
        ⟨Legend.picture (max 1 n) k.palette, [], .plain, .text⟩ := by
  -- An empty screen has no rows, so those that a drawing adds are all there are.
  constructor
  · exact k.showsRows_draw (columns n) strips []
  · exact Legend.showsRows_draw (columns n) k.palette []

example : picture ⟨Palette.ofTheme .dark, 8, true, false⟩ 6 [⟨12, [⟨['i', 'f'], .keyword, 16⟩,
    ⟨[' '], .space, 8⟩]⟩] =
      [[.faint ' ', .faint '1', .faint '2', .faint ' ', .blank (.solid ⟨0xFF, 0x6B, 0x6B⟩),
        .blank (.solid ⟨0xFF, 0x6B, 0x6B⟩)]] := by
  decide

end Chart

end Ribbon
