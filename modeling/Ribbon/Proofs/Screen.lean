import Ribbon.Stroke

/-!
# Screens

What a terminal shows for the characters that are sent to it: rows of cells, each in the style that
was selected when its character came. `Shows` and `ShowsRows` say what a drawing adds to a screen;
both hold of a drawing as soon as they hold of its parts.
-/

namespace Ribbon

open Text

structure Style where
  foreground : Option Rgb
  background : Option Rgb
  dim : Bool
  deriving DecidableEq, Repr

structure Cell where
  char : Char
  style : Style
  deriving DecidableEq, Repr

namespace Style

def plain : Style := ⟨none, none, false⟩

def rgb (r g b : Nat) : Rgb := ⟨UInt8.ofNat r, UInt8.ofNat g, UInt8.ofNat b⟩

/-- The style after the numbers of a control sequence, read from the left. Unknown numbers are
passed over. -/
def select (s : Style) : List Nat → Style
  | [] => s
  | 38 :: 2 :: r :: g :: b :: rest => select { s with foreground := some (rgb r g b) } rest
  | 48 :: 2 :: r :: g :: b :: rest => select { s with background := some (rgb r g b) } rest
  | 0 :: rest => select plain rest
  | 2 :: rest => select { s with dim := true } rest
  | 22 :: rest => select { s with dim := false } rest
  | _ :: rest => select s rest

end Style

namespace Cell

def bare (c : Char) : Cell := ⟨c, .plain⟩

def faint (c : Char) : Cell := ⟨c, { Style.plain with dim := true }⟩

def inked (color : Rgb) (c : Char) : Cell := ⟨c, { Style.plain with foreground := some color }⟩

/-- An empty cell on a color; a transparent one leaves no background. -/
def blank (color : Color) : Cell := ⟨' ', { Style.plain with background := color.rgb? }⟩

end Cell

/-! ## The screen after each character -/

/-- How far a control sequence has come. -/
inductive Mode
  | text
  | escape
  /-- The numbers before the last semicolon, and the digits after it so far. -/
  | numbers (before : List Nat) (current : Nat)
  deriving DecidableEq, Repr

structure Screen where
  /-- The rows that have ended. -/
  rows : List (List Cell)
  row : List Cell
  style : Style
  mode : Mode
  deriving DecidableEq, Repr

namespace Screen

/-- One more character. A control sequence selects a style if an `m` ends it, and does nothing
otherwise; a line feed ends the row; any other character fills a cell. -/
def put (s : Screen) (c : Char) : Screen :=
  match s.mode with
  | .text =>
    if c = '\x1b' then { s with mode := .escape }
    else if c = '\n' then { s with rows := s.rows ++ [s.row], row := [] }
    else { s with row := s.row ++ [⟨c, s.style⟩] }
  | .escape => { s with mode := if c = '[' then .numbers [] 0 else .text }
  | .numbers before current =>
    if c.isDigit then { s with mode := .numbers before (10 * current + (c.toNat - '0'.toNat)) }
    else if c = ';' then { s with mode := .numbers (before ++ [current]) 0 }
    else if c = 'm' then { s with style := s.style.select (before ++ [current]), mode := .text }
    else { s with mode := .text }

def read (s : Screen) (text : List Char) : Screen := text.foldl put s

/-- A screen between two drawings: no style is selected. -/
def ready (rows : List (List Cell)) (row : List Cell) : Screen := ⟨rows, row, .plain, .text⟩

def empty : Screen := ready [] []

variable (s : Screen) (rows : List (List Cell)) (row : List Cell) (style : Style)

theorem read_append (a b : List Char) : s.read (a ++ b) = (s.read a).read b :=
  List.foldl_append

/-! ## Texts and control sequences -/

/-- Characters that fill cells. -/
def Visible (text : List Char) : Prop := ∀ c ∈ text, c ≠ '\x1b' ∧ c ≠ '\n'

instance (text : List Char) : Decidable (Visible text) := List.decidableBAll _ text

theorem visible_blanks (n : Nat) : Visible (List.replicate n ' ') := by
  intro c hc
  rw [List.eq_of_mem_replicate hc]
  decide

theorem visible_padLeft (size : Nat) {t : List Char} (h : Visible t) : Visible (padLeft size t) :=
  List.forall_mem_append.mpr ⟨visible_blanks _, h⟩

theorem read_text {text : List Char} (h : Visible text) :
    (Screen.mk rows row style .text).read text =
      ⟨rows, row ++ text.map fun c => ⟨c, style⟩, style, .text⟩ := by
  induction text generalizing row with
  | nil => simp [read]
  | cons c r ih =>
    obtain ⟨hc, hr⟩ := List.forall_mem_cons.mp h
    have hput : (Screen.mk rows row style .text).put c =
        ⟨rows, row ++ [⟨c, style⟩], style, .text⟩ := by
      simp [put, hc.1, hc.2]
    rw [read, List.foldl_cons, hput]
    exact (ih _ hr).trans (by simp)

theorem read_digits (before : List Nat) (current : Nat) {digits : List Char}
    (h : ∀ c ∈ digits, c.isDigit = true) :
    (Screen.mk rows row style (.numbers before current)).read digits =
      ⟨rows, row, style, .numbers before (Nat.ofDigitChars 10 digits current)⟩ := by
  induction digits generalizing current with
  | nil => rfl
  | cons c r ih =>
    obtain ⟨hc, hr⟩ := List.forall_mem_cons.mp h
    have hput : (Screen.mk rows row style (.numbers before current)).put c =
        ⟨rows, row, style, .numbers before (10 * current + (c.toNat - '0'.toNat))⟩ := by
      simp [put, hc]
    rw [read, List.foldl_cons, hput, Nat.ofDigitChars_cons]
    exact ih _ hr

theorem visible_numeral (n : Nat) : Visible (numeral n) := by
  intro c hc
  have hdigit := isDigit_of_mem_numeral hc
  constructor
  · rintro rfl
    exact absurd hdigit (by decide)
  · rintro rfl
    exact absurd hdigit (by decide)

theorem read_numeral (before : List Nat) (n : Nat) :
    (Screen.mk rows row style (.numbers before 0)).read (numeral n) =
      ⟨rows, row, style, .numbers before n⟩ := by
  rw [read_digits _ _ _ _ _ fun c hc => isDigit_of_mem_numeral hc, numeral,
    Nat.ofDigitChars_ten_toDigits]

theorem read_numbers (before ns : List Nat) (n : Nat) :
    (Screen.mk rows row style (.numbers before 0)).read
        ([';'].intercalate ((n :: ns).map numeral) ++ ['m']) =
      ⟨rows, row, style.select (before ++ n :: ns), .text⟩ := by
  induction ns generalizing before n with
  | nil =>
    rw [read_append, List.map_singleton, List.intercalate_singleton, read_numeral]
    rfl
  | cons m ns ih =>
    -- The semicolon ends the first number, which joins those read before it.
    have hsemicolon : (Screen.mk rows row style (.numbers before n)).read [';'] =
        ⟨rows, row, style, .numbers (before ++ [n]) 0⟩ := rfl
    rw [List.map_cons, List.map_cons, List.intercalate_cons_cons, List.append_assoc,
      List.append_assoc, read_append, read_append, read_numeral, hsemicolon]
    simpa using ih (before ++ [n]) m

theorem read_select (n : Nat) (ns : List Nat) :
    (Screen.mk rows row style .text).read (Stroke.select (n :: ns)) =
      ⟨rows, row, style.select (n :: ns), .text⟩ := by
  unfold Stroke.select
  rw [List.append_assoc, read_append]
  exact read_numbers rows row style [] ns n

example : (empty.read ['\x1b', '[', '2', 'm', '7', '\x1b', '[', '0', 'm', '\n']).rows =
    [[.faint '7']] := by
  decide

theorem rgb_channels (c : Rgb) : Style.rgb c.red.toNat c.green.toNat c.blue.toNat = c := by
  simp [Style.rgb]

end Screen

/-! ## What a drawing adds to a screen -/

open Screen Stroke

/-- A drawing that goes on in the row and leaves no style behind. -/
def Shows (drawing : List Stroke) (cells : List Cell) : Prop :=
  ∀ rows row, (ready rows row).read (encodeAll drawing) = ready rows (row ++ cells)

/-- A drawing of whole rows. -/
def ShowsRows (drawing : List Stroke) (shown : List (List Cell)) : Prop :=
  ∀ rows, (ready rows []).read (encodeAll drawing) = ready (rows ++ shown) []

theorem shows_nil : Shows [] [] := by
  intro rows row
  rw [List.append_nil]
  rfl

theorem Shows.append {a b : List Stroke} {x y : List Cell} (ha : Shows a x) (hb : Shows b y) :
    Shows (a ++ b) (x ++ y) := by
  intro rows row
  rw [encodeAll_append, read_append, ha, hb, List.append_assoc]

theorem shows_text {t : List Char} (h : Visible t) : Shows [.text t] (t.map .bare) := by
  intro rows row
  have hcode : encodeAll [.text t] = t := List.append_nil t
  rw [hcode, ready, read_text _ _ _ h]
  rfl

/-- A text between two control sequences, of which the second undoes the first. -/
theorem shows_styled {on off : Stroke} {n m : Nat} {ns ms : List Nat} {style : Style}
    (hon : on.encode = Stroke.select (n :: ns)) (hstyle : Style.plain.select (n :: ns) = style)
    (hoff : off.encode = Stroke.select (m :: ms)) (hplain : style.select (m :: ms) = .plain)
    {t : List Char} (h : Visible t) : Shows [on, .text t, off] (t.map fun c => ⟨c, style⟩) := by
  intro rows row
  have hcode : encodeAll [on, .text t, off] =
      Stroke.select (n :: ns) ++ (t ++ Stroke.select (m :: ms)) := by
    rw [← hon, ← hoff]
    simp [encodeAll, encode]
  rw [hcode, ready, read_append, read_append, read_select, hstyle, read_text _ _ _ h, read_select,
    hplain]
  rfl

theorem encode_plain : Stroke.plain.encode = Stroke.select [0] := rfl

theorem shows_dimmed {t : List Char} (h : Visible t) : Shows (dimmed t) (t.map .faint) := by
  have hdim : Stroke.dim.encode = Stroke.select [2] := rfl
  have hundim : Stroke.undim.encode = Stroke.select [22] := rfl
  exact shows_styled hdim rfl hundim rfl h

theorem shows_colored (c : Rgb) {t : List Char} (h : Visible t) :
    Shows (colored c t) (t.map (.inked c)) := by
  have hcode : (Stroke.foreground c).encode = Stroke.select (38 :: 2 :: channels c) := rfl
  have hstyle : Style.plain.select (38 :: 2 :: channels c) =
      { Style.plain with foreground := some c } := by
    simp [channels, Style.select, rgb_channels]
  exact shows_styled hcode hstyle encode_plain rfl h

theorem shows_block (c : Rgb) {t : List Char} (h : Visible t) :
    Shows [.background c, .text t, .plain]
      (t.map fun d => ⟨d, { Style.plain with background := some c }⟩) := by
  have hcode : (Stroke.background c).encode = Stroke.select (48 :: 2 :: channels c) := rfl
  have hstyle : Style.plain.select (48 :: 2 :: channels c) =
      { Style.plain with background := some c } := by
    simp [channels, Style.select, rgb_channels]
  exact shows_styled hcode hstyle encode_plain rfl h

theorem shows_fill (c : Color) (n : Nat) : Shows (fill c n) (List.replicate n (.blank c)) := by
  cases c with
  | transparent =>
    have h := shows_text (visible_blanks n)
    rw [List.map_replicate] at h
    exact h
  | solid c =>
    have h := shows_block c (visible_blanks n)
    rw [List.map_replicate] at h
    exact h

theorem showsRows_nil : ShowsRows [] [] := by
  intro rows
  rw [List.append_nil]
  rfl

theorem ShowsRows.append {a b : List Stroke} {x y : List (List Cell)} (ha : ShowsRows a x)
    (hb : ShowsRows b y) : ShowsRows (a ++ b) (x ++ y) := by
  intro rows
  rw [encodeAll_append, read_append, ha, hb, List.append_assoc]

theorem Shows.endRow {a : List Stroke} {x : List Cell} (h : Shows a x) :
    ShowsRows (a ++ Stroke.newRow) [x] := by
  intro rows
  have hbreak (row : List Cell) :
      (ready rows row).read (encodeAll Stroke.newRow) = ready (rows ++ [row]) [] := rfl
  rw [encodeAll_append, read_append, h, hbreak, List.nil_append]

theorem showsRows_flatMap {α : Type} {draw : α → List Stroke} {row : α → List Cell} (xs : List α)
    (h : ∀ x ∈ xs, ShowsRows (draw x) [row x]) : ShowsRows (xs.flatMap draw) (xs.map row) := by
  induction xs with
  | nil => exact showsRows_nil
  | cons x xs ih =>
    obtain ⟨hx, hxs⟩ := List.forall_mem_cons.mp h
    exact hx.append (ih hxs)

end Ribbon
