import Ribbon.Chart
import Ribbon.Toml.Document

/-!
# Settings

What a settings file can say, and what holds without one. Each setting depends on one key of the
file; keys without a meaning are told of and change nothing.
-/

namespace Ribbon

open Text Toml

structure Settings where
  theme : Theme
  charWidth : Nat
  cellWidth : Nat
  legend : Bool
  lineNumbers : Bool
  /-- Colors that replace the theme's, by the names of the categories. -/
  overrides : List (String × String)
  deriving DecidableEq, Repr

namespace Settings

def standard : Settings where
  theme := .dark
  charWidth := Scheme.defaultWidth
  cellWidth := Scheme.defaultWidth
  legend := true
  lineNumbers := true
  overrides := []

/-! ## Values of settings -/

/-- Widths in settings are from 1 to 64; others count as the nearest of these. -/
def clampWidth (n : Nat) : Nat :=
  min 64 (max 1 n)

theorem clampWidth_bounds (n : Nat) : 1 ≤ clampWidth n ∧ clampWidth n ≤ 64 := by
  simp only [clampWidth]
  omega

/-- A text that says yes or no. -/
def truth? (s : String) : Option Bool :=
  let t := trim s.toList
  if ["true", "yes", "on", "1"].any fun w => spells t w.toList then some true
  else if ["false", "no", "off", "0"].any fun w => spells t w.toList then some false
  else none

def refused (key : String) (v : Value) : Fault :=
  .value key v.shown

def readString (key : String) (v : Value) : Except Fault String :=
  match v.string? with
  | some s => .ok s
  | none => .error (refused key v)

def readTheme (v : Value) : Except Fault Theme := do
  Theme.read (← readString "theme" v)

/-- A width may be any integer. -/
def readWidth (key : String) (v : Value) : Except Fault Nat :=
  match v.integer? with
  | some n => .ok (clampWidth n.toNat)
  | none => .error (refused key v)

/-- A switch is a truth value or a text that says yes or no. -/
def readSwitch (key : String) : Value → Except Fault Bool
  | .scalar (.boolean b) => .ok b
  | .scalar (.string s) =>
    match truth? s with
    | some b => .ok b
    | none => .error (refused key (.scalar (.string s)))
  | v => .error (refused key v)

/-- The overrides of a palette table. Whether they name categories and colors is not asked here. -/
def readOverrides : Table → Except Fault (List (String × String))
  | [] => .ok []
  | (name, v) :: rest => do
    let color ← readString ("palette." ++ name) v
    return (name, color) :: (← readOverrides rest)

def readPalette (v : Value) : Except Fault (List (String × String)) :=
  match v.table? with
  | some t => readOverrides t
  | none => .error (refused "palette" v)

/-! ## Tables of settings -/

def knownKeys : List String :=
  ["theme", "char-width", "cell-width", "legend", "line-numbers", "palette"]

def setting {α : Type} (t : Table) (key : String) (absent : α) (read : Value → Except Fault α) :
    Except Fault α :=
  match t.get? key with
  | none => .ok absent
  | some v => read v

/-- The settings of a table without what there is to tell. The keys are looked at in this order. -/
def values (t : Table) : Except Fault Settings := do
  let theme ← setting t "theme" standard.theme readTheme
  let charWidth ← setting t "char-width" standard.charWidth (readWidth "char-width")
  let cellWidth ← setting t "cell-width" standard.cellWidth (readWidth "cell-width")
  let legend ← setting t "legend" standard.legend (readSwitch "legend")
  let lineNumbers ← setting t "line-numbers" standard.lineNumbers (readSwitch "line-numbers")
  let overrides ← setting t "palette" standard.overrides readPalette
  return { theme, charWidth, cellWidth, legend, lineNumbers, overrides }

def warnings (t : Table) : List Warning :=
  (t.filter fun e => !knownKeys.contains e.1).map fun e => .unknownKey e.1

def ofTable (t : Table) : Except Fault (Settings × List Warning) := do
  return (← values t, warnings t)

/-! ## Settings files -/

/-- The settings of a text. What is said of a text that is no table is left to `explain`. -/
def read (explain : String → String) (s : String) : Except Fault (Settings × List Warning) :=
  match Table.read? s.toList with
  | none => .error (.settings (explain s))
  | some t => ofTable t

def palette (s : Settings) : Except Fault Palette :=
  (Palette.ofTheme s.theme).override? s.overrides

def chart (s : Settings) (palette : Palette) : Chart where
  palette := palette
  cellWidth := s.cellWidth
  lineNumbers := s.lineNumbers
  legend := s.legend

end Settings

end Ribbon
