import Ribbon.Fault
import Ribbon.Text.Blank
import Ribbon.Text.Hex

/-!
# Colors

A color is drawn or transparent. It is written `#RRGGBB`, `#RGB` or `transparent`. Main statement:
a color is read back from what is shown for it.
-/

namespace Ribbon

open Text

structure Rgb where
  red : UInt8
  green : UInt8
  blue : UInt8
  deriving DecidableEq, Repr

inductive Color
  | transparent
  | solid (rgb : Rgb)
  deriving DecidableEq, Repr

namespace Color

def rgb? : Color → Option Rgb
  | transparent => none
  | solid c => some c

def fallback : Color :=
  solid ⟨0xFF, 0x00, 0xFF⟩

/-! ## Writing -/

def channelDigits (v : UInt8) : List Char :=
  [hexDigit (v.toNat / 16), hexDigit (v.toNat % 16)]

def shown : Color → String
  | transparent => "transparent"
  | solid ⟨r, g, b⟩ =>
    String.ofList ('#' :: (channelDigits r ++ channelDigits g ++ channelDigits b))

/-! ## Reading -/

def channel (high low : Nat) : UInt8 :=
  UInt8.ofNat (16 * high + low)

/-- The color of six digits, or of three digits that each count twice. -/
def ofDigits? : List Nat → Option Color
  | [a, b, c, d, e, f] => some (solid ⟨channel a b, channel c d, channel e f⟩)
  | [a, b, c] => some (solid ⟨channel a a, channel b b, channel c c⟩)
  | _ => none

def ofHash? : List Char → Option Color
  | '#' :: digits => digits.mapM hexValue? >>= ofDigits?
  | _ => none

def ofTrimmed? (s : List Char) : Option Color :=
  if s.map Char.toLower = "transparent".toList then some transparent else ofHash? s

def read (s : String) : Except Fault Color :=
  let t := trim s.toList
  match ofTrimmed? t with
  | some c => .ok c
  | none => .error (.color (String.ofList t))

theorem read_eq_ok {s : String} {c : Color} :
    read s = .ok c ↔ ofTrimmed? (trim s.toList) = some c := by
  simp only [read]
  split <;> simp [*]

theorem read_eq_error {s : String} {e : Fault} :
    read s = .error e ↔
      (∀ v, read s ≠ .ok v) ∧ e = .color (String.ofList (trim s.toList)) := by
  simp only [read]
  split <;> simp [eq_comm]

/-! ## A shown color is read back -/

theorem channel_digits (v : UInt8) : channel (v.toNat / 16) (v.toNat % 16) = v := by
  rw [channel, Nat.div_add_mod, UInt8.ofNat_toNat]

theorem ofTrimmed?_shown (c : Color) : ofTrimmed? c.shown.toList = some c := by
  cases c with
  | transparent => simp [ofTrimmed?, shown]
  | solid c =>
    have digit (v : UInt8) : hexValue? (hexDigit (v.toNat / 16)) = some (v.toNat / 16) :=
      hexValue?_hexDigit (by have := v.toNat_lt; omega)
    have digit' (v : UInt8) : hexValue? (hexDigit (v.toNat % 16)) = some (v.toNat % 16) :=
      hexValue?_hexDigit (by omega)
    simp [ofTrimmed?, ofHash?, shown, channelDigits, digit, digit', ofDigits?, channel_digits,
      show Char.toLower '#' = '#' from rfl]

end Color

end Ribbon
