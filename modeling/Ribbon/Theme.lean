import Ribbon.Category
import Ribbon.Color
import Ribbon.Text.Case

/-!
# Themes

The two sets of colors that come with the program.
-/

namespace Ribbon

open Text

inductive Theme
  | dark
  | light
  deriving DecidableEq, Repr

namespace Theme

def read (s : String) : Except Fault Theme :=
  let t := trim s.toList
  if spells t "dark".toList then .ok dark
  else if spells t "light".toList then .ok light
  else .error (.value "theme" s)

/-- The color of a category. The themes differ only for operators and unclaimed text. -/
def color (t : Theme) : Category → Color
  | .keyword => .solid ⟨0xFF, 0x6B, 0x6B⟩
  | .className => .solid ⟨0x4E, 0xCD, 0xC4⟩
  | .functionName => .solid ⟨0x45, 0xB7, 0xD1⟩
  | .variableName => .solid ⟨0x96, 0xCE, 0xB4⟩
  | .operator =>
    match t with
    | dark => .solid ⟨0xFF, 0xD9, 0x3D⟩
    | light => .solid ⟨0xFF, 0xD7, 0x00⟩
  | .string => .solid ⟨0xFF, 0x8C, 0x42⟩
  | .number => .solid ⟨0x6A, 0x05, 0x72⟩
  | .boolean => .solid ⟨0xFF, 0x40, 0x81⟩
  | .comment => .solid ⟨0x78, 0x90, 0x9C⟩
  | .importing => .solid ⟨0x26, 0xA6, 0x9A⟩
  | .decorator => .solid ⟨0xBA, 0x68, 0xC8⟩
  | .punctuation => .solid ⟨0xB0, 0xBE, 0xC5⟩
  | .bracket => .solid ⟨0x00, 0xBC, 0xD4⟩
  | .property => .solid ⟨0x8B, 0xC3, 0x4A⟩
  | .space => .transparent
  | .other =>
    match t with
    | dark => .solid ⟨0xE0, 0xE0, 0xE0⟩
    | light => .solid ⟨0x42, 0x42, 0x42⟩

end Theme

end Ribbon
