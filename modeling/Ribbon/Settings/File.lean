import Ribbon.Settings

/-!
# Files

Files are read as a whole and must hold text. The settings file lies in the home directory; without
one the standard settings hold.
-/

namespace Ribbon

/-- A text file, read as a whole. -/
def textOf (bytes : ByteArray) : Except Fault String :=
  match String.fromUTF8? bytes with
  | some s => .ok s
  | none => .error (.reading .notText)

theorem fromUTF8?_eq_some {bytes : ByteArray} {s : String} :
    String.fromUTF8? bytes = some s ↔ bytes = s.toByteArray := by
  unfold String.fromUTF8?
  split
  · rw [Option.some.injEq, ← String.toByteArray_inj]
    exact Iff.rfl
  · rename_i hinvalid
    constructor
    · intro h
      cases h
    · rintro rfl
      exact absurd s.isValidUTF8 hinvalid

theorem textOf_eq_ok {bytes : ByteArray} {s : String} :
    textOf bytes = .ok s ↔ bytes = s.toByteArray := by
  rw [← fromUTF8?_eq_some, textOf]
  split <;> simp_all

theorem textOf_eq_error {bytes : ByteArray} {e : Fault} :
    textOf bytes = .error e ↔ ¬ bytes.IsValidUTF8 ∧ e = .reading .notText := by
  unfold textOf String.fromUTF8?
  by_cases h : bytes.IsValidUTF8 <;> simp [h, eq_comm]

/-! ## The settings file -/

/-- What there is in the place of the settings file. -/
inductive SettingsFile
  | noHome
  | absent
  | directory
  | present (bytes : ByteArray)

namespace SettingsFile

def fileName : String := ".code-timeline.toml"

/-- Where the settings file is looked for, from the home directory. -/
def path? : SettingsFile → Option String
  | noHome => none
  | _ => some fileName

def load (explain : String → String) : SettingsFile → Except Fault (Settings × List Warning)
  | noHome | absent => .ok (.standard, [])
  | directory => .error (.reading .isDirectory)
  | present bytes => do Settings.read explain (← textOf bytes)

end SettingsFile

end Ribbon
