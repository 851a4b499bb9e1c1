/-!
# What can go wrong

The causes for which a request is refused, and how each is worded. Nothing here arises from source
text: every text can be drawn.
-/

namespace Ribbon

inductive ReadFault
  | notFound
  | notDirectory
  | isDirectory
  | nameTooLong
  | notText
  | other (reason : String)
  deriving DecidableEq, Repr

def ReadFault.message : ReadFault → String
  | notFound => "No such file or directory (os error 2)"
  | notDirectory => "Not a directory (os error 20)"
  | isDirectory => "Is a directory (os error 21)"
  | nameTooLong => "File name too long (os error 36)"
  | notText => "stream did not contain valid UTF-8"
  | other reason => reason

inductive Fault
  | reading (cause : ReadFault)
  /-- A text that is no table of settings, and what is wrong with it. -/
  | settings (detail : String)
  | color (text : String)
  | category (name : String)
  | value (key shown : String)
  /-- An option that ends the command line and needs a value. -/
  | valueMissing (option : String)
  | unknownOption (arg : String)
  deriving DecidableEq, Repr

def Fault.message : Fault → String
  | reading cause => "I/O error: " ++ cause.message
  | settings detail => "Config parse error: " ++ detail
  | color text => "Invalid color: " ++ text
  | category name => "Unknown category: " ++ name
  | value key shown => "Invalid value for '" ++ key ++ "': " ++ shown
  | valueMissing option => option ++ " needs a value"
  | unknownOption arg => "unknown option: " ++ arg

inductive Warning
  | unknownKey (key : String)
  | missingColor (category : String)
  deriving DecidableEq, Repr

def Warning.message : Warning → String
  | unknownKey key => "ignoring unknown config key '" ++ key ++ "'"
  | missingColor category => "palette has no color for '" ++ category ++ "'"

/-! ## Steps that can fail -/

section Steps

variable {ε α β : Type} {x : Except ε α} {f : α → Except ε β}

theorem bind_eq_ok {b : β} : (x >>= f) = .ok b ↔ ∃ a, x = .ok a ∧ f a = .ok b := by
  cases x with
  | error e => simp [bind, Except.bind]
  | ok a => simp [bind, Except.bind]

theorem bind_eq_error {e : ε} :
    (x >>= f) = .error e ↔ x = .error e ∨ ∃ a, x = .ok a ∧ f a = .error e := by
  cases x with
  | error d => simp [bind, Except.bind]
  | ok a => simp [bind, Except.bind]

end Steps

end Ribbon
