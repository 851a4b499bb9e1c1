import Ribbon.Settings

/-!
# Options

What the arguments of a command line ask for. They are read from the left; help, the version and
the first fault end the reading.
-/

namespace Ribbon

open Text

structure Options where
  /-- The file to draw; the standard input if there is none. -/
  file : Option String
  theme : Option Theme
  charWidth : Option Nat
  list : Bool
  noLegend : Bool
  noLineNumbers : Bool
  deriving DecidableEq, Repr

inductive Request
  | help
  | version
  | draw (o : Options)
  deriving DecidableEq, Repr

inductive Argument
  | help
  | version
  | theme (t : Theme)
  | list
  | noLegend
  | noLineNumbers
  | charWidth
  | standardInput
  | unknown
  | file
  deriving DecidableEq, Repr

namespace Argument

def of (arg : String) : Argument :=
  if arg = "--help" ∨ arg = "-h" then help
  else if arg = "--version" ∨ arg = "-V" then version
  else if arg = "--light" then theme .light
  else if arg = "--dark" then theme .dark
  else if arg = "--dump" then list
  else if arg = "--no-legend" then noLegend
  else if arg = "--no-line-numbers" then noLineNumbers
  else if arg = "--char-width" then charWidth
  else if arg = "-" then standardInput
  else if arg.toList.head? = some '-' then unknown
  else file

end Argument

namespace Options

def none : Options where
  file := .none
  theme := .none
  charWidth := .none
  list := false
  noLegend := false
  noLineNumbers := false

def readWidth (arg : String) : Except Fault Nat :=
  match number? arg.toList with
  | some n => .ok (Settings.clampWidth n)
  | .none => .error (.value "--char-width" arg)

/-- Reads arguments after others that asked for these options. A later argument replaces what an
earlier one asked for. -/
def read (o : Options) : List String → Except Fault Request
  | [] => .ok (.draw o)
  | arg :: rest =>
    match Argument.of arg with
    | .help => .ok .help
    | .version => .ok .version
    | .theme t => { o with theme := t }.read rest
    | .list => { o with list := true }.read rest
    | .noLegend => { o with noLegend := true }.read rest
    | .noLineNumbers => { o with noLineNumbers := true }.read rest
    | .charWidth =>
      match rest with
      | [] => .error (.valueMissing arg)
      | width :: rest =>
        match readWidth width with
        | .ok n => { o with charWidth := n }.read rest
        | .error e => .error e
    | .standardInput => { o with file := .none }.read rest
    | .unknown => .error (.unknownOption arg)
    | .file => { o with file := arg }.read rest

/-- The settings with what is asked for in place of what they say. -/
def applyTo (o : Options) (s : Settings) : Settings :=
  { s with
    theme := o.theme.getD s.theme
    charWidth := o.charWidth.getD s.charWidth
    legend := s.legend && !o.noLegend
    lineNumbers := s.lineNumbers && !o.noLineNumbers }

end Options

def Request.read (args : List String) : Except Fault Request :=
  Options.none.read args

end Ribbon
