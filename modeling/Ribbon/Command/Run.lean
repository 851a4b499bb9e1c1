import Ribbon.Command.Options
import Ribbon.Listing
import Ribbon.Settings.File

/-!
# Runs

A run of the program: what it answers to a command line, given the files and the terminal around it.
It logs what there is to tell of its settings, and the first thing that goes wrong ends it.
-/

namespace Ribbon

structure Surroundings where
  settings : SettingsFile
  file : String → Except ReadFault ByteArray
  standardInput : ByteArray
  /-- The columns of the terminal, if there is one and it tells. -/
  terminal : Option Nat
  /-- What is said of a text that is no table of settings. -/
  explain : String → String
  /-- What is logged on the error stream for a warning. It may be nothing. What is of less weight
  than a warning is logged on demand only, and is left out here. -/
  entry : Warning → String

namespace Surroundings

/-- The columns of a drawing. -/
def width (w : Surroundings) : Nat :=
  columns (w.terminal.getD defaultColumns)

def log (w : Surroundings) (ws : List Warning) : String :=
  String.join (ws.map w.entry)

end Surroundings

structure Outcome where
  exitCode : Nat
  output : String
  /-- All that is written to the error stream, what is logged there included. -/
  errors : String
  deriving DecidableEq, Repr

namespace Outcome

def success (log text : String) : Outcome := ⟨0, text, log⟩

def failure (log : String) (e : Fault) : Outcome := ⟨1, "", log ++ "Error: " ++ e.message ++ "\n"⟩

end Outcome

namespace Command

def versionText : String :=
  "code-timeline 0.1.0"

def helpLines : List String :=
  [versionText ++ " - see your code as a timeline",
    "",
    "Usage: code-timeline [OPTIONS] [FILE]",
    "",
    "Reads FILE, or stdin when FILE is absent or '-'.",
    "",
    "Options:",
    "  --light              Use the light palette",
    "  --dark               Use the dark palette (default)",
    "  --char-width N       Display width per character, 1-64 (default 8)",
    "  --no-legend          Do not print the color legend",
    "  --no-line-numbers    Do not print line numbers",
    "  --dump               Print segments as text instead of blocks",
    "  -h, --help           Show this help message",
    "  -V, --version        Show version information",
    "",
    "Settings are read from ~/.code-timeline.toml; RUST_LOG controls logging."]

def helpText : String :=
  String.join (helpLines.map (· ++ "\n"))

def source (w : Surroundings) (file : Option String) : Except Fault String :=
  match file with
  | some path => (w.file path).mapError .reading >>= textOf
  | none => textOf w.standardInput

/-- A listing, or a chart with what there is to tell of it. Only a chart needs a palette. -/
def drawing (columns : Nat) (list : Bool) (s : Settings) (text : String) :
    Except Fault (String × List Warning) := do
  let strips := (Scheme.standard s.charWidth).strips text.toList
  if list then return (String.ofList (listing strips), [])
  else
    let chart := s.chart (← s.palette)
    return (String.ofList (Stroke.encodeAll (chart.draw columns strips)), chart.warnings)

/-- Draws an input under settings. What there is to tell of the settings has been logged before. -/
def draw (file : Option String) (list : Bool) (s : Settings) (ws : List Warning)
    (w : Surroundings) : Outcome :=
  match source w file >>= drawing w.width list s with
  | .ok (text, more) => .success (w.log (ws ++ more)) text
  | .error e => .failure (w.log ws) e

/-- What comes of a command line, under settings that may have been refused. -/
def answer (args : List String) (loaded : Except Fault (Settings × List Warning))
    (w : Surroundings) : Outcome :=
  match Request.read args with
  | .error e => .failure "" e
  | .ok .help => .success "" helpText
  | .ok .version => .success "" (versionText ++ "\n")
  | .ok (.draw o) =>
    match loaded with
    | .error e => .failure "" e
    | .ok (s, ws) => draw o.file o.list (o.applyTo s) ws w

def run (args : List String) (w : Surroundings) : Outcome :=
  answer args (w.settings.load w.explain) w

end Command

end Ribbon
