import Ribbon.Command.Run

/-!
# The program

Looks up what a run needs, and writes what the run answers.
-/

namespace Ribbon.Program

/-- A folder can be opened, and is refused only when it is read. -/
def causeOf : IO.Error → ReadFault
  | .noFileOrDirectory .. => .notFound
  | .inappropriateType _ code _ => if code = 21 then .isDirectory else .notDirectory
  | .invalidArgument .. => .nameTooLong
  | e => .other (toString e)

def readFile (path : String) : IO (Except ReadFault ByteArray) := do
  try
    return .ok (← IO.FS.readBinFile path)
  catch e =>
    return .error (causeOf e)

def settingsFile : IO SettingsFile := do
  match ← IO.getEnv "HOME" with
  | none => return .noHome
  | some home =>
    match ← readFile (home ++ "/" ++ SettingsFile.fileName) with
    | .ok bytes => return .present bytes
    | .error .isDirectory => return .directory
    | .error _ => return .absent

partial def readAll (input : IO.FS.Stream) (before : ByteArray) : IO ByteArray := do
  let bytes ← input.read 65536
  if bytes.isEmpty then return before else readAll input (before ++ bytes)

/-- A line of the log, without the time of day. -/
def entry (v : Warning) : String :=
  let origin := match v with
    | .unknownKey _ => "config"
    | .missingColor _ => "render"
  "[WARN  code_timeline::" ++ origin ++ "] " ++ v.message ++ "\n"

/-- Warnings are logged unless the environment asks for less. -/
def logger : IO (Warning → String) := do
  match ← IO.getEnv "RUST_LOG" with
  | some "off" | some "error" => return fun _ => ""
  | _ => return entry

def explain (_ : String) : String :=
  "TOML parse error\n"

/-- Only what the command line asks for is looked at. A terminal is not asked for its columns. -/
def surroundings (args : List String) : IO Surroundings := do
  let log ← logger
  match Request.read args with
  | .ok (.draw o) =>
    let settings ← settingsFile
    match o.file with
    | some path =>
      let found ← readFile path
      return ⟨settings, fun _ => found, .empty, none, explain, log⟩
    | none =>
      let input ← readAll (← IO.getStdin) .empty
      return ⟨settings, fun _ => .error .notFound, input, none, explain, log⟩
  | _ => return ⟨.absent, fun _ => .error .notFound, .empty, none, explain, log⟩

end Ribbon.Program

def main (args : List String) : IO UInt32 := do
  let outcome := Ribbon.Command.run args (← Ribbon.Program.surroundings args)
  (← IO.getStdout).putStr outcome.output
  (← IO.getStderr).putStr outcome.errors
  return UInt32.ofNat outcome.exitCode
