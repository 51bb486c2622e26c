import SceneMarkup.CommandLine.Outlet
import SceneMarkup.Log.Registry
import SceneMarkup.Service.Routes

/-!
# The program

The program takes its settings from the environment and the responses of the service from the
standard input, as recorded routes. It writes the log to a directory that the environment may
name. Lines of the log carry no time stamps.
-/

namespace SceneMarkup.Program

/-- The variables of the environment that are settings. -/
def settingNames : List String :=
  ["FIGMA_TOKEN", "FIGMA_API_BASE", "FIGMA_HTTP_TIMEOUT", "FIGMA_HTTP_MAX_CONNECTIONS",
    "FIGMA_HTTP_MAX_KEEPALIVE", "FIGMA_SVG_DOWNLOAD_TIMEOUT", "SNIPPET_USE_VARIABLES"]

/-- The settings among the variables of the environment. -/
def environment : IO Settings.Environment :=
  settingNames.filterMapM fun name => do
    return (← IO.getEnv name).map fun value => (name, value)

/-- The directory of the logs. -/
def logDirectory : IO String := do
  return (← IO.getEnv "LOG_DIR").getD "logs"

/-- The path of a log. -/
def logPath (directory name : String) : String := directory ++ "/" ++ name

/-- Puts a text at the end of a file, which is made if it is not there. -/
def append (path text : String) : IO Unit :=
  IO.FS.withFile path .append fun file => file.putStr text

/-- Writes a line to its target. -/
def write (directory : String) : Log.Target × String → IO Unit
  | (.file name, line) => append (logPath directory name) line
  | (.elsewhere, _) => pure ()
  | (.console, line) => IO.eprint line

/-- The outlet of the program. It keeps the loggers, and writes what they write. -/
def outlet (directory : String) : CommandLine.Outlet (StateT Log.Registry IO) where
  print text := IO.print text
  save path text := IO.FS.writeFile path text
  complain text := IO.eprintln text
  openLog := do
    match (← get).setUp CommandLine.loggerName CommandLine.logName with
    | .ok (_, registry) =>
      IO.FS.createDirAll directory
      append (logPath directory CommandLine.logName) ""
      set registry
    | .error _ => throw (IO.userError "The log cannot be opened.")
  log x := do
    ((← get).linesFor x.source x.level x.message).forM fun line => write directory line
    modify (Log.Registry.record x)

end SceneMarkup.Program

open SceneMarkup

/-- The command. -/
def main (words : List String) : IO UInt32 := do
  match Settings.read (← Program.environment) with
  | .error d =>
    IO.eprintln d.message
    return 1
  | .ok settings =>
    let record ← (← IO.getStdin).readToEnd
    let routes := Routes.read Routes.faultNames ((Json.readBody record).toOption.getD .null)
    let report := CommandLine.run Routes.server settings words routes
    let (status, _) ← (report.carryOut (Program.outlet (← Program.logDirectory))).run .empty
    return status
