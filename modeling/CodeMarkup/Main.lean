import CodeMarkup.CommandLine

/-!
# The program

Reads files and standard input, runs the command line, and writes what its report says to standard
output and to standard error.
-/

namespace CodeMarkup

/-- Looks at what a path leads to, to read from it. Where nothing is, it makes no difference to a
reader whether the directory is missing too. -/
def lookAt (path : String) : IO PathTarget := do
  match ← (IO.FS.readBinFile path).toBaseIO with
  | .ok bytes => pure (.file bytes)
  | .error (.inappropriateType ..) => pure .directory
  | .error _ => pure .nothing

/-- The settings file, if there is a home directory. -/
def findSettingsFile : IO (Option PathTarget) := do
  match ← IO.getEnv "HOME" with
  | none => pure none
  | some home => some <$> lookAt (home ++ "/" ++ Settings.fileName)

/-- The text of a file, or of standard input. -/
def getSource : Option String → IO (Except ReadError (List Char))
  | some path => PathTarget.readText <$> lookAt path
  | none => do
    let stdin ← IO.getStdin
    readBytes <$> stdin.readBinToEnd

end CodeMarkup

open CodeMarkup in
/-- Runs the program with its arguments. -/
def main (args : List String) : IO UInt32 := do
  let report := Report.ofResult (← runIn (Settings.load <$> findSettingsFile) getSource args)
  let stdout ← IO.getStdout
  stdout.write report.stdout
  stdout.flush
  let stderr ← IO.getStderr
  stderr.putStr report.complaint
  pure report.exitCode
