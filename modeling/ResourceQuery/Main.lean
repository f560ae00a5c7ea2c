import ResourceQuery.CommandLine

/-!
# The program

Reads what a run may read, and prints its outcome. What is decided is decided by
`ResourceQuery.CommandLine.run`.
-/

namespace ResourceQuery.Program

/-- The text of a file, if it exists and is UTF-8. -/
def readText (path : String) : IO (Option String) := do
  try
    let bytes ← IO.FS.readBinFile path
    pure (String.fromUTF8? bytes)
  catch _ => pure none

/-- The texts of the files that a run with these arguments may read. -/
def readFiles (arguments : List String) : IO (List (String × String)) := do
  let named :=
    match Arguments.parse arguments with
    | .ok a => a.schema.toList ++ a.input.toList
    | .error _ => []
  let mut files := []
  for path in ".env" :: named do
    if let some text ← readText path then
      files := (path, text) :: files
  pure files

/-- The variables that a run may look at. -/
def readEnvironment : IO (List (String × String)) := do
  let mut settings := []
  for name in ["SIEVE_LOG", "RUST_LOG", "SIEVE_MAX_LIMIT"] do
    if let some text ← IO.getEnv name then
      settings := (name, text) :: settings
  pure settings

/-- Runs the program and prints its outcome. -/
def start (arguments : List String) : IO UInt32 := do
  let files ← readFiles arguments
  let environment ← readEnvironment
  let outcome := CommandLine.run arguments (Entries.get? environment) (Entries.get? files)
  (← IO.getStdout).putStr outcome.stdout
  (← IO.getStderr).putStr outcome.stderr
  pure outcome.code

end ResourceQuery.Program

/-- The entry point. -/
def main (arguments : List String) : IO UInt32 :=
  ResourceQuery.Program.start arguments
