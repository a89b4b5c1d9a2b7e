import DualShell.CommandLine.Outcome

/-!
The program: it gathers the command line, the environment and the settings files, and carries out
the outcome.
-/

namespace DualShell.CommandLine

def readEnvironment : IO (List (Text × Text)) := do
  let names := Setting.all.map Setting.environmentName ++ Settings.placeVariables ++
    [Libraries.filterVariable]
  let values ← names.mapM fun name => do
    let value ← IO.getEnv (String.ofList name)
    return value.map fun v => (name, v.toList)
  return values.filterMap id

def readFile? (path : FilePath) : IO (Option Text) := do
  try
    let content ← IO.FS.readFile (String.ofList path.text)
    return some content.toList
  catch _ => return none

/-- Adds the file at a path and the files that it extends to those that have been read. -/
partial def readFilesFrom (path : FilePath) (found : List (Text × Text)) :
    IO (List (Text × Text)) := do
  if (Settings.contentAt? found path).isSome then return found
  match ← readFile? path with
  | none => return found
  | some content =>
    let next := do Settings.extended? path (← Toml.Document.read? content)
    match next.join with
    | none => return found ++ [(path.text, content)]
    | some base => readFilesFrom base (found ++ [(path.text, content)])

/-- The file at the first of some places that has one, and the files that it extends. -/
def readFirstOf : List FilePath → IO (List (Text × Text))
  | [] => return []
  | place :: others => do
    match ← readFilesFrom place [] with
    | [] => readFirstOf others
    | found => return found

def writeOutput (path : FilePath) (content : Text) : IO Unit := do
  if path.directory ≠ [] then IO.FS.createDirAll (String.ofList path.directoryText)
  IO.FS.writeFile (String.ofList path.text) (String.ofList content)

def perform (outcome : Outcome) : IO UInt32 := do
  IO.eprint (String.ofList outcome.messages)
  IO.print (String.ofList outcome.output)
  match outcome.file with
  | none => return outcome.exitCode.toUInt32
  | some (path, content) =>
    try
      writeOutput path content
      return outcome.exitCode.toUInt32
    catch e =>
      IO.eprintln ("failed to write `" ++ String.ofList path.text ++ "`: " ++ toString e)
      return 1

end DualShell.CommandLine

def main (arguments : List String) : IO UInt32 := do
  let environment ← DualShell.CommandLine.readEnvironment
  let files ← DualShell.CommandLine.readFirstOf (DualShell.Settings.places environment)
  DualShell.CommandLine.perform
    (DualShell.CommandLine.outcome (arguments.map String.toList) environment files)
