import DualShell.LibraryFunction
import DualShell.Quoting
import DualShell.Text.Lines
import DualShell.Token
import DualShell.Variable

/-!
A run script is a file that another script writes. It brings its own assignments and the library
functions that it calls, so that it runs on its own. On Unix the file is written from two here
documents with the exported values between them; on Windows it is written line by line.
-/

namespace DualShell

/-- The variable under which an instance knows its own name. -/
def instanceNameVariable : Text := "INSTANCE_NAME"

/-- A run script whose parts are all written. -/
structure RunScript where
  instanceName : Text
  /-- The keys of the variables that the file takes over from the script that writes it. -/
  exports : List Text
  directory : Text
  library : List LibraryFunction
  body : Text

namespace RunScript

def pathIn (directory instanceName : Text) (family : Family) : Text :=
  directory ++ Token.fileSeparator.literal family ++ instanceName ++ "." ++
    Token.scriptSuffix.literal family

def path (script : RunScript) (family : Family) : Text :=
  pathIn script.directory script.instanceName family

/-- The names of the variables that the file takes over. The instance's name is left out, because
the file assigns it anyway. -/
def exportedNames (keys : List Text) : List Text :=
  (distinct (keys.map Variable.exportedName)).filter (· ≠ instanceNameVariable)

/-- The line that ends a here document. -/
def documentEnd : Text := "END_OF_RUN_SCRIPT"

def hereDocument (redirection path content : Text) : Text :=
  Family.unix.line ("cat " ++ redirection ++ " \"" ++ path ++ "\" <<'" ++ documentEnd ++ "'") ++
    content ++ Family.unix.line documentEnd

/-- The text with a line feed at its end, unless it has one or is empty. -/
def endingLine (t : Text) : Text :=
  if t.getLast? = none ∨ t.getLast? = some '\n' then t else t ++ ['\n']

/-- The variable that holds a value on its way into the file. -/
def valueVariable : Text := "SCRIPTGEN_VALUE"

/-- The commands that add the export of a variable to the file. The value that the variable has at
that moment is put between single quotes, its own single quotes escaped. -/
def unixExport (path name : Text) : Text :=
  Family.unix.block [
    valueVariable ++ "=$(printf '%s' \"$" ++ name ++ "\" | sed \"s/'/'\\\\\\\\''/g\")",
    "printf \"export " ++ name ++ "='%s'\\n\" \"$" ++ valueVariable ++ "\" >> \"" ++ path ++ "\""]

/-- The first here document: the frame of the script and the instance's name, which `word` writes as
one word of the shell. -/
def unixOpening (script : RunScript) (word : Text → Text) : Text :=
  Token.beginScript.literal .unix ++ Variable.resetPath .unix ++
    Family.unix.line ("export " ++ instanceNameVariable ++ "=" ++ word script.instanceName)

/-- The second here document: the library functions, the directory and the body. -/
def unixClosing (script : RunScript) : Text :=
  LibraryFunction.definitions script.library .unix ++
    Family.unix.line ("cd \"" ++ script.directory ++ "\"") ++ endingLine script.body

def unixCommands (script : RunScript) (word : Text → Text) : Text :=
  let path := script.path .unix
  Family.unix.line ("mkdir -p \"" ++ script.directory ++ "\"") ++
    hereDocument ">" path (script.unixOpening word) ++
    (exportedNames script.exports).flatMap (unixExport path) ++
    hereDocument ">>" path script.unixClosing ++
    Family.unix.line ("chmod u+x \"" ++ path ++ "\"")

/-- A command that adds to the file what `echo` prints. -/
def appendEcho (path argument : Text) : Text :=
  Family.windows.line (">>\"" ++ path ++ "\" echo(" ++ argument)

def appendLine (path content : Text) : Text := appendEcho path (Quoting.batchEcho content)

/-- A command that adds the assignment of a variable to the file. Delayed expansion puts the value
in after the command is read, so that operators in it are written as they are. -/
def windowsExport (path name : Text) : Text :=
  appendEcho path ("set \"" ++ name ++ "=!" ++ name ++ "!\"")

def windowsExports (path : Text) (names : List Text) : Text :=
  if names = [] then []
  else
    Family.windows.line "setlocal EnableDelayedExpansion" ++ names.flatMap (windowsExport path) ++
      Family.windows.line "endlocal"

def windowsOpening (script : RunScript) : List Text :=
  Text.lines (Token.beginScript.literal .windows ++ Variable.resetPath .windows) ++
    ["set " ++ instanceNameVariable ++ "=" ++ script.instanceName]

def windowsClosing (script : RunScript) : List Text :=
  ["cd /d \"" ++ script.directory ++ "\""] ++ Text.lines script.body ++
    Text.lines (Token.endScript.literal .windows) ++
    Text.lines (LibraryFunction.definitions script.library .windows)

def windowsCommands (script : RunScript) : Text :=
  let path := script.path .windows
  Family.windows.block [
    "if not exist \"" ++ script.directory ++ "\" md \"" ++ script.directory ++ "\"",
    "del /F /Q \"" ++ path ++ "\" 2>NUL"] ++
    script.windowsOpening.flatMap (appendLine path) ++
    windowsExports path (exportedNames script.exports) ++
    script.windowsClosing.flatMap (appendLine path)

def commands (script : RunScript) : Family → Text
  | .unix => script.unixCommands Quoting.shellWord
  | .windows => script.windowsCommands

end RunScript

end DualShell
