import DualShell.LibraryFunction
import DualShell.Template

/-!
The commands that single statements stand for: calls of functions, the end of a process, and the
frame around a body whose exit status is captured.
-/

namespace DualShell

/-- How a function is invoked by its label. -/
def invocation (label : Text) : Family → Text
  | .unix => label
  | .windows => "call :" ++ label

def invocationLine (label : Text) (arguments : List Text) (family : Family) : Text :=
  family.line (invocation label family ++ arguments.flatMap (' ' :: ·))

namespace Template

def expandAll (family : Family) (templates : List Text) : Except RenderError (List Text) :=
  traverse (expand family) templates

/-- Portable lines, each expanded and ended in the family's way. -/
def expandLines (family : Family) (templates : List Text) : Except RenderError Text :=
  (expandAll family templates).map family.block

end Template

def functionCall (name : Text) (arguments : List Text) (family : Family) :
    Except RenderError Text :=
  (Template.expandAll family arguments).map fun written =>
    invocationLine (Label.ofName name) written family

def libraryCall (function : LibraryFunction) (arguments : List Text) (family : Family) :
    Except RenderError Text :=
  (Template.expandAll family arguments).map fun written =>
    invocationLine function.name (written.map fun argument => '"' :: argument ++ ['"']) family

/-- The end of the process in `FOUND_PID`. A shell puts off a trapped signal until its running
child exits, so the children are signalled after the shell itself. -/
def killCommands : Family → Text
  | .unix => Family.unix.block [
    "[ -n \"$FOUND_PID\" ] && \x7b",
    "   echo stopping $FOUND_PID",
    "   kill $FOUND_PID",
    "   for CHILD_PID in `ps -eo pid=,ppid= | awk -v parent=\"$FOUND_PID\" " ++
      ("'$2 == parent \x7bprint $1\x7d'`; do" : Text),
    "      kill $CHILD_PID 2>/dev/null",
    "   done",
    "\x7d"]
  | .windows => Family.windows.block [
    "if defined FOUND_PID (",
    "   echo stopping %FOUND_PID%",
    "   taskkill /F /T /PID %FOUND_PID% >NUL",
    ")"]

namespace Capture

def statusFile (directory : Text) (family : Family) : Text :=
  directory ++ Token.fileSeparator.literal family ++ "rc"

/-- The signals that end a captured body, with the exit status that each leaves. -/
def signals : List (Nat × Nat) := [(1, 129), (2, 130), (3, 131), (15, 143)]

def trapLine (action : Text) (signal : Nat) : Text :=
  "trap '" ++ action ++ "' " ++ Text.ofNat signal

/-- A body between commands that record its exit status in a directory: on Unix traps do, on
Windows the body becomes a subroutine whose error level is written down. -/
def commands (directory body : Text) : Family → Text
  | .unix =>
    let file := statusFile directory .unix
    Family.unix.block
      (["mkdir -p \"" ++ directory ++ "\"",
        "rm -f \"" ++ file ++ "\"",
        trapLine ("echo $?>\"" ++ file ++ "\"") 0] ++
        signals.map fun signal => trapLine ("exit " ++ Text.ofNat signal.2) signal.1) ++
      body
  | .windows =>
    let file := statusFile directory .windows
    Family.windows.block [
      "if not exist \"" ++ directory ++ "\" md \"" ++ directory ++ "\"",
      "del /F /Q \"" ++ file ++ "\" 2>NUL",
      "call :" ++ Label.capturedBody ++ " %*",
      ">\"" ++ file ++ "\" echo %ERRORLEVEL%",
      "exit /b %ERRORLEVEL%",
      ':' :: Label.capturedBody] ++
      body ++ Family.windows.line "exit /b 0"

end Capture

end DualShell
