import DualShell.RenderError

/-!
The functions that scripts can call without defining them. A script that needs one embeds its
definition and the definitions of every function it calls in turn. A function calls only functions
declared before it, so one pass from the last to the first finds all that a script needs.
-/

namespace DualShell

inductive LibraryFunction where
  /-- Prints a message to the error stream and exits. -/
  | abort
  /-- Looks a process up by a pattern and leaves its number in a variable. -/
  | findPid
  /-- Starts a script in the background with its output going to log files. -/
  | forget
  deriving DecidableEq, Repr

namespace LibraryFunction

def all : List LibraryFunction := [.abort, .findPid, .forget]

def name : LibraryFunction → Text
  | .abort => "abort"
  | .findPid => "findPid"
  | .forget => "forget"

def ofName? (name : Text) : Option LibraryFunction := all.find? (·.name = name)

/-- The functions that this one calls. -/
def dependencies : LibraryFunction → List LibraryFunction
  | .abort => []
  | .findPid => [.abort]
  | .forget => [.abort, .findPid]

def unixLines : LibraryFunction → List Text
  | .abort => [
    "abort() \x7b",
    "   echo \"aborting: $@\" 1>&2",
    "   exit 1",
    "\x7d"]
  | .findPid => [
    "findPid() \x7b",
    "   unset FOUND_PID",
    "   [ $# -eq 1 ] || \x7b",
    "      abort \"findPid requires a parameter of pattern to match\"",
    "      return 1",
    "   \x7d",
    "   PATTERN=\"$1\"",
    ("   _FOUND=`ps auxwww|grep \"$PATTERN\"|grep -v \" $0\"|grep -v grep" : Text) ++
      "|awk -v self=$$ '$2 != self \x7bprint $2\x7d'|head -1`",
    "   [ -n \"$_FOUND\" ] && \x7b",
    "      export FOUND_PID=$_FOUND",
    "      return 0",
    "   \x7d",
    "   return 1",
    "\x7d"]
  | .forget => [
    "forget() \x7b",
    "   unset FOUND_PID",
    "   [ $# -eq 3 ] || \x7b",
    "      abort \"forget requires parameters INSTANCE_NAME SCRIPT LOG_DIR\"",
    "      return 1",
    "   \x7d",
    "   INSTANCE_NAME=\"$1\"",
    "   SCRIPT=\"$2\"",
    "   LOG_DIR=\"$3\"",
    "   mkdir -p \"$LOG_DIR\"",
    "   findPid \"$INSTANCE_NAME\"",
    "   [ -n \"$FOUND_PID\" ] && \x7b",
    "      echo \"$INSTANCE_NAME already running pid $FOUND_PID\"",
    "      return 1",
    "   \x7d",
    "   nohup \"$SCRIPT\" >\"$LOG_DIR/stdout.log\" 2>\"$LOG_DIR/stderr.log\" &",
    "   RETURN=$?",
    "   # the child may not be visible to findPid yet",
    "   [ $RETURN -eq 0 ] && sleep 1",
    "   return $RETURN",
    "\x7d"]

def windowsLines : LibraryFunction → List Text
  | .abort => [
    ":abort",
    "   >&2 echo aborting: %~1",
    "   exit /b 1"]
  | .findPid => [
    ":findPid",
    "   set FOUND_PID=",
    "   if \"%~1\" == \"\" (",
    "      call :abort \"findPid requires a parameter of pattern to match\"",
    "      exit /b 1",
    "   )",
    ("   for /f \"usebackq tokens=2\" %%a in (`tasklist /NH /FI \"WINDOWTITLE eq %~1\"" : Text) ++
      " ^| find /V \"INFO:\"`) do set FOUND_PID=%%a",
    "   if defined FOUND_PID exit /b 0",
    "   exit /b 1"]
  | .forget => [
    ":forget",
    "   set FOUND_PID=",
    "   if \"%~3\" == \"\" (",
    "      call :abort \"forget requires parameters INSTANCE_NAME SCRIPT LOG_DIR\"",
    "      exit /b 1",
    "   )",
    "   if not exist \"%~3\" md \"%~3\"",
    "   call :findPid \"%~1\"",
    "   if defined FOUND_PID (",
    "      echo %~1 already running pid %FOUND_PID%",
    "      exit /b 1",
    "   )",
    "   start \"%~1\" /MIN cmd /c \"\"%~2\" >\"%~3\\stdout.log\" 2>\"%~3\\stderr.log\"\"",
    "   exit /b 0"]

/-- The lines that define the function in a family. -/
def ownLines (function : LibraryFunction) : Family → List Text
  | .unix => function.unixLines
  | .windows => function.windowsLines

/-- The complete definition of the function for a family. -/
def definition (function : LibraryFunction) (family : Family) : Text :=
  family.block (function.ownLines family)

def definitions (functions : List LibraryFunction) (family : Family) : Text :=
  functions.flatMap (·.definition family)

/-- The required functions with everything that they call, in the order of declaration. -/
def closure (required : List LibraryFunction) : List LibraryFunction :=
  all.foldr (fun function kept =>
    if required.contains function || kept.any (·.dependencies.contains function) then
      function :: kept
    else kept) []

def lookUp (family : Family) (name : Text) : Except RenderError LibraryFunction :=
  match ofName? name with
  | some function => .ok function
  | none => .error (.unknownFunction name family)

/-- The library functions to embed for the names, those that they call included, or the first name
that nothing defines. Names that are defined elsewhere ask for nothing. -/
def resolve (family : Family) (defined names : List Text) :
    Except RenderError (List LibraryFunction) :=
  (traverse (lookUp family) (names.filter (· ∉ defined))).map closure

theorem mem_all (function : LibraryFunction) : function ∈ all := by
  cases function <;> simp [all]

theorem ofName?_name (function : LibraryFunction) : ofName? function.name = some function := by
  cases function <;> decide

theorem name_eq_of_ofName? {name : Text} {function : LibraryFunction}
    (h : ofName? name = some function) : function.name = name := by
  simpa using List.find?_some h

end LibraryFunction

end DualShell
