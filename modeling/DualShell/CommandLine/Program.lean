import DualShell.CommandLine.Arguments
import DualShell.FilePath
import DualShell.Instance
import DualShell.Settings

/-!
What a command line comes to. The stages of a command follow each other, and the first failure
decides: usage, reading settings, checking settings, exports, the instance, writing the script, its
size, the output path. Nothing is printed or written to a file unless every stage succeeds. Reading
the words, loading the settings and filtering what is logged are left to libraries.
-/

namespace DualShell.CommandLine

inductive Failure where
  /-- The command line cannot be read. -/
  | usage
  /-- The sources of the settings cannot be read. -/
  | unreadableSettings
  | settings (cause : SettingsError)
  | invalidExport (text : Text)
  | script (cause : ScriptError)
  | oversize (bytes limit : Nat)
  | missingFileName (path : Text)
  deriving DecidableEq

namespace Failure

def message : Failure → Text
  | .usage => "usage: render --name NAME --run LINE [FLAGS], or functions [--family FAMILY]"
  | .unreadableSettings => "configuration error: configuration parsing failed"
  | .settings cause => "configuration error: " ++ cause.message
  | .invalidExport text =>
    "invalid export `" ++ text ++ "`: expected KEY=VALUE with a non-empty key"
  | .script cause => "script error: " ++ cause.message
  | .oversize bytes limit =>
    "rendered script is " ++ Text.ofNat bytes ++ " bytes, above the " ++ Text.ofNat limit ++
      " byte payload limit"
  | .missingFileName path =>
    "failed to write `" ++ path ++ "`: output path is missing a file name"

def exitCode : Failure → Nat
  | .usage => 2
  | _ => 1

end Failure

/-- A script that is larger than the settings allow for. -/
structure Oversize where
  bytes : Nat
  limit : Nat
  deriving DecidableEq

def Oversize.warning (o : Oversize) : Text :=
  " WARN scriptgen: rendered script exceeds the payload limit bytes=" ++ Text.ofNat o.bytes ++
    " limit=" ++ Text.ofNat o.limit

structure Outcome where
  failure : Option Failure
  /-- The summary of the script, if it was asked for and the script was written. -/
  diagnostics : Option Diagnostics
  /-- The size of a script that is let pass although it is too large. -/
  warning : Option Oversize
  /-- What is printed. -/
  output : Text
  /-- The file that is written, with its content. -/
  file : Option (FilePath × Text)
  deriving DecidableEq

namespace Outcome

def failed (failure : Failure) (diagnostics : Option Diagnostics) : Outcome :=
  ⟨some failure, diagnostics, none, [], none⟩

def exitCode (outcome : Outcome) : Nat :=
  match outcome.failure with
  | none => 0
  | some failure => failure.exitCode

def messageLines (outcome : Outcome) : List Text :=
  (outcome.diagnostics.map Diagnostics.json).toList ++
    (outcome.warning.map Oversize.warning).toList ++
    (outcome.failure.map Failure.message).toList

def messages (outcome : Outcome) : Text := Family.unix.block outcome.messageLines

/-- The outcome with its warning, if there is one, shown or left out. -/
def withWarnings (shown : Bool) (outcome : Outcome) : Outcome :=
  { outcome with warning := outcome.warning.filter fun _ => shown }

end Outcome

/-- The key and the value of an export: what stands before the first equals sign, trimmed, and all
that follows it. There is none without a key. -/
def readExport? (text : Text) : Option (Text × Text) :=
  let key := text.takeWhile (· ≠ '=')
  match text.drop key.length with
  | [] => none
  | _ :: value => if Text.isBlank key then none else some (Text.trim key, value)

def readExport (text : Text) : Except Failure (Text × Text) :=
  match readExport? text with
  | some entry => .ok entry
  | none => .error (.invalidExport text)

/-- The instance that a request describes; the settings give the directories that it leaves out. -/
def RenderRequest.draft (request : RenderRequest) (settings : Settings)
    (exports : List (Text × Text)) : InstanceDraft :=
  let home := request.home.or settings.defaultHome
  let logDirectory := request.logDirectory.or settings.defaultLogDirectory
  { name := request.name
    home := home.getD InstanceDraft.defaultHome
    logDirectory := logDirectory.getD InstanceDraft.defaultLogDirectory
    exports := Table.ofList exports
    init := request.init.map fun line => .interpret [line]
    run := request.run.map fun line => .interpret [line] }

def RenderRequest.chooseFamily (request : RenderRequest) (settings : Settings) :
    Except Failure Family :=
  match request.family with
  | some family => .ok family
  | none => settings.family.mapError .settings

def RenderRequest.script (request : RenderRequest) (settings : Settings) :
    Except Failure Script := do
  settings.validate.mapError .settings
  let family ← request.chooseFamily settings
  let exports ← traverse readExport request.exports
  let accepted ← (request.draft settings exports).accept.mapError .script
  (accepted.build family).mapError .script

/-- Whether a script is too large: a warning if it is let pass, a failure if not. -/
def checkSize (settings : Settings) (script : Script) : Except Failure (Option Oversize) :=
  if script.exceeds settings.payloadLimit then
    if settings.failOnOversize then .error (.oversize script.bytes settings.payloadLimit)
    else .ok (some ⟨script.bytes, settings.payloadLimit⟩)
  else .ok none

/-- Where a script goes: to a file, or to the output if no path is given. -/
def chooseFile : Option Text → Except Failure (Option FilePath)
  | none => .ok none
  | some path =>
    match FilePath.ofText? path with
    | none => .error (.missingFileName path)
    | some file => .ok (some file)

/-- Delivers a script to exactly one place. -/
def RenderRequest.deliver (request : RenderRequest) (settings : Settings) (script : Script) :
    Outcome :=
  let diagnostics := if request.diagnostics then some script.diagnostics else none
  match checkSize settings script with
  | .error failure => .failed failure diagnostics
  | .ok warning =>
    match chooseFile request.output with
    | .error failure => { Outcome.failed failure diagnostics with warning }
    | .ok none => ⟨none, diagnostics, warning, script.text, none⟩
    | .ok (some file) => ⟨none, diagnostics, warning, [], some (file, script.text)⟩

def RenderRequest.outcome (request : RenderRequest) (settings : Settings) : Outcome :=
  match request.script settings with
  | .error failure => .failed failure none
  | .ok script => request.deliver settings script

def describeFunction (function : LibraryFunction) : Text :=
  match function.dependencies with
  | [] => function.name
  | callees => function.name ++ ": " ++ Text.join ", " (callees.map (·.name))

/-- The definitions of the library functions for a family, or what they call. -/
def listFunctions : Option Family → Text
  | some family => LibraryFunction.definitions LibraryFunction.all family
  | none => Family.unix.block (LibraryFunction.all.map describeFunction)

/-- What a program finds when it starts: the variables of its environment, and files by their paths. -/
structure Surroundings where
  environment : List (Text × Text)
  files : List (Text × Text)

/-- What the program leaves to others. -/
structure Libraries where
  /-- Reads the words of a command line. -/
  read : List Text → Reading
  /-- The settings that the surroundings come to, unless they cannot be read. -/
  load : Surroundings → Option Settings
  /-- Whether a log filter lets warnings through; there is no answer for a text that is no filter. -/
  showsWarnings? : Text → Option Bool

namespace Libraries

/-- The variable that holds the log filter. -/
def filterVariable : Text := "RUST_LOG"

/-- Whether warnings are shown: unless the environment holds a log filter that keeps them back. -/
def showsWarnings (libraries : Libraries) (environment : List (Text × Text)) : Bool :=
  -- The filter that stands in for a missing or malformed one shows warnings and what is graver.
  ((environment.findRev? (·.1 = filterVariable)).bind fun entry =>
    libraries.showsWarnings? entry.2).getD true

/-- The outcome of a command line in its surroundings. -/
def outcome (libraries : Libraries) (arguments : List Text) (surroundings : Surroundings) : Outcome :=
  match libraries.read arguments with
  | .refused => .failed .usage none
  | .help text => ⟨none, none, none, text, none⟩
  | .command (.functions family) => ⟨none, none, none, listFunctions family, none⟩
  | .command (.render request) =>
    match libraries.load surroundings with
    | none => .failed .unreadableSettings none
    | some settings =>
      (request.outcome settings).withWarnings (libraries.showsWarnings surroundings.environment)

end Libraries

end DualShell.CommandLine
