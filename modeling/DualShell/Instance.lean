import DualShell.Instance.Action
import DualShell.Instance.Draft
import DualShell.ScriptPlan

/-!
Instances and their control scripts. An instance is a draft that passed every check. Its control
script dispatches on an action: `init` writes the instance's run script, the other actions start,
inspect and stop the process that the run script becomes. Two instances are the same when they have
the same name.
-/

namespace DualShell

namespace InstanceDraft

def defaultScopeName : Text := "default"

def problem? (draft : InstanceDraft) : Option ScriptError :=
  if Text.isBlank draft.name then some (.missingArgument .instanceName)
  else if Scope.isReservedName draft.name || Label.same draft.name defaultScopeName then
    some (.reservedName draft.name)
  else if Text.isBlank draft.home then some (.missingArgument .instanceHome)
  else if Text.isBlank draft.logDirectory then some (.missingArgument .logDirectory)
  else if draft.run.isEmpty then some (.noRunStatements draft.name)
  else none

end InstanceDraft

structure Instance extends InstanceDraft where
  accepted : toInstanceDraft.problem? = none

def InstanceDraft.accept (draft : InstanceDraft) : Except ScriptError Instance :=
  match h : draft.problem? with
  | some e => .error e
  | none => .ok ⟨draft, h⟩

namespace Instance

/-- Instances are told apart by name alone. -/
instance : BEq Instance := ⟨fun a b => a.name == b.name⟩

instance : Hashable Instance := ⟨fun i => hash (String.ofList i.name)⟩

/-- The keys of the variables that every instance has. -/
def nameKey : Text := "instanceName"

def homeKey : Text := "instanceHome"

def logDirectoryKey : Text := "logDir"

def defaultKeys : List Text := [nameKey, homeKey, logDirectoryKey]

/-- What the default scope assigns; later values refer to earlier ones. -/
def defaultVariables (i : Instance) : Variables :=
  Table.ofList [(nameKey, i.name), (homeKey, i.home), (logDirectoryKey, i.logDirectory)]

def nameReference : Text := portableReference "INSTANCE_NAME"

def homeReference : Text := portableReference "INSTANCE_HOME"

def logDirectoryReference : Text := portableReference "LOG_DIR"

/-- The path of the run script, by way of the variables of the default scope. -/
def runScriptTemplate : Text :=
  homeReference ++ Token.fileSeparator.placeholder ++ nameReference ++ "." ++
    Token.scriptSuffix.placeholder

def runScript (i : Instance) : Statement :=
  .runScript i.name (i.exports.keys ++ defaultKeys) homeReference
    (.capture logDirectoryReference (.list i.run))

def printLog (file : Text) : Statement :=
  .interpret [Token.printFile.placeholder ++ " " ++ logDirectoryReference ++
    Token.fileSeparator.placeholder ++ file]

def tailLog (file : Text) : Statement :=
  .dialect
    (.interpret ["tail \"$LOG_DIR/" ++ file ++ "\""])
    (.interpret ["powershell -NoProfile -Command \"Get-Content -Tail 10 '%LOG_DIR%\\" ++ file ++
      "'\""])

def outputLog : Text := "stdout.log"

def errorLog : Text := "stderr.log"

/-- What an action does once the default scope is set up. -/
def perform (i : Instance) : Action → List Statement
  | .init => .call i.name [] :: i.init ++ [i.runScript]
  | .status =>
    [.findPid nameReference, .interpret ["echo [" ++ portableReference "FOUND_PID" ++ "]"]]
  | .stop => [.findPid nameReference, .kill]
  | .start => [.forget nameReference runScriptTemplate logDirectoryReference]
  | .stdout => [printLog outputLog]
  | .stderr => [printLog errorLog]
  | .exitStatus =>
    [.dialect
      (.interpret ["[ -f \"$LOG_DIR/rc\" ] && cat \"$LOG_DIR/rc\""])
      (.interpret ["if exist \"%LOG_DIR%\\rc\" type \"%LOG_DIR%\\rc\""])]
  | .tail => [tailLog outputLog]
  | .tailError => [tailLog errorLog]
  | .run =>
    [.dialect
      (.interpret ["\"" ++ runScriptTemplate ++ "\""])
      (.interpret ["call \"" ++ runScriptTemplate ++ "\""])]

/-- The case of an action: every action calls the default scope first. -/
def actionCase (i : Instance) (action : Action) : Text × Statement :=
  (action.name, .list (.call InstanceDraft.defaultScopeName [] :: i.perform action))

def dispatch (i : Instance) : Switch :=
  Switch.ofCases Switch.defaultSubject (Action.all.map i.actionCase)

def plan (i : Instance) : Except ScriptError ScriptPlan := do
  let withDefaults ← ScriptPlan.new.addScope ⟨InstanceDraft.defaultScopeName, i.defaultVariables⟩
  let withExports ← withDefaults.addScope ⟨i.name, i.exports⟩
  return withExports.switchOn i.dispatch

def build (i : Instance) (family : Family) : Except ScriptError Script := do
  (← i.plan).build family

end Instance

end DualShell
