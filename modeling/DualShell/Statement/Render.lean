import DualShell.Dispatch
import DualShell.RunScript
import DualShell.Statement.Callees
import DualShell.Statement.Commands
import DualShell.Text.Word

/-!
The text of a statement for a family. The parts of a statement are written from left to right, and
the first failure is the statement's. A run script is checked before anything in it is written: its
body may call library functions only.
-/

namespace DualShell.Statement

/-- The text with every whole-word return command replaced by the exit command. -/
def exitForReturn (family : Family) (text : Text) : Text :=
  Text.replaceWord (Token.returnCommand.literal family) (Token.exitCommand.literal family) text

mutual

def render (family : Family) : Statement → Except RenderError Text
  | .interpret lines => Template.expandLines family lines
  | .list items => renderItems family items
  | .exitInsteadOfReturn body => (render family body).map (exitForReturn family)
  | .scope exported => exported.render family
  | .call function arguments => functionCall function arguments family
  | .switch subject cases =>
    (renderCases family cases).map fun arms => Dispatch.table subject arms family
  | .findPid pattern => libraryCall .findPid [pattern] family
  | .kill => .ok (killCommands family)
  | .forget instanceName script logDirectory =>
    libraryCall .forget [instanceName, script, logDirectory] family
  | .runScript instanceName exports workingDirectory body => do
    let library ← LibraryFunction.resolve family [] (dependencies family body).names
    let written ← render family body
    let directory ← Template.expand family workingDirectory
    return RunScript.commands
      ⟨instanceName, exports, directory, library, exitForReturn family written⟩ family
  | .capture logDirectory body => do
    let directory ← Template.expand family logDirectory
    let written ← render family body
    return Capture.commands directory written family
  | .dialect unix windows =>
    match family with
    | .unix => render family unix
    | .windows => render family windows

def renderItems (family : Family) : List Statement → Except RenderError Text
  | [] => .ok []
  | s :: rest => do
    let first ← render family s
    let others ← renderItems family rest
    return first ++ others

def renderCases (family : Family) : List (Text × Statement) → Except RenderError (List Dispatch.Arm)
  | [] => .ok []
  | (value, s) :: rest => do
    let body ← render family s
    let others ← renderCases family rest
    return (value, body) :: others

end

/-- Where a run script with this name and this template of a directory is written to. -/
def runScriptPath (instanceName workingDirectory : Text) (family : Family) :
    Except RenderError Text :=
  (Template.expand family workingDirectory).map fun directory =>
    RunScript.pathIn directory instanceName family

theorem renderItems_eq (family : Family) (items : List Statement) :
    renderItems family items = Text.collect (render family) items := by
  induction items with
  | nil => rfl
  | cons s rest ih =>
    rw [renderItems, ih, Text.collect, Text.collect]
    cases h : render family s with
    | error e => rw [traverse_cons_error h]; rfl
    | ok first => rw [traverse_cons_ok h]; cases traverse (render family) rest <;> rfl

theorem renderCases_eq (family : Family) (cases : List (Text × Statement)) :
    renderCases family cases =
      traverse (fun c => (render family c.2).map fun body => (c.1, body)) cases := by
  induction cases with
  | nil => rfl
  | cons c rest ih =>
    rw [renderCases, ih, traverse]
    cases render family c.2 with
    | error e => rfl
    | ok body => rfl

end DualShell.Statement
