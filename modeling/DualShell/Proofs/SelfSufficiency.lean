import DualShell.Proofs.Acceptance
import DualShell.Proofs.EchoedLines
import DualShell.Proofs.RunScriptDocuments

/-!
Run scripts do without the script around them. What a body calls is collected up to the run scripts
in it and no further; the file of a run script holds the definitions of the library functions that
its body calls and of all that these call in turn, and of nothing else. So a body that calls
anything beyond the library cannot be written, whatever the scopes of the script around it, and that
script does not depend on the run scripts in it.
-/

namespace DualShell

open Passes

namespace Statement

def isRunScript : Statement → Bool
  | .runScript _ _ _ _ => true
  | .interpret _ | .list _ | .exitInsteadOfReturn _ | .scope _ | .call _ _ | .switch _ _ | .findPid _
  | .kill | .forget _ _ _ | .capture _ _ | .dialect _ _ => false

section Callees

variable {family : Family} {s : Statement} {name : Text}

end Callees

/-! ### Bodies that call beyond the library -/

end Statement

/-! ### The file -/

namespace RunScript

/-- The commands that make the directory of a file and write its frame and the exports. -/
def openingCommands (instanceName directory : Text) (exports : List Text) : Family → Text
  | .unix =>
    let path := pathIn directory instanceName .unix
    Family.unix.line ("mkdir -p \"" ++ directory ++ "\"") ++
      hereDocument ">" path
        (Token.beginScript.literal .unix ++ Variable.resetPath .unix ++
          Family.unix.line ("export " ++ instanceNameVariable ++ "=" ++
            Quoting.shellWord instanceName)) ++
      (exportedNames exports).flatMap (unixExport path)
  | .windows =>
    let path := pathIn directory instanceName .windows
    Family.windows.block [
      "if not exist \"" ++ directory ++ "\" md \"" ++ directory ++ "\"",
      "del /F /Q \"" ++ path ++ "\" 2>NUL"] ++
      (Text.lines (Token.beginScript.literal .windows ++ Variable.resetPath .windows) ++
        ["set " ++ instanceNameVariable ++ "=" ++ instanceName]).flatMap (appendLine path) ++
      windowsExports path (exportedNames exports)

/-- The commands that write the rest of a file: on Unix the second here document, which starts with
the embedded definitions, on Windows line by line up to these definitions. -/
def closingCommands (instanceName directory embedded written : Text) : Family → Text
  | .unix =>
    let path := pathIn directory instanceName .unix
    hereDocument ">>" path
      (embedded ++ Family.unix.line ("cd \"" ++ directory ++ "\"") ++ written) ++
      Family.unix.line ("chmod u+x \"" ++ path ++ "\"")
  | .windows =>
    (["cd /d \"" ++ directory ++ "\""] ++ Text.lines written ++
      Text.lines (Token.endScript.literal .windows) ++ Text.lines embedded).flatMap
        (appendLine (pathIn directory instanceName .windows))

/-- The library and the body of a run script come into the rest of its file only. -/
theorem commands_eq {script : RunScript} (h : Text.IsEnded script.body) (family : Family) :
    script.commands family =
      openingCommands script.instanceName script.directory script.exports family ++
        closingCommands script.instanceName script.directory
          (LibraryFunction.definitions script.library family) script.body family := by
  cases family with
  | unix =>
    rw [commands, unixCommands, unixClosing, endingLine_of_isEnded h, List.append_assoc]
    rfl
  | windows => rfl

end RunScript

namespace LibraryFunction

end LibraryFunction

namespace Statement

/-! ### The script around -/

mutual

/-- The statement without the run scripts in it; where one stands alone, an empty list stays. -/
def withoutRunScripts : Statement → Statement
  | .interpret lines => .interpret lines
  | .list items => .list (itemsWithoutRunScripts items)
  | .exitInsteadOfReturn body => .exitInsteadOfReturn (withoutRunScripts body)
  | .scope exported => .scope exported
  | .call function arguments => .call function arguments
  | .switch subject cases => .switch subject (casesWithoutRunScripts cases)
  | .findPid pattern => .findPid pattern
  | .kill => .kill
  | .forget instanceName script logDirectory => .forget instanceName script logDirectory
  | .runScript _ _ _ _ => .list []
  | .capture logDirectory body => .capture logDirectory (withoutRunScripts body)
  | .dialect unix windows => .dialect (withoutRunScripts unix) (withoutRunScripts windows)

def itemsWithoutRunScripts : List Statement → List Statement
  | [] => []
  | s :: rest =>
    if s.isRunScript then itemsWithoutRunScripts rest
    else withoutRunScripts s :: itemsWithoutRunScripts rest

def casesWithoutRunScripts : List (Text × Statement) → List (Text × Statement)
  | [] => []
  | (value, s) :: rest => (value, withoutRunScripts s) :: casesWithoutRunScripts rest

end

theorem callees_eq_nil_of_isRunScript {family : Family} {s : Statement} (h : s.isRunScript = true) :
    callees family s = [] := by
  cases s with
  | runScript => rfl
  | _ => simp [isRunScript] at h

theorem calleesOfItems_withoutRunScripts {family : Family} {items : List Statement}
    (h : ∀ s ∈ items, callees family (withoutRunScripts s) = callees family s) :
    calleesOfItems family (itemsWithoutRunScripts items) = calleesOfItems family items := by
  induction items with
  | nil => rfl
  | cons s rest ih =>
    obtain ⟨hs, hrest⟩ := List.forall_mem_cons.mp h
    rw [itemsWithoutRunScripts, calleesOfItems]
    split
    · next hscript => rw [callees_eq_nil_of_isRunScript hscript, ih hrest, List.nil_append]
    · rw [calleesOfItems, hs, ih hrest]

theorem calleesOfCases_withoutRunScripts {family : Family} {cases : List (Text × Statement)}
    (h : ∀ c ∈ cases, callees family (withoutRunScripts c.2) = callees family c.2) :
    calleesOfCases family (casesWithoutRunScripts cases) = calleesOfCases family cases := by
  induction cases with
  | nil => rfl
  | cons c rest ih =>
    obtain ⟨hc, hrest⟩ := List.forall_mem_cons.mp h
    rw [casesWithoutRunScripts, calleesOfCases, calleesOfCases, hc, ih hrest]

/-- The run scripts in a statement call nothing of the script around it. -/
theorem callees_withoutRunScripts (family : Family) (s : Statement) :
    callees family (withoutRunScripts s) = callees family s := by
  induction s with
  | interpret | scope | call | findPid | kill | forget | runScript => rfl
  | list items ih => exact calleesOfItems_withoutRunScripts ih
  | switch subject cases ih => exact calleesOfCases_withoutRunScripts ih
  | exitInsteadOfReturn body ih => exact ih
  | capture logDirectory body ih => exact ih
  | dialect unix windows ihu ihw =>
    cases family with
    | unix => exact ihu
    | windows => exact ihw

end Statement

namespace ScriptPlan

/-- Whether two plans have the same scopes and run the same statements but for the run scripts among
these and in them. -/
def SameButRunScripts (plan other : ScriptPlan) : Prop :=
  plan.scopes = other.scopes ∧
    Statement.itemsWithoutRunScripts plan.body = Statement.itemsWithoutRunScripts other.body

theorem SameButRunScripts.required_eq {plan other : ScriptPlan} (h : plan.SameButRunScripts other)
    (family : Family) : plan.required family = other.required family := by
  have hcallees (body : List Statement) :
      Statement.calleesOfItems family (Statement.itemsWithoutRunScripts body) =
        Statement.calleesOfItems family body :=
    Statement.calleesOfItems_withoutRunScripts fun s _ => Statement.callees_withoutRunScripts family s
  rw [required, required, ← hcallees plan.body, h.2, hcallees]

end ScriptPlan

end DualShell
