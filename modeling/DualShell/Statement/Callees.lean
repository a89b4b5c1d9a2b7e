import DualShell.LibraryFunction
import DualShell.NameSet
import DualShell.Statement.Basic

/-!
The functions that a statement calls when it is written for a family. A run script embeds what it
calls, so that the script around it need not.
-/

namespace DualShell.Statement

mutual

/-- The names of the functions called, in the order of the calls. -/
def callees (family : Family) : Statement → List Text
  | .interpret _ => []
  | .list items => calleesOfItems family items
  | .exitInsteadOfReturn body => callees family body
  | .scope _ => []
  | .call function _ => [Label.ofName function]
  | .switch _ cases => calleesOfCases family cases
  | .findPid _ => [LibraryFunction.findPid.name]
  | .kill => []
  | .forget _ _ _ => [LibraryFunction.forget.name]
  | .runScript _ _ _ _ => []
  | .capture _ body => callees family body
  | .dialect unix windows =>
    match family with
    | .unix => callees family unix
    | .windows => callees family windows

def calleesOfItems (family : Family) : List Statement → List Text
  | [] => []
  | s :: rest => callees family s ++ calleesOfItems family rest

def calleesOfCases (family : Family) : List (Text × Statement) → List Text
  | [] => []
  | (_, s) :: rest => callees family s ++ calleesOfCases family rest

end

/-- The names of the functions called, as a set. -/
def dependencies (family : Family) (s : Statement) : NameSet := NameSet.ofList (callees family s)

theorem calleesOfItems_eq (family : Family) (items : List Statement) :
    calleesOfItems family items = items.flatMap (callees family) := by
  induction items with
  | nil => rfl
  | cons s rest ih => simp [calleesOfItems, ih]

theorem calleesOfCases_eq (family : Family) (cases : List (Text × Statement)) :
    calleesOfCases family cases = cases.flatMap fun c => callees family c.2 := by
  induction cases with
  | nil => rfl
  | cons c rest ih => simp [calleesOfCases, ih]

end DualShell.Statement
