import DualShell.Label
import DualShell.Quoting
import DualShell.Table
import DualShell.Template
import DualShell.Variable

/-!
Scopes are functions that export a set of variables when they are called.
-/

namespace DualShell

/-- The definition of the function with the label of `name` around a body of whole lines. -/
def functionDefinition (name body : Text) : Family → Text
  | .unix =>
    Family.unix.line (Label.ofName name ++ "() \x7b") ++ body ++
      Family.unix.block ["   return 0", "\x7d"]
  | .windows =>
    Family.windows.line (':' :: Label.ofName name) ++ body ++ Family.windows.line "   exit /b 0"

namespace Variable

/-- The assignment of a value to the variable exported for a key. -/
def exportLine (key value : Text) : Family → Text
  | .unix => "export " ++ exportedName key ++ "=\"" ++ Quoting.doubleQuoted value ++ "\""
  | .windows => "set " ++ exportedName key ++ "=" ++ value

/-- The assignments of variables in order, each value expanded as a template. -/
def exportSection (assignments : Variables) (family : Family) : Except RenderError Text :=
  Text.collect
    (fun entry =>
      (Template.expand family entry.2).map fun value => family.line (exportLine entry.1 value family))
    assignments.entries

end Variable

structure Scope where
  name : Text
  assignments : Variables
  deriving DecidableEq

namespace Scope

def label (scope : Scope) : Text := Label.ofName scope.name

def render (scope : Scope) (family : Family) : Except RenderError Text :=
  (Variable.exportSection scope.assignments family).map fun body =>
    functionDefinition scope.name body family

end Scope

end DualShell
