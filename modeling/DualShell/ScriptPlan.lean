import DualShell.Scope.Registry
import DualShell.Script
import DualShell.Statement.Render
import DualShell.Switch

/-!
Plans of scripts. A plan collects scopes, names to clear, statements and one switch; a script is
written from it in a fixed order: header, cleared variables, function definitions, search path,
statements, dispatch, footer. Edits of different kinds do not interfere with each other.
-/

namespace DualShell

structure ScriptPlan where
  scopes : ScopeRegistry
  /-- The variables that the script clears before anything else runs, by name or alias. -/
  unset : List Text
  statements : List Statement
  switch : Option Switch
  deriving DecidableEq

structure Definition where
  label : Text
  text : Text
  deriving DecidableEq

def LibraryFunction.toDefinition (family : Family) (function : LibraryFunction) : Definition :=
  ⟨function.name, function.definition family⟩

def Scope.toDefinition (family : Family) (scope : Scope) : Except RenderError Definition :=
  (scope.render family).map fun text => ⟨scope.label, text⟩

namespace ScriptPlan

def defaultUnset : List Text := ["path", "javaHome", "libraryPath"]

def new : ScriptPlan := ⟨.empty, defaultUnset, [], none⟩

def addScope (plan : ScriptPlan) (scope : Scope) : Except ScriptError ScriptPlan :=
  (plan.scopes.register scope).map fun scopes => { plan with scopes := scopes }

def addUnset (plan : ScriptPlan) (name : Text) : ScriptPlan :=
  { plan with unset := plan.unset ++ [name] }

def addStatement (plan : ScriptPlan) (s : Statement) : ScriptPlan :=
  { plan with statements := plan.statements ++ [s] }

/-- Puts a switch in the place of an earlier one. -/
def switchOn (plan : ScriptPlan) (switch : Switch) : ScriptPlan :=
  { plan with switch := some switch }

/-- The statements that the script runs: those ahead of the dispatch, then the dispatch. -/
def body (plan : ScriptPlan) : List Statement :=
  plan.statements ++ (plan.switch.map Switch.toStatement).toList

/-- The functions that the script has to define; every script can abort. -/
def required (plan : ScriptPlan) (family : Family) : NameSet :=
  NameSet.ofList (LibraryFunction.abort.name :: Statement.calleesOfItems family plan.body)

def assemble (plan : ScriptPlan) (family : Family) (definitions : List Definition) (body : Text) :
    Script where
  family := family
  text :=
    Token.beginScript.literal family ++ Variable.unsetSection plan.unset family ++
      Token.beginFunctions.literal family ++ definitions.flatMap (·.text) ++
      Token.endFunctions.literal family ++ Variable.resetPath family ++ body ++
      Token.endScript.literal family
  functions := definitions.map (·.label)

def write (plan : ScriptPlan) (family : Family) : Except RenderError Script := do
  let library ← LibraryFunction.resolve family plan.scopes.labels (plan.required family).names
  let scopes ← traverse (Scope.toDefinition family) plan.scopes.scopes
  let body ← Statement.renderItems family plan.body
  let others := library.filter (· ≠ .abort)
  return plan.assemble family
    (LibraryFunction.abort.toDefinition family ::
      scopes ++ others.map (LibraryFunction.toDefinition family)) body

def build (plan : ScriptPlan) (family : Family) : Except ScriptError Script :=
  (plan.write family).mapError ScriptError.render

inductive Edit where
  | scope (added : Scope)
  | unset (name : Text)
  | statement (added : Statement)
  | switch (table : Switch)
  deriving DecidableEq

/-- The plan after an edit, or why the edit is refused. -/
def Edit.apply (plan : ScriptPlan) : Edit → Except ScriptError ScriptPlan
  | .scope added => plan.addScope added
  | .unset name => .ok (plan.addUnset name)
  | .statement added => .ok (plan.addStatement added)
  | .switch table => .ok (plan.switchOn table)

/-- The plan after an edit; a refused edit leaves it as it was. -/
def edit (plan : ScriptPlan) (change : Edit) : ScriptPlan :=
  match change.apply plan with
  | .ok changed => changed
  | .error _ => plan

def editAll (plan : ScriptPlan) (changes : List Edit) : ScriptPlan := changes.foldl edit plan

end ScriptPlan

end DualShell
