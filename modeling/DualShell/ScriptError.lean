import DualShell.RenderError

/-!
What can go wrong while a script is put together, with the message for each cause.
-/

namespace DualShell

/-- The arguments that must not be blank. -/
inductive RequiredArgument where
  | scopeName
  | instanceName
  | instanceHome
  | logDirectory
  deriving DecidableEq, Repr

def RequiredArgument.name : RequiredArgument → Text
  | .scopeName => "scope_name"
  | .instanceName => "instance_name"
  | .instanceHome => "instance_home"
  | .logDirectory => "log_dir"

inductive ScriptError where
  | missingArgument (argument : RequiredArgument)
  /-- An instance has nothing to run. -/
  | noRunStatements (instanceName : Text)
  /-- A name has the label of a function or a place that scripts define themselves. -/
  | reservedName (name : Text)
  /-- A name has the label of another scope. -/
  | nameConflict (name existing : Text)
  /-- The assembled statements cannot be written. -/
  | render (cause : RenderError)
  deriving DecidableEq, Repr

def ScriptError.message : ScriptError → Text
  | .missingArgument argument => "missing required argument: " ++ argument.name
  | .noRunStatements instanceName =>
    "at least one run statement required for instance `" ++ instanceName ++ "`"
  | .reservedName name => "scope name `" ++ name ++ "` is reserved"
  | .nameConflict name existing =>
    "scope name `" ++ name ++ "` clashes with scope `" ++ existing ++ "`"
  | .render cause => cause.message

end DualShell
