import DualShell.Family

/-!
What a command line can ask for. The first word names a command, and flags with or without a value
follow it. Reading the words gives a command, a text about the program, or nothing.
-/

namespace DualShell.CommandLine

inductive Flag where
  | name
  | home
  | logDirectory
  | family
  | exported
  | init
  | run
  | output
  | diagnostics
  deriving DecidableEq, Repr

namespace Flag

/-- How the flag is written, after two hyphens. -/
def spelling : Flag → Text
  | .name => "name"
  | .home => "home"
  | .logDirectory => "log-dir"
  | .family => "family"
  | .exported => "export"
  | .init => "init"
  | .run => "run"
  | .output => "output"
  | .diagnostics => "diagnostics"

def takesValue (flag : Flag) : Bool := flag ≠ .diagnostics

def ofRender : List Flag :=
  [.name, .home, .logDirectory, .family, .exported, .init, .run, .output, .diagnostics]

def ofFunctions : List Flag := [.family]

end Flag

/-- A flag as it occurs; its value is empty when it takes none. -/
abbrev Occurrence := Flag × Text

def valuesOf (flag : Flag) (occurrences : List Occurrence) : List Text :=
  (occurrences.filter (·.1 = flag)).map Prod.snd

structure RenderRequest where
  name : Text
  home : Option Text
  logDirectory : Option Text
  family : Option Family
  /-- Variables for the run script, each a key, an equals sign and a value. -/
  exports : List Text
  init : List Text
  run : List Text
  /-- The path of the file that receives the script, if it is not printed. -/
  output : Option Text
  diagnostics : Bool
  deriving DecidableEq

inductive Command where
  /-- Writes a control script. -/
  | render (request : RenderRequest)
  /-- Lists the library functions, or prints their definitions for a family. -/
  | functions (family : Option Family)
  deriving DecidableEq

/-- What the words of a command line come to when they are read. -/
inductive Reading where
  | command (command : Command)
  /-- The words ask for a text about the program. -/
  | help (text : Text)
  | refused
  deriving DecidableEq

end DualShell.CommandLine
