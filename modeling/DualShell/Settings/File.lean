import DualShell.FilePath
import DualShell.Settings.Environment
import DualShell.Toml.Document

/-!
Settings in files. The first file that is found at one of some places is read. A file may extend
another, whose path is read from its own directory; what it sets itself goes before what it inherits.
Names in a file that belong to no setting have no effect.
-/

namespace DualShell.Settings

def fileName : Text := "scriptgen.toml"

def dotFileName : Text := "." ++ fileName

/-- The directory for files of the program within a directory for settings. -/
def programDirectory : Text := "scriptgen"

/-- The variables that say where settings are: the path of a file, a directory for settings, and the
directory of the user. -/
def placeVariables : List Text := ["SCRIPTGEN_CONFIG_PATH", "XDG_CONFIG_HOME", "HOME"]

/-- The places where a file is looked for, in their order. -/
def places (environment : List (Text × Text)) : List FilePath :=
  let given (name : Text) := (environment.findRev? (·.1 = name)).map Prod.snd
  let within (directory : Text) :=
    [directory ++ "/" ++ programDirectory ++ "/" ++ fileName, directory ++ "/" ++ dotFileName]
  let paths := (given "SCRIPTGEN_CONFIG_PATH").toList ++
    (given "XDG_CONFIG_HOME").toList.flatMap within ++
    (given "HOME").toList.flatMap (fun home =>
      within (home ++ "/.config") ++ [home ++ "/" ++ dotFileName]) ++ [fileName]
  paths.filterMap FilePath.ofText?

/-- The name under which a file gives the path of the file that it extends. -/
def extendsKey : Text := "extends"

/-- The file that the document at a path extends, if any; the outer result is none where a document
extends what is no file. -/
def extended? (path : FilePath) (document : Toml.Document) : Option (Option FilePath) :=
  match document.get? extendsKey with
  | none => some none
  | some (.text base) => (FilePath.ofText? base).map fun p => some (path.beside p)
  | some _ => none

def contentAt? (files : List (Text × Text)) (path : FilePath) : Option Text :=
  (files.findRev? fun file =>
    (FilePath.ofText? file.1).map FilePath.resolvedText = some path.resolvedText).map Prod.snd

namespace Source

/-- What the file at a path sets or inherits. Files that extend each other in a circle are told by
`fuel`: there are not so many files. -/
def ofFileAt? (files : List (Text × Text)) : Nat → FilePath → Option Source
  | 0, _ => none
  | fuel + 1, path => do
    let document ← Toml.Document.read? (← contentAt? files path)
    let own : Source := fun setting => document.get? setting.key
    match ← extended? path document with
    | none => return own
    | some base => return own.orElse (← ofFileAt? files fuel base)

def ofFiles? (files environment : List (Text × Text)) : Option Source :=
  match (places environment).find? fun path => (contentAt? files path).isSome with
  | none => some empty
  | some path => ofFileAt? files files.length path

end Source

/-- The settings of files and an environment; the environment wins, and either wins over the
defaults. -/
def load? (files environment : List (Text × Text)) : Option Settings := do
  let fromFiles ← Source.ofFiles? files environment
  ofSource? ((Source.ofEnvironment environment).orElse fromFiles)

end DualShell.Settings
