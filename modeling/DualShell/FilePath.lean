import DualShell.Text.Split

/-!
Paths of files. A path is read as its components: repeated slashes and components that stay where
they are do not count. A path whose last component is the parent directory, or that has no component
at all, names no file.
-/

namespace DualShell

structure FilePath where
  absolute : Bool
  /-- The components before the last. -/
  directory : List Text
  fileName : Text
  deriving DecidableEq

namespace FilePath

def currentDirectory : Text := "."

def parentDirectory : Text := ".."

/-- The components of a path that lead somewhere. -/
def components (path : Text) : List Text :=
  (Text.split '/' path).filter fun part => part ≠ [] ∧ part ≠ currentDirectory

/-- The path of a file, unless it names none. -/
def ofText? (path : Text) : Option FilePath :=
  match (components path).reverse with
  | [] => none
  | last :: before =>
    if last = parentDirectory then none
    else some ⟨path.head? = some '/', before.reverse, last⟩

/-- The components of a directory with every step to a parent taken back. -/
def resolve (parts : List Text) : List Text :=
  (parts.foldl
    (fun taken part =>
      if part = parentDirectory ∧ taken ≠ [] ∧ taken.head? ≠ some parentDirectory then taken.tail
      else part :: taken) []).reverse

def write (absolute : Bool) (parts : List Text) : Text :=
  (if absolute then ['/'] else []) ++ Text.join "/" parts

/-- The directory as it was given. -/
def directoryText (path : FilePath) : Text := write path.absolute path.directory

def text (path : FilePath) : Text := write path.absolute (path.directory ++ [path.fileName])

/-- The place of the file without steps to parents. -/
def resolvedText (path : FilePath) : Text :=
  write path.absolute (resolve path.directory ++ [path.fileName])

/-- The file that a path names when it is read from the directory of another file. -/
def beside (other path : FilePath) : FilePath :=
  if path.absolute then path else { path with
    absolute := other.absolute
    directory := other.directory ++ path.directory }

end FilePath

end DualShell
