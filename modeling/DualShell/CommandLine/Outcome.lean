import DualShell.CommandLine.LogFilter
import DualShell.CommandLine.Program
import DualShell.CommandLine.Words
import DualShell.Settings.File

/-!
The program with the libraries that it is run with.
-/

namespace DualShell.CommandLine

def Libraries.standard : Libraries where
  read := readWords
  load surroundings := Settings.load? surroundings.files surroundings.environment
  showsWarnings? := LogFilter.showsWarnings?

/-- The outcome of a command line, given the environment and the files that can be read. -/
def outcome (arguments : List Text) (environment files : List (Text × Text)) : Outcome :=
  Libraries.standard.outcome arguments ⟨environment, files⟩

end DualShell.CommandLine
