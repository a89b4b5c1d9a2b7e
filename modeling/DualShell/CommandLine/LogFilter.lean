import DualShell.Text.Split

/-!
Log filters. A filter is a list of directives between commas, and each directive sets the level from
which on messages of a target are shown; the longest target that a message's own starts with decides.
-/

namespace DualShell.CommandLine.LogFilter

/-- The target of the program's own messages. -/
def ownTarget : Text := "scriptgen"

/-- The level of warnings; graver messages have lower levels. -/
def warningLevel : Nat := 2

def readLevel? (word : Text) : Option Nat :=
  let levels : List (Text × Nat) :=
    [("off", 0), ("error", 1), ("warn", 2), ("info", 3), ("debug", 4), ("trace", 5),
      ("0", 0), ("1", 1), ("2", 2), ("3", 3), ("4", 4), ("5", 5)]
  (levels.find? (·.1 = word.lower)).map Prod.snd

/-- Directives without a level show everything, and those without a target are about all of them. -/
def readDirective? (directive : Text) : Option (Text × Nat) :=
  match Text.split '=' directive, readLevel? directive with
  | [_], some level => some ([], level)
  | [target], none => some (target, 5)
  | [target, level], _ => (readLevel? level).map (target, ·)
  | _, _ => none

/-- The level from which on the program's messages are shown. -/
def ownLevel (directives : List (Text × Nat)) : Nat :=
  let own := directives.filter fun directive => directive.1.isPrefixOf ownTarget
  (own.foldl (fun best directive => if best.1.length ≤ directive.1.length then directive else best)
    ([], 0)).2

/-- Whether a filter lets the program's warnings through. An empty one shows errors only. -/
def showsWarnings? (filter : Text) : Option Bool := do
  let directives ← ((Text.split ',' filter).filter (· ≠ [])).mapM readDirective?
  return warningLevel ≤ ownLevel directives

end DualShell.CommandLine.LogFilter
