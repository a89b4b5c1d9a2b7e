import DualShell.Label
import DualShell.Quoting
import DualShell.Variable

/-!
Dispatch tables over written bodies: the arm whose value the subject variable has is run, and a
value without an arm runs nothing. The Windows interpreter compares labels without regard to case,
so arms are numbered there instead of being named after their values. How a value becomes a pattern
of a POSIX shell is left to whoever writes the table.
-/

namespace DualShell.Dispatch

/-- An arm of a table: the value it is for, and the lines that it runs. -/
abbrev Arm := Text × Text

/-- The clause of an arm, whose value `word` writes as a pattern. -/
def unixArm (word : Text → Text) (arm : Arm) : Text :=
  Family.unix.line (word arm.1 ++ ")") ++ arm.2 ++ Family.unix.line "   ;;"

def unixTable (word : Text → Text) (subject : Text) (arms : List Arm) : Text :=
  Family.unix.line ("case " ++ Variable.reference subject .unix ++ " in") ++
    arms.flatMap (unixArm word) ++ Family.unix.line "esac"

def gotoLine (label : Text) : Text := "goto " ++ label

/-- The test that jumps to the arm at an index. -/
def windowsTest (subject value : Text) (index : Nat) : Text :=
  Family.windows.line ("if \"" ++ Variable.reference subject .windows ++ "\" == \"" ++ value ++
    "\" " ++ gotoLine (Label.arm index))

def windowsArm (body : Text) (index : Nat) : Text :=
  Family.windows.line (':' :: Label.arm index) ++ body ++
    Family.windows.line (gotoLine Label.endSwitch)

def windowsTable (subject : Text) (arms : List Arm) : Text :=
  (arms.zipIdx.flatMap fun arm => windowsTest subject arm.1.1 arm.2) ++
    Family.windows.line (gotoLine Label.endSwitch) ++
    (arms.zipIdx.flatMap fun arm => windowsArm arm.1.2 arm.2) ++
    Family.windows.line (':' :: Label.endSwitch)

def table (subject : Text) (arms : List Arm) : Family → Text
  | .unix => unixTable Quoting.shellWord subject arms
  | .windows => windowsTable subject arms

end DualShell.Dispatch
