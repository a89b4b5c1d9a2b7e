import DualShell.Text.Blank

/-!
The two families of command shells a script is written for: POSIX `sh` and the Windows command
interpreter. A family has a name, and it ends lines in its own way.
-/

namespace DualShell

inductive Family where
  | unix
  | windows
  deriving DecidableEq, Repr

/-- A text that names no family, as it was given. -/
structure UnknownFamily where
  text : Text
  deriving DecidableEq, Repr

def UnknownFamily.message (e : UnknownFamily) : Text :=
  "unknown OS family `" ++ e.text ++ "`: expected `unix` or `windows`"

namespace Family

def all : List Family := [.unix, .windows]

def name : Family → Text
  | .unix => "unix"
  | .windows => "windows"

def ofName? (name : Text) : Option Family := all.find? (·.name = name)

/-- The family named by a text, whatever its case and the white space around it. -/
def parse (text : Text) : Except UnknownFamily Family :=
  match ofName? (Text.trim text).lower with
  | some family => .ok family
  | none => .error ⟨text⟩

/-- What ends a line of a script. -/
def lineEnd : Family → Text
  | .unix => "\n"
  | .windows => "\r\n"

def line (family : Family) (content : Text) : Text := content ++ family.lineEnd

def block (family : Family) (contents : List Text) : Text := contents.flatMap family.line

theorem ofName?_name (family : Family) : ofName? family.name = some family := by
  cases family <;> decide

theorem block_append (family : Family) (xs ys : List Text) :
    family.block (xs ++ ys) = family.block xs ++ family.block ys := by
  simp [block]

end Family

end DualShell
