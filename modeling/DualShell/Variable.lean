import DualShell.Distinct
import DualShell.Token

/-!
Shell variables: the names they are exported under, the references that read them, the aliases of
the variables that the families name differently, and the section of a script that clears them.
-/

namespace DualShell.Variable

/-- Whether a new word of a camel-case name can start after this character. -/
def endsWord : Option Char → Bool
  | none => false
  | some c => c.isLower || c.isDigit

/-- The name in upper case, with an underscore before each capital that starts a new word;
`before` is the character to the left. -/
def upperSnake : Option Char → Text → Text
  | _, [] => []
  | before, c :: rest =>
    if c.isUpper && endsWord before then '_' :: c :: upperSnake (some c) rest
    else c.toUpper :: upperSnake (some c) rest

/-- The name under which a key is exported. A key without lower-case letters already is one. -/
def exportedName (key : Text) : Text :=
  if key.any Char.isLower then upperSnake none key else key

/-- What reads a variable; a numeral names a positional argument. -/
def reference (name : Text) : Family → Text
  | .unix => '$' :: name
  | .windows => if Text.isNumeral name then '%' :: name else '%' :: name ++ ['%']

/-- The real name of the variable behind an alias, which some token lends it. -/
def realName? (name : Text) (family : Family) : Option Text :=
  (Token.ofName? (name ++ "Variable")).map (·.literal family)

/-- The real name behind an alias; any other name is its own. -/
def realName (family : Family) (name : Text) : Text := (realName? name family).getD name

/-- The lines that clear variables, each real name once and in the order of first appearance. -/
def unsetLines (names : List Text) (family : Family) : List Text :=
  match distinct (names.map (realName family)), family with
  | [], _ => []
  | cleared, .unix => ["unset " ++ Text.join " " cleared]
  | cleared, .windows => cleared.map fun name => "set " ++ name ++ "="

def unsetSection (names : List Text) (family : Family) : Text :=
  family.block (unsetLines names family)

def systemPath : Family → Text
  | .unix => "/usr/ucb/bin:/bin:/sbin:/usr/bin:/usr/sbin"
  | .windows => "c:\\windows\\;C:\\windows\\system32;c:\\windows\\system32\\wbem"

def resetPathLine : Family → Text
  | .unix => "export PATH=" ++ systemPath .unix
  | .windows => "set PATH=" ++ systemPath .windows

def resetPath (family : Family) : Text := family.line (resetPathLine family)

end DualShell.Variable
