import DualShell.Family
import DualShell.Text.Lines

/-!
Finished scripts, with a summary of their size and of the functions that they define.
-/

namespace DualShell

structure Script where
  family : Family
  text : Text
  /-- The labels of the functions that the script defines, in the order of definition. -/
  functions : List Text
  deriving DecidableEq

structure Diagnostics where
  family : Family
  bytes : Nat
  lines : Nat
  functions : List Text
  deriving DecidableEq

namespace Script

def bytes (script : Script) : Nat := Text.utf8Size script.text

/-- Whether the script is larger than a number of bytes. -/
def exceeds (script : Script) (limit : Nat) : Bool := script.bytes > limit

def diagnostics (script : Script) : Diagnostics :=
  ⟨script.family, script.bytes, (Text.lines script.text).length, script.functions⟩

end Script

namespace Diagnostics

def quoted (label : Text) : Text := '"' :: label ++ ['"']

/-- The summary as a JSON object on one line. Labels are identifiers, so nothing in them needs an
escape. -/
def json (d : Diagnostics) : Text :=
  "\x7b\"family\":" ++ quoted d.family.name ++ ",\"bytes\":" ++ Text.ofNat d.bytes ++
    ",\"lines\":" ++ Text.ofNat d.lines ++ ",\"functions\":[" ++
    Text.join "," (d.functions.map quoted) ++ "]\x7d"

end Diagnostics

end DualShell
