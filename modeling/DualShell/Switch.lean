import DualShell.Statement.Basic

/-!
Switches collect the cases of a dispatch before it becomes a statement. A value has one case, and a
later case for a value replaces the earlier one where it stands.
-/

namespace DualShell

structure Switch where
  /-- The variable dispatched on; a numeral names a positional argument. -/
  subject : Text
  cases : Table Statement
  deriving DecidableEq

namespace Switch

def new (subject : Text) : Switch := ⟨subject, .empty⟩

/-- Adds a case at the end, or replaces the case for the value. -/
def add (switch : Switch) (value : Text) (body : Statement) : Switch :=
  { switch with cases := switch.cases.insert value body }

def ofCases (subject : Text) (cases : List (Text × Statement)) : Switch :=
  ⟨subject, Table.ofList cases⟩

/-- The variable that a switch dispatches on when none is named: the first positional argument. -/
def defaultSubject : Text := "1"

def values (switch : Switch) : List Text := switch.cases.keys

def toStatement (switch : Switch) : Statement := .switch switch.subject switch.cases.entries

end Switch

end DualShell
