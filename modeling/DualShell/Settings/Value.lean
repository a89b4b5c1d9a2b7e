import DualShell.Settings

/-!
The values that sources give to settings, and settings read from such values. A setting takes
values of one kind only, and a value of another kind makes the settings unreadable.
-/

namespace DualShell

inductive SettingValue where
  | text (t : Text)
  | integer (n : Int)
  | flag (b : Bool)
  /-- A value of a kind that no setting takes: a fraction, a date, a list or a table. -/
  | other
  deriving DecidableEq

namespace Settings

/-- Where the settings come from: the value of each setting, if it has one. -/
abbrev Source := Setting → Option SettingValue

namespace Source

def empty : Source := fun _ => none

/-- The values of one source where it has any, else those of another. -/
def orElse (first second : Source) : Source := fun setting => (first setting).or (second setting)

/-- The last value that an environment gives to each setting, read in some way from its text. Names
of variables are compared without regard to case. -/
def ofVariables (read : Text → SettingValue) (environment : List (Text × Text)) : Source :=
  fun setting =>
    (environment.findRev? (Text.upper ·.1 = setting.environmentName)).map fun entry => read entry.2

/-- The optional text that a source gives to a setting; the outer result is none where the value is
not a text. -/
def text? (source : Source) (setting : Setting) : Option (Option Text) :=
  match source setting with
  | none => some none
  | some (.text t) => some (some t)
  | some _ => none

/-- Sizes are below this bound: they have 64 bits. -/
def sizeBound : Nat := 18446744073709551616

def size? (source : Source) (setting : Setting) : Option (Option Nat) :=
  match source setting with
  | none => some none
  | some (.integer n) => if 0 ≤ n ∧ n < sizeBound then some (some n.toNat) else none
  | some _ => none

def flag? (source : Source) (setting : Setting) : Option (Option Bool) :=
  match source setting with
  | none => some none
  | some (.flag b) => some (some b)
  | some _ => none

end Source

/-- The settings with the values of a source in the place of the defaults, unless some value is not
of its setting's kind. -/
def ofSource? (source : Source) : Option Settings := do
  let family ← source.text? .defaultFamily
  let home ← source.text? .defaultHome
  let logDirectory ← source.text? .defaultLogDirectory
  let limit ← source.size? .payloadLimit
  let failOnOversize ← source.flag? .failOnOversize
  return ⟨family.getD default.defaultFamily, home, logDirectory,
    limit.getD default.payloadLimit, failOnOversize.getD default.failOnOversize⟩

end Settings

end DualShell
