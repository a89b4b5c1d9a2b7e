import DualShell.Settings.Value
import DualShell.Table

/-!
The tables of a settings file. A key is a path through tables that leads to a value, and a header is
a path that leads to a table. Tables that are missing on the way come into being; no value is set
twice, no table has two headers, and keys do not add to a table that has a header.
-/

namespace DualShell.Toml

/-- A name, and the names of the tables on the way to it. -/
structure Key where
  tables : List Text
  name : Text
  deriving DecidableEq

/-- What a table owes its existence to. -/
inductive Origin where
  /-- It has a header, or is the table of the whole file. -/
  | header
  /-- It lies on the way to a table with a header. -/
  | implied
  /-- It lies on the way to a value. -/
  | dotted
  deriving DecidableEq

inductive Node where
  | value (v : SettingValue)
  | table (origin : Origin) (entries : List (Text × Node))
  /-- The last table of a list of tables; nothing can change in those before it. -/
  | element (entries : List (Text × Node))

/-- What stands in a table. -/
abbrev Entries := List (Text × Node)

def Entries.get? (entries : Entries) (name : Text) : Option Node :=
  (entries.find? (·.1 = name)).map Prod.snd

/-- Changes the table at the end of a path. Tables that are missing on the way owe their existence
to `via`, and a path through keys does not go through a table with a header. -/
def changeAt? (via : Origin) (change : Origin → Entries → Option Entries) :
    Origin → List Text → Entries → Option Entries
  | origin, [], entries => change origin entries
  | _, name :: path, entries => do
    let node ←
      match entries.get? name with
      | none => (changeAt? via change via path []).map (.table via)
      | some (.value _) => none
      | some (.table origin inner) =>
        if via = .dotted ∧ origin = .header then none
        else (changeAt? via change origin path inner).map (.table origin)
      | some (.element inner) => (changeAt? via change .header path inner).map .element
    return insertEntry name node entries

def setValue? (key : Key) (value : SettingValue) : Entries → Option Entries :=
  changeAt? .dotted
    (fun origin entries =>
      if (key.tables ≠ [] ∧ origin ≠ .dotted) ∨ (entries.get? key.name).isSome then none
      else some (insertEntry key.name (.value value) entries))
    .header key.tables

def openTable? (key : Key) : Entries → Option Entries :=
  changeAt? .implied
    (fun _ entries =>
      match entries.get? key.name with
      | none => some (insertEntry key.name (.table .header []) entries)
      | some (.table .implied inner) => some (insertEntry key.name (.table .header inner) entries)
      | some _ => none)
    .header key.tables

def openElement? (key : Key) : Entries → Option Entries :=
  changeAt? .implied
    (fun _ entries =>
      match entries.get? key.name with
      | none | some (.element _) => some (insertEntry key.name (.element []) entries)
      | some _ => none)
    .header key.tables

/-- The table that holds the values of some keys. -/
def ofFields? (fields : List (Key × SettingValue)) : Option Entries :=
  fields.foldlM (fun entries field => setValue? field.1 field.2 entries) []

end DualShell.Toml
