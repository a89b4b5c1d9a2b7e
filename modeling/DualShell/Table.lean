import DualShell.Text

/-!
Tables map names to values and keep the names in the order in which they were first inserted.
Inserting a name again replaces its value and leaves its place, so no name occurs twice.
-/

namespace DualShell

variable {α : Type}

/-- Replaces the value of a name where it stands, or adds both at the end. -/
def insertEntry (name : Text) (value : α) : List (Text × α) → List (Text × α)
  | [] => [(name, value)]
  | (other, old) :: rest =>
    if other = name then (name, value) :: rest else (other, old) :: insertEntry name value rest

theorem mem_keys_insertEntry {name key : Text} {value : α} {entries : List (Text × α)} :
    key ∈ (insertEntry name value entries).map Prod.fst ↔
      key = name ∨ key ∈ entries.map Prod.fst := by
  induction entries with
  | nil => simp [insertEntry]
  | cons entry rest ih =>
    obtain ⟨other, old⟩ := entry
    by_cases h : other = name
    · simp [insertEntry, h]
    · simp only [insertEntry, h, if_false, List.map_cons, List.mem_cons, ih]
      grind

theorem nodup_insertEntry (name : Text) (value : α) {entries : List (Text × α)}
    (h : (entries.map Prod.fst).Nodup) : ((insertEntry name value entries).map Prod.fst).Nodup := by
  induction entries with
  | nil => simp [insertEntry]
  | cons entry rest ih =>
    obtain ⟨other, old⟩ := entry
    rw [List.map_cons, List.nodup_cons] at h
    by_cases ho : other = name
    · subst ho
      simpa [insertEntry] using h
    · simp only [insertEntry, ho, if_false, List.map_cons, List.nodup_cons]
      refine ⟨?_, ih h.2⟩
      rw [mem_keys_insertEntry]
      exact fun hmem => hmem.elim ho h.1

structure Table (α : Type) where
  entries : List (Text × α)
  nodup : (entries.map Prod.fst).Nodup
  deriving DecidableEq

namespace Table

def empty : Table α := ⟨[], List.nodup_nil⟩

instance : Inhabited (Table α) := ⟨empty⟩

def insert (table : Table α) (name : Text) (value : α) : Table α :=
  ⟨insertEntry name value table.entries, nodup_insertEntry name value table.nodup⟩

def insertAll (table : Table α) (pairs : List (Text × α)) : Table α :=
  pairs.foldl (fun table pair => table.insert pair.1 pair.2) table

def ofList (pairs : List (Text × α)) : Table α := empty.insertAll pairs

def get? (table : Table α) (name : Text) : Option α :=
  (table.entries.find? (·.1 = name)).map Prod.snd

def keys (table : Table α) : List Text := table.entries.map Prod.fst

def size (table : Table α) : Nat := table.entries.length

def isEmpty (table : Table α) : Bool := table.entries.isEmpty

theorem insertAll_append (table : Table α) (xs ys : List (Text × α)) :
    table.insertAll (xs ++ ys) = (table.insertAll xs).insertAll ys := by
  simp [insertAll]

end Table

/-- Variables with their values, in the order in which a script assigns them. -/
abbrev Variables := Table Text

end DualShell
