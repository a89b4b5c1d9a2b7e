import DualShell.Toml.Value

/-!
Settings files in the TOML format. A file is read line by line into what its lines say, and the
lines are carried out in order: a header names the table that the keys after it belong to. A file in
which one line cannot be read or carried out is no document.
-/

namespace DualShell.Toml

inductive Line where
  | field (key : Key) (value : SettingValue)
  /-- The header of a table. -/
  | table (key : Key)
  /-- The header of one more table in a list of tables. -/
  | element (key : Key)

def header (opening closing : Text) : Reader Key := do
  Reader.exactly opening
  let path ← key
  Reader.exactly closing
  return path

def line : Reader Line := do
  let read ← (Line.element <$> header "[[" "]]") <|> (Line.table <$> header "[" "]") <|> (do
    let (path, v) ← field value
    return .field path v)
  blanks
  let rest ← get
  guard (rest = [] ∨ rest.head? = some '#' ∨ startsWithLineEnd rest)
  return read

/-- Reads the lines of a file, at most as many as `fuel` says. -/
def linesFrom : Nat → Reader (List Line)
  | 0 => failure
  | fuel + 1 => do
    skipLines
    match ← Reader.peek? with
    | none => return []
    | some _ =>
      let first ← line
      let others ← linesFrom fuel
      return first :: others

/-- The lines of a file. Every line has a character, so there are no more of them. -/
def lines? (content : Text) : Option (List Line) :=
  (linesFrom (content.length + 1)).readAll? content

/-- A file as far as it has been carried out: the names of the table that keys belong to, and what
has been set. -/
structure Document where
  place : List Text
  entries : Entries

namespace Document

def empty : Document := ⟨[], []⟩

def carryOut? (document : Document) : Line → Option Document
  | .field key value => do
    let entries ← changeAt? .implied (fun _ inner => setValue? key value inner) .header
      document.place document.entries
    return ⟨document.place, entries⟩
  | .table key => do return ⟨key.tables ++ [key.name], ← openTable? key document.entries⟩
  | .element key => do return ⟨key.tables ++ [key.name], ← openElement? key document.entries⟩

def ofLines? (lines : List Line) : Option Document := lines.foldlM carryOut? empty

/-- The character that may stand before the content to mark its byte order. -/
def byteOrderMark : Char := '\ufeff'

def read? (content : Text) : Option Document := do
  let unmarked := if content.head? = some byteOrderMark then content.tail else content
  ofLines? (← lines? unmarked)

def get? (document : Document) (name : Text) : Option SettingValue :=
  (document.entries.get? name).map fun
    | .value v => v
    | .table _ _ | .element _ => .other

end Document

end DualShell.Toml
