import DualShell.Toml.Moment
import DualShell.Toml.Number
import DualShell.Toml.Text
import DualShell.Toml.Tree

/-!
Keys and values of a settings file. A key is one name or several with points between them, each in
quotes or of letters, digits, underscores and hyphens. A value is a text, an integer, a fraction, a
truth value, a date, a list, or a table in braces.
-/

namespace DualShell.Toml

def isNameChar (c : Char) : Bool := c.isAlphanum || c == '_' || c == '-'

def name : Reader Text :=
  Reader.quoted '"' <|> Reader.quoted '\'' <|> (do
    let t ← Reader.takeWhile isNameChar
    guard (t ≠ [])
    return t)

def blanks : Reader Unit := Reader.skipWhile isBlank

/-- Values are nested less deep than this, and keys have fewer names. -/
def nestingBound : Nat := 80

/-- Reads a key with the blanks around its names. -/
def key : Reader Key := do
  let names ← Reader.separated (Reader.char '.') do
    blanks
    let t ← name
    blanks
    return t
  guard (names.length < nestingBound)
  match names.reverse with
  | [] => failure
  | last :: before => return ⟨before.reverse, last⟩

/-- What follows the blanks, comments and line ends at the start of a text. A comment ends at a
control character; `inComment` says whether the text starts inside one. -/
def dropLines (inComment : Bool) : Text → Text
  | [] => []
  | c :: rest =>
    if startsWithLineEnd (c :: rest) then dropLines false rest
    else if inComment then if Text.isControl c then c :: rest else dropLines true rest
    else if isBlank c then dropLines false rest
    else if c = '#' then dropLines true rest
    else c :: rest

def skipLines : Reader Unit := fun t => some ((), dropLines false t)

def truth (word : Text) (b : Bool) : Reader SettingValue := do
  Reader.exactly word
  return .flag b

/-- Reads what stands for a value of no setting. -/
def unsettable (reader : Reader Unit) : Reader SettingValue := do
  reader
  return .other

/-- Reads a key, an equals sign and a value. -/
def field (value : Reader SettingValue) : Reader (Key × SettingValue) := do
  let path ← key
  Reader.char '='
  blanks
  return (path, ← value)

/-- Reads a value in which lists and tables are nested less than `depth` deep. -/
def valueNested : Nat → Reader SettingValue
  | 0 => failure
  | depth + 1 => do
    let inner := valueNested depth
    let list : Reader SettingValue := unsettable do
      guard (depth ≠ 0)
      let _ ← Reader.bracketed '[' ']' skipLines true inner
    let table : Reader SettingValue := unsettable do
      guard (depth ≠ 0)
      let fields ← Reader.bracketed '\x7b' '\x7d' blanks false (field inner)
      let _ ← ofFields? fields
    (SettingValue.text <$> text) <|> list <|> table <|>
      truth "true" true <|> truth "false" false <|>
      unsettable moment <|> unsettable fraction <|> (SettingValue.integer <$> integer)

def value : Reader SettingValue := valueNested nestingBound

end DualShell.Toml
