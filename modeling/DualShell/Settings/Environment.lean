import DualShell.Settings.Value
import DualShell.Text.Quoted

/-!
Settings in environment variables. A value is written as a truth value, an integer, a fraction, a
text in quotes, a list or a table, and as nothing else it is a plain text. White space around it
does not count.
-/

namespace DualShell.SettingValue

/-- White space in ASCII, the vertical tab left out. -/
def isGap (c : Char) : Bool := c == ' ' || c == '\t' || c == '\n' || c == '\x0c' || c == '\r'

/-- Characters that structure lists and tables, which end a value without quotes. -/
def isStructure (c : Char) : Bool := (",\x7b\x7d[]" : Text).contains c

/-- Integers without a sign are below this bound. -/
def unsignedBound : Int := 18446744073709551616

/-- Negative integers are not below the negative of this bound. -/
def negativeBound : Int := 9223372036854775808

/-- The value of a word without quotes: an integer that is too large is a text. -/
def ofWord (word : Text) : SettingValue :=
  if Text.isFraction word then .other
  else
    match Text.readInteger? word with
    | some n => if -negativeBound ≤ n ∧ n < unsignedBound then .integer n else .text word
    | none => .text word

/-- Reads a text in double quotes. If there is an escape, only as many bytes of the text before the
first escape are kept as that text has characters, which is all of it in ASCII. -/
def readQuotedText : Reader Text := do
  Reader.char '"'
  let plain ← Reader.takeWhile fun c => c != '"' && c != '\\' && !Text.isControl c
  let follower ← Reader.peek?
  let others ← Text.readQuotedFrom? '"' 0
  let kept := if follower = some '\\' then Text.takeBytes plain.length plain else plain
  return kept ++ others

def readFieldName : Reader Unit := do
  Reader.skipWhile isGap
  let _ ← readQuotedText <|> (do
    let name ← Reader.takeWhile fun c => c.isAlphanum || c == '_' || c == '-'
    guard (name ≠ [])
    return name)
  Reader.skipWhile isGap

/-- Reads a value in which lists and tables are nested at most `depth` deep. -/
def readNested : Nat → Reader SettingValue
  | 0 => failure
  | depth + 1 => do
    let element := readNested depth
    let field : Reader SettingValue := do
      readFieldName
      Reader.char '='
      element
    let truth (word : Text) (b : Bool) : Reader SettingValue := do
      Reader.exactly word
      return .flag b
    let untyped : Reader SettingValue := do
      match ← Reader.peek? with
      | some '\x7b' =>
        let _ ← Reader.bracketed '\x7b' '\x7d' (pure ()) true field
        return .other
      | some '[' =>
        let _ ← Reader.bracketed '[' ']' (pure ()) true element
        return .other
      | some '"' => return .text (← readQuotedText)
      | some '\'' =>
        Reader.char '\''
        let c ← Reader.satisfying fun _ => true
        Reader.char '\''
        return .text [c]
      | _ => return ofWord (Text.trim (← Reader.takeWhile fun c => !isStructure c))
    Reader.skipWhile isGap
    let value ← truth "true" true <|> truth "false" false <|> untyped
    Reader.skipWhile isGap
    return value

/-- Whether a value starts with a bracket or a quote. -/
def isEnclosed (t : Text) : Bool :=
  match t.head? with
  | none => false
  | some c => c == '[' || c == '\x7b' || c == '"' || c == '\''

/-- The value of an environment variable. A comma makes a list of it, unless a bracket or a quote
comes first; what cannot be read as a value is a text. -/
def ofEnvironment (raw : Text) : SettingValue :=
  let trimmed := Text.trim raw
  if trimmed.contains ',' && !isEnclosed trimmed then .other
  else ((readNested (trimmed.length + 1)).readAll? trimmed).getD (.text trimmed)

end DualShell.SettingValue

namespace DualShell.Settings

def Source.ofEnvironment (environment : List (Text × Text)) : Source :=
  ofVariables SettingValue.ofEnvironment environment

end DualShell.Settings
