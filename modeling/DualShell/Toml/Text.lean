import DualShell.Text.Quoted

/-!
Texts of a settings file. A text stands on one line between single or double quotes, or on several
lines between three of them. On several lines, a line end directly after the opening quotes does not
count, and between double quotes a backslash at the end of a line folds the text: it takes out all
white space up to the next character.
-/

namespace DualShell.Toml

/-- White space inside a line. -/
def isBlank (c : Char) : Bool := c == ' ' || c == '\t'

/-- Whether a text starts with the end of a line: a line feed, with or without a carriage return
before it. -/
def startsWithLineEnd : Text → Bool
  | [] => false
  | c :: rest => c == '\n' || (c == '\r' && rest.head? == some '\n')

/-- The number of blanks and of characters of line ends with which a text starts. -/
def spaceLength : Text → Nat
  | [] => 0
  | c :: rest =>
    if isBlank c || startsWithLineEnd (c :: rest) then spaceLength rest + 1 else 0

/-- The length of the white space that a backslash before it takes out; there is none unless the
line ends after the backslash. -/
def foldLength? (t : Text) : Option Nat :=
  if startsWithLineEnd (t.dropWhile isBlank) then some (spaceLength t) else none

/-- Reads the rest of a text between three quotes. Up to two quotes directly before the closing ones
belong to the text, and every line end becomes a line feed. -/
def readBlockFrom? (quote : Char) : Nat → Text → Option (Text × Text)
  | _, [] => none
  | skip + 1, _ :: rest => readBlockFrom? quote skip rest
  | 0, c :: rest =>
    if c = quote ∧ rest.take 2 = [quote, quote] then
      let inner := ((rest.drop 2).takeWhile (· = quote)).take 2
      some (inner, rest.drop (2 + inner.length))
    else if c = '\\' ∧ quote = Text.escapingQuote then
      match foldLength? rest with
      | some width => readBlockFrom? quote width rest
      | none => do
        let (d, width) ← Text.readEscape? rest
        let (others, after) ← readBlockFrom? quote width rest
        return (d :: others, after)
    else if c = '\r' ∧ rest.head? = some '\n' then readBlockFrom? quote 0 rest
    else if Text.isControl c ∧ c ≠ '\n' then none
    else do
      let (others, after) ← readBlockFrom? quote 0 rest
      return (c :: others, after)

def lineEnd : Reader Unit := Reader.exactly "\n" <|> Reader.exactly "\x0d\n"

def block (quote : Char) : Reader Text := do
  Reader.exactly [quote, quote, quote]
  Reader.optionally lineEnd
  readBlockFrom? quote 0

def text : Reader Text :=
  block '"' <|> Reader.quoted '"' <|> block '\'' <|> Reader.quoted '\''

end DualShell.Toml
