import DualShell.Text.Numeral
import DualShell.Text.Reader

/-!
Quoted texts. Between double quotes a backslash starts an escape, which stands for a quote, a
backslash, a control character, or any character by its code point. Between single quotes every
character stands for itself.
-/

namespace DualShell.Text

/-- Control characters other than the tab; none of them may stand for itself. -/
def isControl (c : Char) : Bool := c != '\t' && (c < ' ' || c == '\x7f')

/-- The character that a letter after a backslash stands for. -/
def escaped? (c : Char) : Option Char :=
  if c = '"' ∨ c = '\\' then some c
  else if c = 'n' then some '\n'
  else if c = 't' then some '\t'
  else if c = 'r' then some '\r'
  else if c = 'b' then some '\x08'
  else if c = 'f' then some '\x0c'
  else none

/-- The character with a code point, where there is one. -/
def charOf? (code : Nat) : Option Char :=
  if h : code.isValidChar then some (Char.ofNatAux code h) else none

/-- The character whose code point the text starts with, in hexadecimal digits of which there are
`width`. -/
def readCodePoint? (width : Nat) (t : Text) : Option Char := do
  let digits := t.take width
  if digits.length = width then charOf? (← readInBase? 16 digits) else none

/-- The character that an escape stands for, and the length of the escape after its backslash. -/
def readEscape? : Text → Option (Char × Nat)
  | [] => none
  | c :: rest =>
    if c = 'u' then (readCodePoint? 4 rest).map (·, 5)
    else if c = 'U' then (readCodePoint? 8 rest).map (·, 9)
    else (escaped? c).map (·, 1)

def escapingQuote : Char := '"'

/-- Reads the rest of a text in quotes, up to the closing quote. `skip` counts the characters left
of an escape that has already been read. -/
def readQuotedFrom? (quote : Char) : Nat → Text → Option (Text × Text)
  | _, [] => none
  | skip + 1, _ :: rest => readQuotedFrom? quote skip rest
  | 0, c :: rest =>
    if c = quote then some ([], rest)
    else if c = '\\' ∧ quote = escapingQuote then do
      let (d, width) ← readEscape? rest
      let (others, after) ← readQuotedFrom? quote width rest
      return (d :: others, after)
    else if isControl c then none
    else do
      let (others, after) ← readQuotedFrom? quote 0 rest
      return (c :: others, after)

end DualShell.Text

namespace DualShell.Reader

/-- Reads a text in quotes. -/
def quoted (quote : Char) : Reader Text := do
  char quote
  Text.readQuotedFrom? quote 0

end DualShell.Reader
