import DualShell.Text

/-!
The ways in which a script quotes text: inside double quotes, as a single shell word, and as the
argument of a batch `echo`.
-/

namespace DualShell.Quoting

/-- Characters that a backslash keeps from their meaning inside POSIX double quotes; the dollar sign
is not among them, so that references are still read. -/
def isEscapedInDoubleQuotes (c : Char) : Bool := c == '"' || c == '\\' || c == '\x60'

def doubleQuoted (t : Text) : Text :=
  t.flatMap fun c => if isEscapedInDoubleQuotes c then ['\\', c] else [c]

/-- Characters that a shell word holds without quoting. -/
def isPlainInWord (c : Char) : Bool :=
  c.isAlphanum || ("-_=/,.+" : Text).contains c

/-- Characters that step out of single quotes and are written after a backslash. -/
def isEscapedInSingleQuotes (c : Char) : Bool := c == '\'' || c == '!'

/-- The text as one POSIX shell word, in single quotes unless it can stand bare. -/
def shellWord (t : Text) : Text :=
  if !t.isEmpty && t.all isPlainInWord then t
  else
    '\'' :: (t.flatMap fun c =>
      if isEscapedInSingleQuotes c then ['\'', '\\', c, '\''] else [c]) ++ ['\'']

/-- Characters that a batch line reads as operators outside double quotes. -/
def isBatchOperator (c : Char) : Bool := ("^&|<>()" : Text).contains c

/-- What `echo` needs to read in a batch file to print the text; `quoted` says whether a double
quote is open to the left. -/
def batchEchoFrom : Bool → Text → Text
  | _, [] => []
  | quoted, c :: rest =>
    if c = '"' then c :: batchEchoFrom (!quoted) rest
    else if c = '%' then '%' :: '%' :: batchEchoFrom quoted rest
    else if isBatchOperator c && !quoted then '^' :: c :: batchEchoFrom quoted rest
    else c :: batchEchoFrom quoted rest

/-- The argument that makes a batch `echo` print the line: percent signs are doubled, and operators
outside double quotes follow a caret. -/
def batchEcho (line : Text) : Text := batchEchoFrom false line

end DualShell.Quoting
