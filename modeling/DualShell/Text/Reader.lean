import DualShell.Text

/-!
Readers take a value from the front of a text and leave the rest. A reader that fails takes nothing,
so that an alternative to it starts at the same place.
-/

namespace DualShell

/-- Takes a value from the front of a text, if it finds one there, and leaves the rest. -/
abbrev Reader (α : Type) := StateT Text Option α

namespace Reader

variable {α : Type}

/-- What a reader makes of a text that it reads to the end. -/
def readAll? (reader : Reader α) (t : Text) : Option α :=
  match reader.run t with
  | some (a, []) => some a
  | _ => none

def satisfying (p : Char → Bool) : Reader Char := fun t =>
  match t with
  | [] => none
  | c :: rest => if p c then some (c, rest) else none

def char (c : Char) : Reader Unit := fun t =>
  match t with
  | [] => none
  | d :: rest => if d = c then some ((), rest) else none

def exactly (expected : Text) : Reader Unit := fun t =>
  if expected.isPrefixOf t then some ((), t.drop expected.length) else none

/-- Reads the characters of a class up to the first of another. -/
def takeWhile (p : Char → Bool) : Reader Text := fun t => some (t.takeWhile p, t.dropWhile p)

def skipWhile (p : Char → Bool) : Reader Unit := fun t => some ((), t.dropWhile p)

def peek? : Reader (Option Char) := fun t => some (t.head?, t)

/-- Reads what is there of something that may be missing. -/
def optionally (reader : Reader Unit) : Reader Unit := reader <|> pure ()

/-- Reads items with separators between them, at most as many as `fuel` says. -/
def separatedFrom (separator : Reader Unit) (item : Reader α) : Nat → Reader (List α)
  | 0 => failure
  | fuel + 1 => do
    let first ← item
    let others ← (do
      separator
      separatedFrom separator item fuel) <|> pure []
    return first :: others

/-- Reads one or more items with separators between them. No separator is empty, so there are no
more than the characters left. -/
def separated (separator : Reader Unit) (item : Reader α) : Reader (List α) := do
  separatedFrom separator item ((← get).length + 1)

/-- Reads a list of items between brackets. The items are separated by commas, `gap` reads what may
stand around them, and `trailing` allows for a comma after the last. -/
def bracketed (opening closing : Char) (gap : Reader Unit) (trailing : Bool) (item : Reader α) :
    Reader (List α) := do
  let comma : Reader Unit := do
    char ','
    gap
  let itemAndGap : Reader α := do
    let a ← item
    gap
    return a
  char opening
  gap
  let items ← (do
    let items ← separated comma itemAndGap
    if trailing then optionally comma
    return items) <|> pure []
  char closing
  return items

end Reader

end DualShell
