import DualShell.Traverse

/-!
Texts are lists of characters, so that every rule on them is a structural recursion. This module
holds the operations the whole library shares: case folding and word characters in ASCII, size in
UTF-8, joining with a separator, and collecting what may fail to be written.
-/

namespace DualShell

/-- A script, a line of it, or a name in it, as a list of characters. -/
abbrev Text := List Char

/-- A string literal stands for the text of its characters. -/
instance : Coe String Text := ⟨String.toList⟩

/-- Characters that make up identifiers: ASCII letters, ASCII digits and the underscore. -/
def isWordChar (c : Char) : Bool := c.isAlphanum || c == '_'

namespace Text

/-- ASCII letters in upper case; every other character is kept. -/
def upper (t : Text) : Text := t.map Char.toUpper

def lower (t : Text) : Text := t.map Char.toLower

/-- A non-empty text of ASCII digits. -/
def isNumeral (t : Text) : Bool := !t.isEmpty && t.all Char.isDigit

/-- The number of bytes of the text in UTF-8. -/
def utf8Size : Text → Nat
  | [] => 0
  | c :: rest => c.utf8Size + utf8Size rest

/-- The characters at the start of the text that fit into a number of bytes. -/
def takeBytes : Nat → Text → Text
  | _, [] => []
  | size, c :: rest =>
    if c.utf8Size ≤ size then c :: takeBytes (size - c.utf8Size) rest else []

def join (separator : Text) (parts : List Text) : Text := separator.intercalate parts

def ofNat (n : Nat) : Text := Nat.toDigits 10 n

/-- The texts written for the items, one after the other, or the first failure. -/
def collect {α ε : Type} (write : α → Except ε Text) (items : List α) : Except ε Text :=
  (traverse write items).map List.flatten

theorem upper_append (s t : Text) : upper (s ++ t) = upper s ++ upper t := by
  simp [upper]

theorem join_cons {separator : Text} {rest : List Text} (h : rest ≠ []) (part : Text) :
    join separator (part :: rest) = part ++ (separator ++ join separator rest) := by
  rw [join, List.intercalate_cons_of_ne_nil h, List.append_assoc, join]

theorem join_append {separator : Text} {before after : List Text} (hbefore : before ≠ [])
    (hafter : after ≠ []) :
    join separator (before ++ after) = join separator before ++ (separator ++ join separator after) := by
  induction before with
  | nil => exact absurd rfl hbefore
  | cons part rest ih =>
    by_cases hrest : rest = []
    · subst hrest
      rw [List.singleton_append, join_cons hafter, join, join, List.intercalate_singleton]
    · rw [List.cons_append, join_cons (List.append_ne_nil_of_left_ne_nil hrest after), join_cons hrest,
        ih hrest]
      simp only [List.append_assoc]

theorem utf8Size_append (s t : Text) : utf8Size (s ++ t) = utf8Size s + utf8Size t := by
  induction s with
  | nil => simp [utf8Size]
  | cons c rest ih => simp [utf8Size, ih, Nat.add_assoc]

end Text

end DualShell
