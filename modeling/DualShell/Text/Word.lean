import DualShell.Text

/-!
Whole words. Occurrences of a word are taken from left to right without overlap, and one counts as
a whole word when the characters on both sides of it are not word characters.
-/

namespace DualShell.Text

/-- Whether a word can end next to this neighbour; there is none at either end of the text. -/
def isWordBoundary : Option Char → Bool
  | none => true
  | some c => !isWordChar c

/--
Replaces the whole-word occurrences of `word`. `before` is the character to the left of the text,
and `skip` counts the characters left of an occurrence that has already been written.
-/
def replaceWordFrom (word replacement : Text) : Option Char → Nat → Text → Text
  | _, _, [] => []
  | _, skip + 1, c :: rest => replaceWordFrom word replacement (some c) skip rest
  | before, 0, c :: rest =>
    if word.isPrefixOf (c :: rest) then
      let after := ((c :: rest).drop word.length).head?
      (if isWordBoundary before && isWordBoundary after then replacement else word) ++
        replaceWordFrom word replacement (some c) (word.length - 1) rest
    else c :: replaceWordFrom word replacement (some c) 0 rest

/--
The text with every whole-word occurrence of `word` replaced; unchanged when there is no word to
look for or nothing to change.
-/
def replaceWord (word replacement text : Text) : Text :=
  if word = [] ∨ word = replacement then text
  else replaceWordFrom word replacement none 0 text

/-- The character that marks the places of a word while they are counted. -/
def wordMark : Char := '\x00'

/--
The number of marks in the text once every whole-word occurrence of `word` is replaced by the mark.
Marks that the text holds already are counted with them.
-/
def countWord (word text : Text) : Nat :=
  (replaceWord word [wordMark] text).count wordMark

theorem replaceWord_self (word text : Text) : replaceWord word word text = text := by
  simp [replaceWord]

end DualShell.Text
