import DualShell.RenderError
import DualShell.Token

/-!
Templates are texts with placeholders. A placeholder is an opening brace, one or more ASCII letters
and digits, and a closing brace; any other brace stands for itself. Expanding a template writes the
literal of each placeholder's token once and copies everything else, so that a literal is never
read as a template again.
-/

namespace DualShell

/-- A part of a template: a character that is copied, or a placeholder. -/
inductive Piece where
  | plain (c : Char)
  | placeholder (name : Text)
  deriving DecidableEq, Repr

namespace Piece

/-- The text that the piece was read from. -/
def source : Piece → Text
  | .plain c => [c]
  | .placeholder name => '{' :: name ++ ['}']

def expand (family : Family) : Piece → Except RenderError Text
  | .plain c => .ok [c]
  | .placeholder name =>
    match Token.ofName? name with
    | some token => .ok (token.literal family)
    | none => .error (.unresolvedToken name family)

end Piece

namespace Template

/-- The name of the placeholder whose opening brace stands just before this text. -/
def openedName? (after : Text) : Option Text :=
  let name := after.takeWhile Char.isAlphanum
  if name ≠ [] ∧ (after.drop name.length).head? = some '}' then some name else none

/--
The pieces of a template in order. The characters of a name and the closing brace are plain pieces
of the text after the opening brace, and the placeholder takes their place.
-/
def pieces : Text → List Piece
  | [] => []
  | c :: rest =>
    if c = '{' then
      match openedName? rest with
      | some name => .placeholder name :: (pieces rest).drop (name.length + 1)
      | none => .plain c :: pieces rest
    else .plain c :: pieces rest

/-- The template with every placeholder replaced by its token's literal for the family. -/
def expand (family : Family) (template : Text) : Except RenderError Text :=
  Text.collect (Piece.expand family) (pieces template)

theorem pieces_alphanum {name : Text} (hname : ∀ c ∈ name, c.isAlphanum = true) (rest : Text) :
    pieces (name ++ rest) = name.map Piece.plain ++ pieces rest := by
  induction name with
  | nil => rfl
  | cons c others ih =>
    have hc : c ≠ '{' := by
      intro h
      subst h
      exact absurd (hname '{' (by simp)) (by decide)
    simp [pieces, hc, ih (fun d hd => hname d (by simp [hd]))]

end Template

end DualShell
