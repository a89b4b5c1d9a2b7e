import DualShell.Family

/-!
What can go wrong while a statement is written for a family, with the message for each cause.
-/

namespace DualShell

inductive RenderError where
  /-- A placeholder names no token. -/
  | unresolvedToken (name : Text) (family : Family)
  /-- A call names a function that nothing defines. -/
  | unknownFunction (name : Text) (family : Family)
  deriving DecidableEq, Repr

namespace RenderError

def message : RenderError → Text
  | .unresolvedToken name family =>
    "unresolved token `" ++ '{' :: name ++ '}' :: "` while rendering for " ++ family.name
  | .unknownFunction name family =>
    "function `" ++ name ++ "` is not defined for " ++ family.name ++ " scripts"

def family : RenderError → Family
  | .unresolvedToken _ family => family
  | .unknownFunction _ family => family

/-- The same cause, met while writing for another family. -/
def forFamily (other : Family) : RenderError → RenderError
  | .unresolvedToken name _ => .unresolvedToken name other
  | .unknownFunction name _ => .unknownFunction name other

end RenderError

end DualShell
