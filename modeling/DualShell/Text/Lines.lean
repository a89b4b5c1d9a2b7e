import DualShell.Text

/-!
The lines of a text. A line ends at a line feed; one carriage return before that line feed belongs
to the line's end, any other carriage return to the line. A last line that no line feed ends counts
when it is not empty.
-/

namespace DualShell.Text

/-- The lines of a text without their ends. -/
def lines : Text → List Text
  | [] => []
  | c :: rest =>
    if c = '\n' then [] :: lines rest
    else if c = '\r' ∧ rest.head? = some '\n' then lines rest
    else
      match lines rest with
      | [] => [[c]]
      | line :: others => (c :: line) :: others

theorem lines_lf (t : Text) : lines ('\n' :: t) = [] :: lines t := by
  simp [lines]

theorem lines_crlf (t : Text) : lines ('\r' :: '\n' :: t) = [] :: lines t := by
  simp [lines]

end DualShell.Text
