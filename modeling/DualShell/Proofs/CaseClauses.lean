import DualShell.Dispatch
import DualShell.Proofs.ShellReading

/-!
The `case` command of a POSIX shell. Its clauses are tried in order, and the first one whose pattern
matches the word is run. A pattern without quotes can match several words; a text that is written as one
shell word is a pattern that matches this text and no other.
-/

namespace DualShell

namespace CasePattern

open ShellReading

/-- Signs other than quotes that have a meaning outside quotes, in a pattern or to the shell that reads
it. -/
def signs : Text := "$\x60*?[]!~#&;|<>() \t\n"

/-- Signs that open quotes, or quote the next character. -/
def quotes : Text := "'\"\\"

/-- What a character of a pattern stands for, if only for itself or for nothing: quotes stand for nothing,
and what is quoted stands for itself. -/
def meaning? : QuoteState → Char → Option Text
  | .bare, c =>
    if QuoteState.next .bare c ≠ .bare then some [] else if signs.contains c then none else some [c]
  | .escaped, c => some (if c = '\n' then [] else [c])
  | .single, c => some (if c = '\'' then [] else [c])
  | .double, c =>
    if QuoteState.next .double c ≠ .double then some []
    else if c = '$' ∨ c = '\x60' then none else some [c]
  | .doubleEscaped, c =>
    some (if c = '\n' then [] else if ("$\x60\"\\" : Text).contains c then [c] else ['\\', c])

/-- The only text that the rest of a pattern matches, read from a state on. Nothing is said of a pattern
with a sign that stands for something else. -/
def literalFrom? : QuoteState → Text → Option Text
  | state, [] => if state = .bare then some [] else none
  | state, c :: rest => do
    let first ← meaning? state c
    let others ← literalFrom? (state.next c) rest
    return first ++ others

/-- The only text that the pattern matches. -/
def literal? (pattern : Text) : Option Text := literalFrom? .bare pattern

theorem isPlainInWord_eq_false {c : Char} (h : c ∈ quotes ++ signs) :
    Quoting.isPlainInWord c = false := by
  have hall : (quotes ++ signs).all (fun sign => !Quoting.isPlainInWord sign) = true := by decide
  simpa using List.all_eq_true.mp hall c h

theorem not_mem_of_isPlainInWord {c : Char} (h : Quoting.isPlainInWord c = true) :
    c ∉ quotes ∧ c ∉ signs := by
  rw [← not_or, ← List.mem_append]
  intro hmem
  rw [isPlainInWord_eq_false hmem] at h
  cases h

theorem next_bare_of_isPlainInWord {c : Char} (h : Quoting.isPlainInWord c = true) :
    QuoteState.next .bare c = .bare := by
  have hne {quote : Char} (hquote : quote ∈ quotes) : c ≠ quote :=
    (ne_of_mem_of_not_mem hquote (not_mem_of_isPlainInWord h).1).symm
  rw [QuoteState.next, if_neg (hne (by decide)), if_neg (hne (by decide)), if_neg (hne (by decide))]

theorem meaning?_bare_of_isPlainInWord {c : Char} (h : Quoting.isPlainInWord c = true) :
    meaning? .bare c = some [c] := by
  have hsign : ¬signs.contains c = true :=
    mt List.contains_iff_mem.mp (not_mem_of_isPlainInWord h).2
  rw [meaning?, next_bare_of_isPlainInWord h, if_neg (by simp), if_neg hsign]

theorem literalFrom?_plain {t : Text} (h : ∀ c ∈ t, Quoting.isPlainInWord c = true) :
    literalFrom? .bare t = some t := by
  induction t with
  | nil => rfl
  | cons c rest ih =>
    obtain ⟨hc, hrest⟩ := List.forall_mem_cons.mp h
    rw [literalFrom?, meaning?_bare_of_isPlainInWord hc, next_bare_of_isPlainInWord hc, ih hrest]
    rfl

theorem literalFrom?_quoted (t : Text) :
    literalFrom? .single ((t.flatMap fun c =>
      if Quoting.isEscapedInSingleQuotes c then ['\'', '\\', c, '\''] else [c]) ++ ['\'']) = some t := by
  induction t with
  | nil => rfl
  | cons c rest ih =>
    rw [List.flatMap_cons, List.append_assoc]
    split
    · next hescaped =>
      -- the quotes are closed, the character stands after a backslash, and quotes are opened again
      have hlf : c ≠ '\n' := by
        rintro rfl
        exact absurd hescaped (by decide)
      simp only [List.cons_append, List.nil_append, literalFrom?, meaning?, QuoteState.next]
      simp [hlf, ih]
    · next hplain =>
      have hquote : c ≠ '\'' := by
        rintro rfl
        exact hplain rfl
      rw [List.singleton_append, literalFrom?, meaning?, if_neg hquote, QuoteState.next, if_neg hquote, ih]
      rfl

/-- A text as one shell word is a pattern for this text. -/
theorem literal?_shellWord (t : Text) : literal? (Quoting.shellWord t) = some t := by
  rw [literal?, Quoting.shellWord]
  split
  · next hplain =>
    rw [Bool.and_eq_true, List.all_eq_true] at hplain
    exact literalFrom?_plain hplain.2
  · have hquoted := literalFrom?_quoted t
    rw [List.cons_append, literalFrom?]
    simp [meaning?, QuoteState.next, hquoted]

end CasePattern

/-- A `case` command: the word that it looks at, and its clauses, each a pattern and what is run for it. -/
structure CaseCommand where
  word : Text
  clauses : List (Text × Text)

namespace CaseCommand

def text (command : CaseCommand) : Text :=
  Family.unix.line ("case " ++ command.word ++ " in") ++
    (command.clauses.flatMap fun clause =>
      Family.unix.line (clause.1 ++ ")") ++ clause.2 ++ Family.unix.line "   ;;") ++
    Family.unix.line "esac"

/-- The clause that is run when the word stands for a value: the first whose pattern matches it. -/
def selected (command : CaseCommand) (value : Text) : Option (Text × Text) :=
  command.clauses.find? fun clause => CasePattern.literal? clause.1 = some value

end CaseCommand

namespace Dispatch

/-- The `case` command of a table whose values `word` writes as patterns. -/
def caseCommand (word : Text → Text) (subject : Text) (arms : List Arm) : CaseCommand :=
  ⟨Variable.reference subject .unix, arms.map fun arm => (word arm.1, arm.2)⟩

theorem text_caseCommand (word : Text → Text) (subject : Text) (arms : List Arm) :
    (caseCommand word subject arms).text = unixTable word subject arms := by
  rw [CaseCommand.text, caseCommand, List.flatMap_map]
  rfl

/-- The clauses stand in the order of the arms, and each matches the value of its arm only. -/
theorem selected_caseCommand {word : Text → Text}
    (hword : ∀ t, CasePattern.literal? (word t) = some t) (subject : Text) (arms : List Arm)
    (value : Text) :
    (caseCommand word subject arms).selected value =
      (arms.find? (·.1 = value)).map fun arm => (word arm.1, arm.2) := by
  rw [CaseCommand.selected, caseCommand, List.find?_map]
  congr 2
  funext arm
  simp [hword]

end Dispatch

end DualShell
