import DualShell.Proofs.Expansion
import DualShell.Proofs.ShownStatements
import DualShell.Text.Reader

/-!
The assignments that a scope writes on Unix, read back as a shell reads them: a value goes up to the first
double quote without a backslash before it. What is read is what was written, name by name and value by
value, whatever characters the values hold; no value ends early, and none takes in the line after it.
-/

namespace DualShell

open Passes

namespace ExportReading

/-- What a backslash between double quotes and the character after it stand for. Before a dollar sign it
would hide a reference, and at the end of a line it would join two lines: neither is a value as it was
given, and neither is read. -/
def escaped? (c : Char) : Option Text :=
  if ("\"\\\x60" : Text).contains c then some [c]
  else if ("$\n" : Text).contains c then none
  else some ['\\', c]

/-- Reads a value and the double quote that closes it; `escaped` says whether a backslash stands before the
text. References stay as they are. A backquote without a backslash would start a command, and there is no
reading of it. -/
def readValueFrom? : Bool → Text → Option (Text × Text)
  | _, [] => none
  | true, c :: rest => do
    let first ← escaped? c
    let (others, after) ← readValueFrom? false rest
    return (first ++ others, after)
  | false, c :: rest =>
    if c = '"' then some ([], rest)
    else if c = '\\' then readValueFrom? true rest
    else if c = '\x60' then none
    else do
      let (others, after) ← readValueFrom? false rest
      return (c :: others, after)

def value : Reader Text := readValueFrom? false

/-- Reads the name and the value of an exported variable, with the line feed after them. -/
def assignment : Reader (Text × Text) := do
  Reader.exactly "export "
  let name ← Reader.takeWhile (· ≠ '=')
  Reader.exactly "=\""
  let value ← value
  Reader.char '\n'
  return (name, value)

/-- Whether a text is read as these assignments, to its end. -/
inductive Reads : Text → List (Text × Text) → Prop
  | done : Reads [] []
  | assignment {text rest : Text} {first : Text × Text} {others : List (Text × Text)} :
    assignment.run text = some (first, rest) → Reads rest others → Reads text (first :: others)

/-- A text is read in one way only. -/
theorem Reads.unique {text : Text} {assignments others : List (Text × Text)}
    (h : Reads text assignments) (hother : Reads text others) : assignments = others := by
  induction h generalizing others with
  | done =>
    cases hother with
    | done => rfl
    | assignment hfirst => cases hfirst
  | assignment hfirst _ ih =>
    cases hother with
    | done => cases hfirst
    | assignment hfirst' hrest' =>
      obtain ⟨rfl, rfl⟩ := Prod.mk.inj (Option.some.inj (hfirst.symm.trans hfirst'))
      rw [ih hrest']

/-! ### One assignment -/

/-- A value in double quotes is read up to its closing quote, whatever follows. -/
theorem readValueFrom?_doubleQuoted (t rest : Text) :
    readValueFrom? false (Quoting.doubleQuoted t ++ '"' :: rest) = some (t, rest) := by
  induction t with
  | nil => rfl
  | cons c others ih =>
    rw [Quoting.doubleQuoted, List.flatMap_cons, ← Quoting.doubleQuoted, List.append_assoc]
    by_cases hescaped : Quoting.isEscapedInDoubleQuotes c = true
    · have hfirst : escaped? c = some [c] := by
        rw [Quoting.isEscapedInDoubleQuotes] at hescaped
        exact if_pos (by simpa [or_assoc] using hescaped)
      rw [if_pos hescaped, List.cons_append, List.singleton_append, readValueFrom?, readValueFrom?,
        hfirst, ih]
      rfl
    · have hplain : c ≠ '"' ∧ c ≠ '\\' ∧ c ≠ '\x60' := by
        simpa [Quoting.isEscapedInDoubleQuotes, and_assoc] using hescaped
      rw [if_neg hescaped, List.singleton_append, readValueFrom?, if_neg hplain.1, if_neg hplain.2.1,
        if_neg hplain.2.2, ih]
      rfl

theorem run_exactly_append (expected rest : Text) :
    (Reader.exactly expected).run (expected ++ rest) = some ((), rest) := by
  have hprefix : expected.isPrefixOf (expected ++ rest) = true :=
    List.isPrefixOf_iff_prefix.mpr (List.prefix_append _ _)
  change (if _ then _ else _) = _
  rw [if_pos hprefix, List.drop_left]

theorem run_takeWhile_append {p : Char → Bool} {taken rest : Text} {c : Char}
    (htaken : ∀ d ∈ taken, p d = true) (hc : ¬p c = true) :
    (Reader.takeWhile p).run (taken ++ c :: rest) = some (taken, c :: rest) := by
  change some (_, _) = _
  rw [List.takeWhile_append_of_pos htaken, List.dropWhile_append_of_pos htaken,
    List.takeWhile_cons_of_neg hc, List.dropWhile_cons_of_neg hc, List.append_nil]

theorem run_assignment {key : Text} (h : '=' ∉ key) (value rest : Text) :
    assignment.run (Family.unix.line (Variable.exportLine key value .unix) ++ rest) =
      some ((Variable.exportedName key, value), rest) := by
  have hcontent : Variable.exportLine key value .unix =
      "export " ++ Variable.exportedName key ++ "=\"" ++ Quoting.doubleQuoted value ++ "\"" := rfl
  have hline : Family.unix.line (Variable.exportLine key value .unix) ++ rest =
      ("export " : Text) ++ (Variable.exportedName key ++
        '=' :: '"' :: (Quoting.doubleQuoted value ++ '"' :: '\n' :: rest)) := by
    rw [hcontent, Family.line, Family.lineEnd]
    simp only [List.append_assoc]
    rfl
  have hkey : ∀ after, (Reader.takeWhile (· ≠ '=')).run (Variable.exportedName key ++ '=' :: after) =
      some (Variable.exportedName key, '=' :: after) := by
    have hequals := Variable.not_mem_exportedName (by decide) (by decide) h
    exact fun after => run_takeWhile_append
      (fun c hc => decide_eq_true (ne_of_mem_of_not_mem hc hequals)) (by decide)
  have hopening : ∀ after, (Reader.exactly "=\"").run ('=' :: '"' :: after) = some ((), after) :=
    run_exactly_append "=\""
  have hvalue : ExportReading.value.run (Quoting.doubleQuoted value ++ '"' :: '\n' :: rest) =
      some (value, '\n' :: rest) :=
    readValueFrom?_doubleQuoted value _
  rw [hline, assignment]
  simp only [StateT.run_bind, run_exactly_append, hkey, hopening, hvalue, Option.bind_eq_bind,
    Option.bind_some]
  rfl

/-! ### Whole blocks -/

/-- Whether an assignment gives the variable of an entry the expanded value. -/
def Assigns (entry assigned : Text × Text) : Prop :=
  assigned.1 = Variable.exportedName entry.1 ∧ Template.expand .unix entry.2 = .ok assigned.2

/-- Entries with known tokens are written as their assignments, one line after the other. -/
theorem exists_reads {entries : List (Text × Text)} (hkeys : ∀ entry ∈ entries, '=' ∉ entry.1)
    (hknown : ∀ entry ∈ entries, Template.IsKnown entry.2) :
    ∃ lines assignments,
      traverse (fun entry => (Template.expand .unix entry.2).map fun value =>
        Family.unix.line (Variable.exportLine entry.1 value .unix)) entries = .ok lines ∧
      List.Forall₂ Assigns entries assignments ∧ Reads lines.flatten assignments := by
  induction entries with
  | nil => exact ⟨[], [], rfl, .nil, .done⟩
  | cons entry rest ih =>
    obtain ⟨hkey, hkeys⟩ := List.forall_mem_cons.mp hkeys
    obtain ⟨hfirst, hknown⟩ := List.forall_mem_cons.mp hknown
    obtain ⟨value, hvalue⟩ := Template.exists_expand_eq_ok.mpr hfirst
    obtain ⟨lines, assignments, hlines, hassigns, hreads⟩ := ih hkeys hknown
    refine ⟨Family.unix.line (Variable.exportLine entry.1 value .unix) :: lines,
      (Variable.exportedName entry.1, value) :: assignments, ?_, .cons ⟨rfl, hvalue⟩ hassigns,
      .assignment (run_assignment hkey value lines.flatten) hreads⟩
    exact traverse_cons_eq_ok.mpr ⟨_, _, map_eq_ok.mpr ⟨value, hvalue, rfl⟩, hlines, rfl⟩

end ExportReading

/-- An expansion fails with the leftmost placeholder that names no token, and with nothing else. -/
theorem Template.expand_eq_error_iff {family : Family} {template : Text} {e : RenderError} :
    expand family template = .error e ↔
      ∃ i name, IsFirstUnknown template i name ∧ e = .unresolvedToken name family := by
  constructor
  · intro h
    have hunknown : ¬∀ i name, StandsAt template i name → ∃ token : Token, token.name = name := by
      intro hall
      have hknown : IsKnown template := fun name hname => by
        obtain ⟨i, hstands⟩ := exists_standsAt_iff.mpr hname
        exact hall i name hstands
      obtain ⟨t, ht⟩ := (@exists_expand_eq_ok family template).mpr hknown
      rw [h] at ht
      cases ht
    obtain ⟨i, name, hfirst⟩ := exists_isFirstUnknown hunknown
    exact ⟨i, name, hfirst, Except.error.inj (h.symm.trans (hfirst.expand_eq_error family))⟩
  · rintro ⟨i, name, hfirst, rfl⟩
    exact hfirst.expand_eq_error family

/-- With known tokens, and with no equals sign in a key, the block that exports variables is read in one
way: as the assignments of the expanded values, in order. A block cannot be written exactly when a value
has an unknown token, and the first such value fails with the leftmost of them. -/
theorem Variable.reads_exportSection (exported : Variables) :
    ((∀ key ∈ exported.keys, '=' ∉ key) →
      (∀ entry ∈ exported.entries, Template.IsKnown entry.2) →
      ∃ text assignments, exportSection exported .unix = .ok text ∧
        List.Forall₂ ExportReading.Assigns exported.entries assignments ∧
        ∀ read, ExportReading.Reads text read ↔ read = assignments) ∧
    ∀ e, exportSection exported .unix = .error e ↔
      ∃ before entry after position name, exported.entries = before ++ entry :: after ∧
        (∀ earlier ∈ before, Template.IsKnown earlier.2) ∧
        Template.IsFirstUnknown entry.2 position name ∧ e = .unresolvedToken name .unix := by
  refine ⟨fun hkeys hknown => ?_, fun e => ?_⟩
  · have hentries : ∀ entry ∈ exported.entries, '=' ∉ entry.1 :=
      fun entry hentry => hkeys entry.1 (List.mem_map_of_mem hentry)
    obtain ⟨lines, assignments, hlines, hassigns, hreads⟩ :=
      ExportReading.exists_reads hentries hknown
    refine ⟨lines.flatten, assignments, map_eq_ok.mpr ⟨lines, hlines, rfl⟩, hassigns, fun read => ?_⟩
    constructor
    · exact fun hread => hread.unique hreads
    · rintro rfl
      exact hreads
  · rw [exportSection, Text.collect, map_eq_error, traverse_eq_error_iff]
    simp only [map_eq_error, exists_map_eq_ok, Template.exists_expand_eq_ok,
      Template.expand_eq_error_iff, exists_and_left, exists_and_right]

/-- Two variables: a line of the first value looks like an assignment of the second. -/
def Variable.quotingVariables : Variables :=
  ⟨[("noteText", "a\"\x60\\{lf}export PATH=\"b\\\""), ("PATH", "c\\")], by decide⟩

theorem Variable.reads_exportSection_quotingVariables :
    (∀ key ∈ quotingVariables.keys, '=' ∉ key) ∧
    (∀ entry ∈ quotingVariables.entries, Template.IsKnown entry.2) ∧
    ∃ text, exportSection quotingVariables .unix = .ok text ∧
      ∀ read, ExportReading.Reads text read ↔
        read = [⟨"NOTE_TEXT", "a\"\x60\\\nexport PATH=\"b\\\""⟩, ⟨"PATH", "c\\"⟩] := by
  have hkeys : ∀ key ∈ quotingVariables.keys, '=' ∉ key := by decide
  have hknown : ∀ entry ∈ quotingVariables.entries, Template.IsKnown entry.2 := by
    simp only [← @Template.exists_expand_eq_ok .unix, exists_eq_ok_iff]
    decide
  obtain ⟨text, assignments, htext, hassigns, hread⟩ :=
    (reads_exportSection quotingVariables).1 hkeys hknown
  obtain ⟨first, _, hfirst, hrest, rfl⟩ := List.forall₂_cons_left_iff.mp hassigns
  obtain ⟨second, _, hsecond, hnil, rfl⟩ := List.forall₂_cons_left_iff.mp hrest
  obtain rfl := List.forall₂_nil_left_iff.mp hnil
  have hnote : first = ⟨"NOTE_TEXT", "a\"\x60\\\nexport PATH=\"b\\\""⟩ :=
    Prod.ext (hfirst.1.trans (by decide)) (Except.ok.inj (hfirst.2.symm.trans (by decide)))
  have hpath : second = ⟨"PATH", "c\\"⟩ :=
    Prod.ext (hsecond.1.trans (by decide)) (Except.ok.inj (hsecond.2.symm.trans (by decide)))
  rw [hnote, hpath] at hread
  exact ⟨hkeys, hknown, text, htext, hread⟩

end DualShell
