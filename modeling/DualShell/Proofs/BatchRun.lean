import DualShell.Proofs.LabelLines
import Mathlib.Logic.Relation

/-!
How a batch script that tests one variable is run, line by line. A test jumps to a label when the
variable has the value tested, a jump does so always, a line that marks a place does nothing, and every
other line is performed. A line ends at a line feed; only the reference that a test starts with is taken
as a whole, whatever the name of its variable. So where the name stands on one line, the lines of the
script are those of its text.
-/

namespace DualShell

namespace Text

/-- The first line of a text without its end, and the text after it. -/
def cutLine : Text → Text × Text
  | [] => ([], [])
  | c :: rest =>
    if c = '\n' then ([], rest)
    else if c = '\r' ∧ rest.head? = some '\n' then ([], rest.tail)
    else (c :: (cutLine rest).1, (cutLine rest).2)

theorem length_cutLine_le (t : Text) : (cutLine t).2.length ≤ t.length := by
  induction t with
  | nil => exact Nat.le_refl _
  | cons c rest ih =>
    rw [cutLine]
    split
    · exact Nat.le_succ _
    · split
      · rw [List.length_tail, List.length_cons]
        omega
      · exact ih.trans (Nat.le_succ _)

theorem length_cutLine_lt {t : Text} (h : t ≠ []) : (cutLine t).2.length < t.length := by
  obtain ⟨c, rest, rfl⟩ := List.exists_cons_of_ne_nil h
  have hrest := length_cutLine_le rest
  rw [cutLine, List.length_cons]
  split
  · exact Nat.lt_succ_self _
  · split
    · rw [List.length_tail]
      omega
    · exact Nat.lt_succ_of_le hrest

theorem lines_eq_cons {t : Text} (h : t ≠ []) : lines t = (cutLine t).1 :: lines (cutLine t).2 := by
  induction t with
  | nil => exact absurd rfl h
  | cons c rest ih =>
    rw [lines, cutLine]
    split
    · rfl
    · split
      · next hend =>
        obtain ⟨others, rfl⟩ := List.head?_eq_some_iff.mp hend.2
        exact lines_lf others
      · by_cases hrest : rest = []
        · subst hrest
          rfl
        · rw [ih hrest]

/-- What stands on a line goes with its end, whatever stands after the line. -/
theorem cutLine_append {line : Text} (h : '\n' ∉ line) (rest : Text) :
    cutLine (line ++ '\n' :: rest) = ((cutLine (line ++ ['\n'])).1, rest) := by
  induction line with
  | nil => rfl
  | cons c others ih =>
    obtain ⟨hc, hothers⟩ := not_or.mp (mt List.mem_cons.mpr h)
    have hhead : (others ++ '\n' :: rest).head? = (others ++ ['\n']).head? := by
      rw [List.head?_append, List.head?_append, List.head?_cons, List.head?_cons]
    rw [List.cons_append, List.cons_append, cutLine, cutLine, if_neg (Ne.symm hc), if_neg (Ne.symm hc),
      hhead, ih hothers]
    split
    · next hend =>
      cases others with
      | nil => rfl
      | cons d more => simp_all
    · rfl

theorem cutLine_windows_line {line : Text} (h : '\n' ∉ line) (rest : Text) :
    cutLine (Family.windows.line line ++ rest) = (line, rest) := by
  induction line with
  | nil => rfl
  | cons c others ih =>
    obtain ⟨hc, hothers⟩ := not_or.mp (mt List.mem_cons.mpr h)
    have hline : Family.windows.line (c :: others) ++ rest =
        c :: (Family.windows.line others ++ rest) := rfl
    have hhead : (Family.windows.line others ++ rest).head? ≠ some '\n' := by
      cases others with
      | nil => simp [Family.line, Family.lineEnd]
      | cons d more =>
        obtain ⟨hd, -⟩ := not_or.mp (mt List.mem_cons.mpr hothers)
        simpa [Family.line] using Ne.symm hd
    rw [hline, cutLine, if_neg (Ne.symm hc), if_neg (fun hend => hhead hend.2), ih hothers]

/-- What stands before the first line of a text belongs to the line. -/
theorem cutLine_append_of_not_mem {front : Text} (h : '\n' ∉ front)
    (hlast : front.getLast? ≠ some '\r') (t : Text) :
    cutLine (front ++ t) = (front ++ (cutLine t).1, (cutLine t).2) := by
  induction front with
  | nil => rfl
  | cons c others ih =>
    obtain ⟨hc, hothers⟩ := not_or.mp (mt List.mem_cons.mpr h)
    have hend : ¬(c = '\r' ∧ (others ++ t).head? = some '\n') := by
      rintro ⟨rfl, hhead⟩
      cases others with
      | nil => exact hlast rfl
      | cons d more =>
        obtain rfl : d = '\n' := by simpa using hhead
        exact hothers List.mem_cons_self
    have hothersLast : others.getLast? ≠ some '\r' := by
      cases others with
      | nil => simp
      | cons d more => rwa [List.getLast?_cons_cons] at hlast
    rw [List.cons_append, cutLine, if_neg (Ne.symm hc), if_neg hend, ih hothers hothersLast]
    rfl

end Text

namespace BatchRun

/-- What a test of the variable behind a reference starts with, up to the value. -/
def testOpening (reference : Text) : Text := "if \"" ++ reference ++ "\" == \""

/-- What stands between the value and the label of a test. -/
def testMiddle : Text := "\" goto "

/-- The part of a first line that is taken as a whole: the opening of a test, if there is one. -/
def wholeOpening (opening script : Text) : Text :=
  if opening.isPrefixOf script then opening else []

/-- The lines of a script, without their ends, where the opening of a test is taken as a whole. -/
def scriptLines (opening : Text) : Text → List Text
  | [] => []
  | c :: rest =>
    let start := wholeOpening opening (c :: rest)
    let cut := Text.cutLine ((c :: rest).drop start.length)
    (start ++ cut.1) :: scriptLines opening cut.2
termination_by script => script.length
decreasing_by
  by_cases h : (c :: rest).drop (wholeOpening opening (c :: rest)).length = []
  · rw [h]
    exact Nat.succ_pos _
  · refine (Text.length_cutLine_lt h).trans_le ?_
    rw [List.length_drop]
    exact Nat.sub_le _ _

/-- A command of a batch script, as far as it decides which command is next. -/
inductive Command where
  | test (value label : Text)
  | jump (label : Text)
  | place (label : Text)
  | action (line : Text)
  deriving DecidableEq

/-- The value and the label of a test. -/
def test? (reference line : Text) : Option (Text × Text) := do
  let tested ← line.dropPrefix? (testOpening reference)
  let value := tested.takeWhile (· ≠ '"')
  let label ← (tested.drop value.length).dropPrefix? testMiddle
  return (value, label)

/-- The word that a line starts with, in lower case. -/
def commandWord (line : Text) : Text :=
  ((Text.split ' ' (line.dropWhile (· = ' '))).headD []).lower

/-- The label that a line jumps to, whatever the case. -/
def jump? (line : Text) : Option Text :=
  if commandWord line = "goto" then (Text.split ' ' (line.dropWhile (· = ' ')))[1]? else none

def Command.ofLine (reference line : Text) : Command :=
  match test? reference line, Label.marked? line, jump? line with
  | some (value, label), _, _ => .test value label
  | none, some label, _ => .place label
  | none, none, some label => .jump label
  | none, none, none => .action line

/-- The commands of a script in which the variable behind a reference is tested. -/
def commands (reference script : Text) : List Command :=
  (scriptLines (testOpening reference) script).map (Command.ofLine reference)

/-- A line that marks no place, is no jump and is no condition. -/
def IsStraight (line : Text) : Prop :=
  Label.marked? line = none ∧ commandWord line ≠ "goto" ∧ commandWord line ≠ "if"

instance (line : Text) : Decidable (IsStraight line) := inferInstanceAs (Decidable (_ ∧ _ ∧ _))

/-! ### The lines of a script -/

theorem commandWord_cons {c : Char} {word : Text} (hc : c ≠ ' ') (hword : ' ' ∉ word) (rest : Text) :
    commandWord (c :: word ++ ' ' :: rest) = Text.lower (c :: word) := by
  rw [commandWord, Label.words_cons hc hword]
  rfl

theorem exists_testOpening_eq (reference : Text) :
    ∃ more, testOpening reference = ("if " : Text) ++ more :=
  ⟨("\"" : Text) ++ reference ++ "\" == \"", rfl⟩

theorem commandWord_eq_if {line : Text} (h : ("if " : Text) <+: line) : commandWord line = "if" := by
  obtain ⟨rest, rfl⟩ := h
  have hword : ' ' ∉ ("f" : Text) := by decide
  exact commandWord_cons (by decide) hword rest

theorem not_prefix_testOpening {reference t : Text} (h : commandWord (Text.cutLine t).1 ≠ "if") :
    ¬testOpening reference <+: t := by
  rintro ⟨rest, rfl⟩
  obtain ⟨more, hmore⟩ := exists_testOpening_eq reference
  refine h (commandWord_eq_if ?_)
  rw [hmore, List.append_assoc, Text.cutLine_append_of_not_mem (by decide) (by decide)]
  exact List.prefix_append _ _

theorem scriptLines_eq_cons {opening script : Text} (h : script ≠ []) :
    scriptLines opening script =
      (wholeOpening opening script ++
          (Text.cutLine (script.drop (wholeOpening opening script).length)).1) ::
        scriptLines opening (Text.cutLine (script.drop (wholeOpening opening script).length)).2 := by
  obtain ⟨c, rest, rfl⟩ := List.exists_cons_of_ne_nil h
  rw [scriptLines]

theorem scriptLines_test {opening tail : Text} (h : '\n' ∉ tail) (rest : Text) :
    scriptLines opening (Family.windows.line (opening ++ tail) ++ rest) =
      (opening ++ tail) :: scriptLines opening rest := by
  have hsplit : Family.windows.line (opening ++ tail) ++ rest =
      opening ++ (Family.windows.line tail ++ rest) := by
    simp [Family.line]
  have hwhole : wholeOpening opening (opening ++ (Family.windows.line tail ++ rest)) = opening :=
    if_pos (List.isPrefixOf_iff_prefix.mpr (List.prefix_append _ _))
  have hne : opening ++ (Family.windows.line tail ++ rest) ≠ [] := by
    simp [Family.line, Family.lineEnd]
  rw [hsplit, scriptLines_eq_cons hne, hwhole, List.drop_left, Text.cutLine_windows_line h]

theorem scriptLines_of_not_test {opening script : Text} (hne : script ≠ [])
    (h : ¬opening <+: script) :
    scriptLines opening script =
      (Text.cutLine script).1 :: scriptLines opening (Text.cutLine script).2 := by
  have hwhole : wholeOpening opening script = [] :=
    if_neg (mt List.isPrefixOf_iff_prefix.mp h)
  rw [scriptLines_eq_cons hne, hwhole]
  rfl

/-- With the opening of a test on one line, nothing is taken as a whole that is not on one line. -/
theorem scriptLines_eq_lines {opening : Text} (h : '\n' ∉ opening)
    (hlast : opening.getLast? ≠ some '\r') (script : Text) :
    scriptLines opening script = Text.lines script := by
  -- a whole line is taken off at once, so the induction is on the length
  induction hlength : script.length using Nat.strong_induction_on generalizing script with
  | _ n ih =>
    by_cases hne : script = []
    · subst hne
      rw [scriptLines]
      rfl
    · have hcut : ((wholeOpening opening script ++
          (Text.cutLine (script.drop (wholeOpening opening script).length)).1),
          (Text.cutLine (script.drop (wholeOpening opening script).length)).2) =
          Text.cutLine script := by
        rw [wholeOpening]
        split
        · next hprefix =>
          obtain ⟨rest, rfl⟩ := List.isPrefixOf_iff_prefix.mp hprefix
          rw [List.drop_left, Text.cutLine_append_of_not_mem h hlast]
        · rfl
      obtain ⟨hfirst, hrest⟩ := Prod.ext_iff.mp hcut
      rw [scriptLines_eq_cons hne, Text.lines_eq_cons hne]
      simp only at hfirst hrest
      rw [hfirst, hrest, ih _ (hlength ▸ Text.length_cutLine_lt hne) _ rfl]

/-! ### The commands of a script -/

theorem test?_eq_none {reference line : Text} (h : commandWord line ≠ "if") :
    test? reference line = none := by
  have hnone : line.dropPrefix? (testOpening reference) = none := by
    cases hdrop : line.dropPrefix? (testOpening reference) with
    | none => rfl
    | some tested =>
      obtain ⟨opening, rfl, hopening⟩ := List.dropPrefix?_eq_some_iff.mp hdrop
      obtain rfl := beq_iff_eq.mp hopening
      obtain ⟨more, hmore⟩ := exists_testOpening_eq reference
      refine absurd (commandWord_eq_if ?_) h
      rw [hmore, List.append_assoc]
      exact List.prefix_append _ _
  rw [test?, hnone]
  rfl

theorem dropPrefix?_append (front rest : Text) : (front ++ rest).dropPrefix? front = some rest :=
  List.dropPrefix?_eq_some_iff.mpr ⟨front, rfl, beq_self_eq_true front⟩

theorem test?_test {value : Text} (h : '"' ∉ value) (reference label : Text) :
    test? reference (testOpening reference ++ (value ++ (testMiddle ++ label))) =
      some (value, label) := by
  have hvalue : (value ++ (testMiddle ++ label)).takeWhile (· ≠ '"') = value := by
    have hplain : ∀ c ∈ value, decide (c ≠ '"') = true := fun c hc =>
      decide_eq_true (ne_of_mem_of_not_mem hc h)
    have hstop : (testMiddle ++ label).takeWhile (· ≠ '"') = [] := rfl
    rw [List.takeWhile_append_of_pos hplain, hstop, List.append_nil]
  simp only [test?, dropPrefix?_append, Option.bind_eq_bind, Option.bind_some, hvalue,
    List.drop_left, Option.pure_def]

theorem ofLine_test {value : Text} (h : '"' ∉ value) (reference label : Text) :
    Command.ofLine reference (testOpening reference ++ (value ++ (testMiddle ++ label))) =
      .test value label := by
  rw [Command.ofLine, test?_test h]

theorem commandWord_place (label : Text) : commandWord (':' :: label) ≠ "if" := by
  rw [commandWord, List.dropWhile_cons_of_neg (by decide), Text.split_cons_of_ne (by decide)]
  simp [Text.lower]

theorem ofLine_place (reference label : Text) :
    Command.ofLine reference (':' :: label) = .place label := by
  rw [Command.ofLine, test?_eq_none (commandWord_place label)]
  rfl

theorem ofLine_gotoLine {label : Text} (h : ' ' ∉ label) (reference : Text) :
    Command.ofLine reference (Dispatch.gotoLine label) = .jump label := by
  have hgoto : ' ' ∉ ("oto" : Text) := by decide
  have hword : commandWord (Dispatch.gotoLine label) = "goto" := commandWord_cons (by decide) hgoto label
  have hsplit : Text.split ' ' ((Dispatch.gotoLine label).dropWhile (· = ' ')) =
      [("goto" : Text), label] := by
    have hwords := Label.words_cons (c := 'g') (by decide) hgoto label
    rw [Text.split_of_not_mem h] at hwords
    exact hwords
  have hjump : jump? (Dispatch.gotoLine label) = some label := by
    rw [jump?, if_pos hword, hsplit]
    rfl
  rw [Command.ofLine, test?_eq_none (by rw [hword]; decide), hjump]
  rfl

theorem ofLine_of_isStraight {line : Text} (h : IsStraight line) (reference : Text) :
    Command.ofLine reference line = .action line := by
  rw [Command.ofLine, test?_eq_none h.2.2, h.1, jump?, if_neg h.2.1]

/-- Whether a text at the start of a script stands for these commands, whatever the script goes on
with. -/
def Holds (reference t : Text) (program : List Command) : Prop :=
  ∀ rest, commands reference (t ++ rest) = program ++ commands reference rest

namespace Holds

variable {reference s t : Text} {first second : List Command}

theorem commands_eq (h : Holds reference t first) : commands reference t = first := by
  have hnil : commands reference [] = [] := by
    rw [commands, scriptLines]
    rfl
  have hall := h []
  rwa [hnil, List.append_nil, List.append_nil] at hall

theorem append (hs : Holds reference s first) (ht : Holds reference t second) :
    Holds reference (s ++ t) (first ++ second) := by
  intro rest
  rw [List.append_assoc, hs, ht, List.append_assoc]

theorem flatMap {α : Type} {items : List α} {write : α → Text} {program : α → List Command}
    (h : ∀ a ∈ items, Holds reference (write a) (program a)) :
    Holds reference (items.flatMap write) (items.flatMap program) := by
  induction items with
  | nil => exact fun _ => rfl
  | cons a rest ih =>
    obtain ⟨ha, hrest⟩ := List.forall_mem_cons.mp h
    exact ha.append (ih hrest)

end Holds

theorem holds_windows_line {line : Text} (hlf : '\n' ∉ line) (hword : commandWord line ≠ "if")
    (reference : Text) :
    Holds reference (Family.windows.line line) [Command.ofLine reference line] := by
  intro rest
  have hne : Family.windows.line line ++ rest ≠ [] := by simp [Family.line, Family.lineEnd]
  have hcut := Text.cutLine_windows_line hlf rest
  have hopening : ¬testOpening reference <+: Family.windows.line line ++ rest :=
    not_prefix_testOpening (by rwa [hcut])
  rw [commands, scriptLines_of_not_test hne hopening, hcut]
  rfl

theorem holds_test {value label : Text} (hquote : '"' ∉ value) (hvalue : '\n' ∉ value)
    (hlabel : '\n' ∉ label) (reference : Text) :
    Holds reference
      (Family.windows.line (testOpening reference ++ (value ++ (testMiddle ++ label))))
      [.test value label] := by
  intro rest
  have htail : '\n' ∉ value ++ (testMiddle ++ label) := by
    simp only [List.mem_append, not_or]
    exact ⟨hvalue, by decide, hlabel⟩
  rw [commands, scriptLines_test htail, List.map_cons, ofLine_test hquote]
  rfl

/-- Straight lines stand for their own performance, one after the other. -/
theorem holds_of_isStraight {body : Text} (hended : Text.IsEnded body)
    (h : ∀ line ∈ Text.lines body, IsStraight line) (reference : Text) :
    Holds reference body ((Text.lines body).map .action) := by
  -- a whole line is taken off at once, so the induction is on the length
  induction hlength : body.length using Nat.strong_induction_on generalizing body with
  | _ n ih =>
    by_cases hnil : body = []
    · subst hnil
      exact fun _ => rfl
    · obtain ⟨line, more, hline, hmore, rfl⟩ := hended.exists_line hnil
      have hcut (after : Text) : Text.cutLine (line ++ '\n' :: after) =
          ((Text.cutLine (line ++ ['\n'])).1, after) := Text.cutLine_append hline after
      have hlines : Text.lines (line ++ '\n' :: more) =
          (Text.cutLine (line ++ ['\n'])).1 :: Text.lines more := by
        rw [Text.lines_eq_cons hnil, hcut]
      rw [hlines] at h ⊢
      obtain ⟨hfirst, hothers⟩ := List.forall_mem_cons.mp h
      have hrest := ih more.length (by simp at hlength; omega) hmore hothers rfl
      intro rest
      have hopening : ¬testOpening reference <+: line ++ '\n' :: (more ++ rest) :=
        not_prefix_testOpening (by rw [hcut]; exact hfirst.2.2)
      rw [List.append_assoc, List.cons_append, commands,
        scriptLines_of_not_test (by simp) hopening, hcut, List.map_cons,
        ofLine_of_isStraight hfirst, List.map_cons, List.cons_append, ← hrest rest]
      rfl

/-! ### Runs -/

/-- Where a run is: the commands from the next one on, and the lines performed so far. -/
structure State where
  left : List Command
  performed : List Text

def Command.marks (label : Text) : Command → Bool
  | .place other => other.upper = label.upper
  | _ => false

/-- The commands from the first place on that a label names, whatever the case. -/
def seek (label : Text) : List Command → Option (List Command)
  | [] => none
  | command :: rest => if command.marks label then some (command :: rest) else seek label rest

/-- The next state of a run in which the variable has a value. There is none after the last command, nor
after a jump to a label that names no place. -/
def step (program : List Command) (value : Text) : State → Option State
  | ⟨[], _⟩ => none
  | ⟨.test tested label :: rest, performed⟩ =>
    if value = tested then (seek label program).map (⟨·, performed⟩) else some ⟨rest, performed⟩
  | ⟨.jump label :: _, performed⟩ => (seek label program).map (⟨·, performed⟩)
  | ⟨.place _ :: rest, performed⟩ => some ⟨rest, performed⟩
  | ⟨.action line :: rest, performed⟩ => some ⟨rest, performed ++ [line]⟩

/-- Whether a run of the program goes from one state to another. -/
def Runs (program : List Command) (value : Text) : State → State → Prop :=
  Relation.ReflTransGen fun s t => step program value s = some t

/-- Whether the run of a whole program ends at the place of a label, after which nothing stands, having
performed these lines. -/
def EndsAt (program : List Command) (value label : Text) (performed : List Text) : Prop :=
  Runs program value ⟨program, []⟩ ⟨[.place label], performed⟩

/-- A run ends at one place and with the same lines performed. -/
theorem EndsAt.unique {program : List Command} {value label other : Text}
    {performed lines : List Text} (h : EndsAt program value label performed)
    (hother : EndsAt program value other lines) : label = other ∧ performed = lines := by
  have hlast {place end' : Text} {done more : List Text}
      (hruns : Runs program value ⟨[.place place], done⟩ ⟨[.place end'], more⟩) :
      place = end' ∧ done = more := by
    rcases hruns.cases_head with heq | ⟨next, hstep, hrest⟩
    · simpa using heq
    · -- after the last place comes the end of the program, and nothing comes after that
      obtain rfl := Option.some.inj hstep
      rcases hrest.cases_head with heq | ⟨_, hnone, -⟩
      · simp at heq
      · cases hnone
  have hright : Relator.RightUnique fun s t => step program value s = some t :=
    fun _ _ _ hb hc => Option.some.inj (hb.symm.trans hc)
  rcases Relation.ReflTransGen.total_of_right_unique hright h hother with hruns | hruns
  · exact hlast hruns
  · obtain ⟨rfl, rfl⟩ := hlast hruns
    exact ⟨rfl, rfl⟩

section Steps

variable {program : List Command} {value : Text}

theorem seek_append {label : Text} {before : List Command}
    (h : ∀ command ∈ before, command.marks label = false) (rest : List Command) :
    seek label (before ++ rest) = seek label rest := by
  induction before with
  | nil => rfl
  | cons command others ih =>
    obtain ⟨hcommand, hothers⟩ := List.forall_mem_cons.mp h
    rw [List.cons_append, seek, hcommand, if_neg Bool.false_ne_true, ih hothers]

theorem seek_place (label : Text) (rest : List Command) :
    seek label (.place label :: rest) = some (.place label :: rest) := by
  rw [seek, if_pos (by simp [Command.marks])]

theorem runs_actions (lines : List Text) (rest : List Command) (performed : List Text) :
    Runs program value ⟨lines.map .action ++ rest, performed⟩ ⟨rest, performed ++ lines⟩ := by
  induction lines generalizing performed with
  | nil =>
    rw [List.append_nil]
    exact .refl
  | cons line others ih =>
    have hothers := ih (performed ++ [line])
    rw [List.append_assoc, List.singleton_append] at hothers
    exact .head rfl hothers

end Steps

end BatchRun

end DualShell
