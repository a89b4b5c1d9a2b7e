import DualShell.Proofs.BatchRun
import DualShell.Proofs.CaseClauses

/-!
What a dispatch table runs. A batch table is a chain of tests, then its arms, each behind a label of its
own, and the label where all arms end. Whatever value the variable has, the run of the table comes to that
end having performed the lines of the arm for the value, or no line when there is none, and the `case`
command of the same table chooses the same arm.
-/

namespace DualShell.Dispatch

open BatchRun

/-- The test for an arm at an index. -/
def testCommand (arm : Arm × Nat) : Command := .test arm.1.1 (Label.arm arm.2)

/-- The commands of an arm at an index: its place, its lines and the jump to the end. -/
def armCommands (arm : Arm × Nat) : List Command :=
  .place (Label.arm arm.2) :: ((Text.lines arm.1.2).map .action ++ [.jump Label.endSwitch])

def tableCommands (arms : List Arm) : List Command :=
  arms.zipIdx.map testCommand ++
    (.jump Label.endSwitch :: (arms.zipIdx.flatMap armCommands ++ [.place Label.endSwitch]))

/-! ### The commands of a batch table -/

theorem windowsTest_eq_testOpening (subject value : Text) (index : Nat) :
    windowsTest subject value index =
      Family.windows.line (testOpening (Variable.reference subject .windows) ++
        (value ++ (testMiddle ++ Label.arm index))) := by
  have hmiddle : testMiddle = ("\" " : Text) ++ ("goto " : Text) := rfl
  simp only [windowsTest, testOpening, gotoLine, hmiddle, List.append_assoc]

theorem holds_gotoEnd (reference : Text) :
    Holds reference (Family.windows.line (gotoLine Label.endSwitch)) [.jump Label.endSwitch] := by
  have hlf : '\n' ∉ gotoLine Label.endSwitch := by decide
  have hline := holds_windows_line hlf (by decide) reference
  rwa [ofLine_gotoLine (by decide)] at hline

theorem holds_place {label : Text} (h : '\n' ∉ label) (reference : Text) :
    Holds reference (Family.windows.line (':' :: label)) [.place label] := by
  have hlf : '\n' ∉ ':' :: label := by simpa using h
  have hline := holds_windows_line hlf (commandWord_place label) reference
  rwa [ofLine_place] at hline

theorem holds_windowsArm {arm : Arm × Nat} (hended : Text.IsEnded arm.1.2)
    (hbody : ∀ line ∈ Text.lines arm.1.2, IsStraight line) (reference : Text) :
    Holds reference (windowsArm arm.1.2 arm.2) (armCommands arm) := by
  have hlabel : '\n' ∉ Label.arm arm.2 := not_mem_arm (by decide) (by decide) arm.2
  rw [windowsArm, List.append_assoc]
  exact (holds_place hlabel reference).append
    ((holds_of_isStraight hended hbody reference).append (holds_gotoEnd reference))

/-- Whether the values of the arms can be quoted in a test, and the bodies of the arms only perform
lines. -/
def IsPlain (arms : List Arm) : Prop :=
  ∀ arm ∈ arms, ('"' ∉ arm.1 ∧ '\n' ∉ arm.1) ∧
    Text.IsEnded arm.2 ∧ ∀ line ∈ Text.lines arm.2, IsStraight line

instance (arms : List Arm) : Decidable (IsPlain arms) := inferInstanceAs (Decidable (∀ arm ∈ arms, _))

variable {arms : List Arm}

theorem holds_windowsTable (h : IsPlain arms) (subject : Text) :
    Holds (Variable.reference subject .windows) (windowsTable subject arms) (tableCommands arms) := by
  have htest : ∀ arm ∈ arms.zipIdx, Holds (Variable.reference subject .windows)
      (windowsTest subject arm.1.1 arm.2) [testCommand arm] := fun arm harm => by
    obtain ⟨⟨hquote, hvalue⟩, -⟩ := h arm.1 (List.fst_mem_of_mem_zipIdx harm)
    rw [windowsTest_eq_testOpening]
    exact holds_test hquote hvalue (not_mem_arm (by decide) (by decide) arm.2) _
  have harm : ∀ arm ∈ arms.zipIdx, Holds (Variable.reference subject .windows)
      (windowsArm arm.1.2 arm.2) (armCommands arm) := fun arm harm => by
    obtain ⟨-, hended, hbody⟩ := h arm.1 (List.fst_mem_of_mem_zipIdx harm)
    exact holds_windowsArm hended hbody _
  rw [windowsTable, List.append_assoc, List.append_assoc, tableCommands, List.map_eq_flatMap]
  exact (Holds.flatMap htest).append ((holds_gotoEnd _).append
    ((Holds.flatMap harm).append (holds_place (by decide) _)))

/-! ### The run of a batch table -/

theorem marks_testCommand (label : Text) :
    ∀ command ∈ arms.zipIdx.map testCommand, command.marks label = false :=
  List.forall_mem_map.mpr fun _ _ => rfl

theorem marks_armCommands {label : Text} {numbered : List (Arm × Nat)}
    (h : ∀ arm ∈ numbered, (Label.arm arm.2).upper ≠ label.upper) :
    ∀ command ∈ numbered.flatMap armCommands, command.marks label = false := by
  intro command hcommand
  obtain ⟨arm, harm, hmem⟩ := List.mem_flatMap.mp hcommand
  simp only [armCommands, List.mem_cons, List.mem_append, List.mem_map, List.not_mem_nil,
    or_false] at hmem
  rcases hmem with rfl | ⟨line, -, rfl⟩ | rfl
  · exact decide_eq_false (h arm harm)
  · rfl
  · rfl

theorem seek_tableCommands (label : Text) :
    seek label (tableCommands arms) =
      seek label (arms.zipIdx.flatMap armCommands ++ [.place Label.endSwitch]) := by
  rw [tableCommands, seek_append (marks_testCommand label), seek]
  rfl

theorem seek_endSwitch : seek Label.endSwitch (tableCommands arms) = some [.place Label.endSwitch] := by
  have hnone : ∀ arm ∈ arms.zipIdx, (Label.arm arm.2).upper ≠ Label.endSwitch.upper := fun arm _ =>
    Label.upper_arm_ne (by decide) arm.2
  rw [seek_tableCommands, seek_append (marks_armCommands hnone), seek_place]

/-- The label of an arm leads to this arm, past all arms before it. -/
theorem seek_arm (before after : List Arm) (arm : Arm) :
    ∃ rest, seek (Label.arm before.length) (tableCommands (before ++ arm :: after)) =
      some (armCommands (arm, before.length) ++ rest) := by
  have hnone : ∀ other ∈ before.zipIdx,
      (Label.arm other.2).upper ≠ (Label.arm before.length).upper := fun other hother h => by
    have hlt := List.snd_lt_of_mem_zipIdx hother
    rw [Label.upper_arm_injective h] at hlt
    omega
  refine ⟨(after.zipIdx (before.length + 1)).flatMap armCommands ++ [.place Label.endSwitch], ?_⟩
  rw [seek_tableCommands, List.zipIdx_append, List.zipIdx_cons, List.flatMap_append,
    List.flatMap_cons, List.append_assoc, seek_append (marks_armCommands hnone), Nat.zero_add,
    List.append_assoc]
  exact seek_place _ _

variable {value : Text}

theorem runs_testCommands {numbered : List (Arm × Nat)} (h : ∀ arm ∈ numbered, arm.1.1 ≠ value)
    (program rest : List Command) (performed : List Text) :
    Runs program value ⟨numbered.map testCommand ++ rest, performed⟩ ⟨rest, performed⟩ := by
  induction numbered with
  | nil => exact .refl
  | cons arm others ih =>
    obtain ⟨harm, hothers⟩ := List.forall_mem_cons.mp h
    exact .head (if_neg (Ne.symm harm)) (ih hothers)

/-- From a jump to the end, the run of a table comes to the end. -/
theorem runs_jump_endSwitch (rest : List Command) (performed : List Text) :
    Runs (tableCommands arms) value ⟨.jump Label.endSwitch :: rest, performed⟩
      ⟨[.place Label.endSwitch], performed⟩ := by
  refine .single ?_
  rw [step, seek_endSwitch]
  rfl

theorem endsAt_of_forall_ne (h : ∀ arm ∈ arms, arm.1 ≠ value) :
    EndsAt (tableCommands arms) value Label.endSwitch [] := by
  have htests : ∀ arm ∈ arms.zipIdx, arm.1.1 ≠ value := fun arm harm =>
    h arm.1 (List.fst_mem_of_mem_zipIdx harm)
  exact (runs_testCommands htests _ _ []).trans (runs_jump_endSwitch _ [])

/-- The tests before that of an arm pass its value on, the test jumps to the arm, and after the lines of
the arm the run goes to the end. -/
theorem endsAt_of_arm {before after : List Arm} {arm : Arm} (h : ∀ other ∈ before, other.1 ≠ arm.1) :
    EndsAt (tableCommands (before ++ arm :: after)) arm.1 Label.endSwitch (Text.lines arm.2) := by
  have htests : ∀ other ∈ before.zipIdx, other.1.1 ≠ arm.1 := fun other hother =>
    h other.1 (List.fst_mem_of_mem_zipIdx hother)
  obtain ⟨rest, hseek⟩ := seek_arm before after arm
  have hstart : tableCommands (before ++ arm :: after) = before.zipIdx.map testCommand ++
      (testCommand (arm, before.length) :: ((after.zipIdx (before.length + 1)).map testCommand ++
        (.jump Label.endSwitch :: ((before ++ arm :: after).zipIdx.flatMap armCommands ++
          [.place Label.endSwitch])))) := by
    rw [tableCommands, List.zipIdx_append, List.zipIdx_cons, List.map_append, List.map_cons,
      List.append_assoc, Nat.zero_add, List.cons_append]
  have hjump : Runs (tableCommands (before ++ arm :: after)) arm.1
      ⟨testCommand (arm, before.length) :: ((after.zipIdx (before.length + 1)).map testCommand ++
        (.jump Label.endSwitch :: ((before ++ arm :: after).zipIdx.flatMap armCommands ++
          [.place Label.endSwitch]))), []⟩
      ⟨armCommands (arm, before.length) ++ rest, []⟩ := by
    refine .single ?_
    rw [testCommand, step, if_pos rfl, hseek]
    rfl
  have hlines : Runs (tableCommands (before ++ arm :: after)) arm.1
      ⟨armCommands (arm, before.length) ++ rest, []⟩
      ⟨.jump Label.endSwitch :: rest, Text.lines arm.2⟩ := by
    rw [armCommands, List.cons_append, List.append_assoc]
    exact .head rfl (runs_actions (Text.lines arm.2) (.jump Label.endSwitch :: rest) [])
  have hall := (runs_testCommands htests (tableCommands (before ++ arm :: after)) _ []).trans
    (hjump.trans (hlines.trans (runs_jump_endSwitch rest (Text.lines arm.2))))
  rwa [← hstart] at hall

/-- The first arm for a value, as a run of the table and a `case` command choose it. -/
def chosen (arms : List Arm) (value : Text) : Option Arm := arms.find? (·.1 = value)

theorem endsAt_chosen (arms : List Arm) (value : Text) :
    EndsAt (tableCommands arms) value Label.endSwitch
      (((chosen arms value).map fun arm => Text.lines arm.2).getD []) := by
  cases hchosen : chosen arms value with
  | none =>
    have hne : ∀ arm ∈ arms, arm.1 ≠ value := fun arm harm => by
      simpa using List.find?_eq_none.mp hchosen arm harm
    exact endsAt_of_forall_ne hne
  | some arm =>
    obtain ⟨harm, before, after, rfl, hbefore⟩ := List.find?_eq_some_iff_append.mp hchosen
    obtain rfl := of_decide_eq_true harm
    exact endsAt_of_arm fun other hother => by simpa using hbefore other hother

/-- Whatever the value of the variable, the run of a batch table ends at the last label, and it has then
performed the lines of the arm for the value and nothing else. The `case` command that is the table of a
POSIX shell runs the same arm, however values are written as patterns that match them and nothing else.
-/
theorem run_table (word : Text → Text) (hword : ∀ t, CasePattern.literal? (word t) = some t)
    (subject : Text) (h : IsPlain arms) (value : Text) :
    (∀ label performed,
      EndsAt (commands (Variable.reference subject .windows) (table subject arms .windows)) value
          label performed ↔
        label = Label.endSwitch ∧
          performed = ((chosen arms value).map fun arm => Text.lines arm.2).getD []) ∧
      ('\n' ∉ subject →
        scriptLines (testOpening (Variable.reference subject .windows))
          (table subject arms .windows) = Text.lines (table subject arms .windows)) ∧
      table subject arms .unix = unixTable Quoting.shellWord subject arms ∧
      (caseCommand word subject arms).text = unixTable word subject arms ∧
      (caseCommand word subject arms).selected value =
        (chosen arms value).map fun arm => (word arm.1, arm.2) := by
  refine ⟨fun label performed => ?_, fun hsubject => ?_, rfl, text_caseCommand word subject arms,
    selected_caseCommand hword subject arms value⟩
  · have hends := endsAt_chosen arms value
    rw [table, (holds_windowsTable h subject).commands_eq]
    constructor
    · exact fun hother => hother.unique hends
    · rintro ⟨rfl, rfl⟩
      exact hends
  · have hreference : '\n' ∉ Variable.reference subject .windows := by
      rw [Variable.reference]
      split <;> simpa using hsubject
    have hopening : '\n' ∉ testOpening (Variable.reference subject .windows) := by
      simpa [testOpening] using hreference
    have hlast : (testOpening (Variable.reference subject .windows)).getLast? ≠ some '\r' := by
      have hmark : ("\" == \"" : Text).getLast? = some '"' := rfl
      rw [testOpening, List.getLast?_append, hmark, Option.some_or]
      decide
    exact scriptLines_eq_lines hopening hlast _

/-- A table with as many arms as it takes for one label to be the start of another. -/
def letterArms : List Arm :=
  (["a", "b", "c", "d", "e", "f", "g", "h", "i", "j", "k"] : List Text).map fun letter =>
    (letter, Family.windows.line (("echo " : Text) ++ letter))

theorem run_table_letterArms :
    IsPlain letterArms ∧ (∀ t, CasePattern.literal? (Quoting.shellWord t) = some t) ∧
      EndsAt (commands (Variable.reference "1" .windows) (table "1" letterArms .windows)) "b"
        Label.endSwitch ["echo b"] ∧
      EndsAt (commands (Variable.reference "1" .windows) (table "1" letterArms .windows)) "k"
        Label.endSwitch ["echo k"] ∧
      (caseCommand Quoting.shellWord "1" letterArms).text = table "1" letterArms .unix ∧
      (caseCommand Quoting.shellWord "1" letterArms).selected "k" =
        some (("k" : Text), Family.windows.line "echo k") := by
  have hplain : IsPlain letterArms := by decide
  have hword := CasePattern.literal?_shellWord
  obtain ⟨hb, -⟩ := run_table Quoting.shellWord hword "1" hplain "b"
  obtain ⟨hk, -, htable, htext, hselected⟩ := run_table Quoting.shellWord hword "1" hplain "k"
  exact ⟨hplain, hword, (hb _ _).mpr ⟨rfl, by decide⟩, (hk _ _).mpr ⟨rfl, by decide⟩,
    htext.trans htable.symm, hselected.trans (by decide)⟩

end DualShell.Dispatch
