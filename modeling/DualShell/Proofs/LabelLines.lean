import DualShell.Proofs.ReservedLabels
import DualShell.Proofs.ShellReading

/-!
The lines of a batch script that have to do with labels: those that mark a place, and those that jump
to one. A dispatch table marks the places of its arms and its end, besides those that the bodies of its
arms mark, and it jumps to no other places than these bodies and itself mark.
-/

namespace DualShell

namespace Text

theorem lines_ne_nil {t : Text} (h : t ≠ []) : lines t ≠ [] := by
  induction t with
  | nil => exact absurd rfl h
  | cons c rest ih =>
    rw [lines]
    split
    · simp
    · split
      · next hend =>
        refine ih ?_
        rintro rfl
        simp at hend
      · split <;> simp

/-- The lines of a text that ends its last line stand before those of what follows it. -/
theorem lines_append {s : Text} (h : IsEnded s) (t : Text) : lines (s ++ t) = lines s ++ lines t := by
  induction s with
  | nil => rfl
  | cons c rest ih =>
    by_cases hrest : rest = []
    · subst hrest
      obtain rfl : c = '\n' := by simpa using h.resolve_left (by simp)
      rw [List.singleton_append, lines_lf, lines_lf]
      rfl
    · have hended : IsEnded rest := by
        rw [← List.singleton_append] at h
        exact h.of_append
      have hhead : (rest ++ t).head? = rest.head? := List.head?_append_of_ne_nil _ hrest
      rw [List.cons_append]
      by_cases hc : c = '\n'
      · subst hc
        rw [lines_lf, lines_lf, ih hended, List.cons_append]
      · by_cases hend : c = '\r' ∧ rest.head? = some '\n'
        · rw [lines, if_neg hc, hhead, if_pos hend, ih hended, lines, if_neg hc, if_pos hend]
        · obtain ⟨line, others, hlines⟩ := List.exists_cons_of_ne_nil (lines_ne_nil hrest)
          rw [lines_cons_of_ne hc (by rwa [hhead]), lines_cons_of_ne hc hend, ih hended, hlines]
          rfl

theorem lines_line {content : Text} (h : '\n' ∉ content) :
    lines (Family.windows.line content) = [content] := by
  simpa [lines] using lines_windows_line h []

theorem lines_flatMap {α : Type} {items : List α} {write : α → Text}
    (h : ∀ a ∈ items, IsEnded (write a)) : lines (items.flatMap write) =
      items.flatMap fun a => lines (write a) := by
  induction items with
  | nil => rfl
  | cons a rest ih =>
    obtain ⟨ha, hrest⟩ := List.forall_mem_cons.mp h
    rw [List.flatMap_cons, List.flatMap_cons, lines_append ha, ih hrest]

end Text

namespace Label

/-- The label of the place that a line marks. -/
def marked? : Text → Option Text
  | ':' :: label => some label
  | _ => none

/-- The label that a line jumps to: in a `goto`, in a `call` within the script, or in a `goto` after
the comparison of a quoted value. The words of a line are what stands between its spaces. -/
def jumpTarget? (line : Text) : Option Text :=
  match Text.split ' ' (line.dropWhile (· = ' ')) with
  | command :: word :: others =>
    if command.lower = "goto" then some word
    else if command.lower = "call" then marked? word
    else if command.lower = "if" ∧ word.head? = some '"' then
      match (word :: others).reverse with
      | label :: before :: _ => if before.lower = "goto" then some label else none
      | _ => none
    else none
  | _ => none

/-- A line that neither marks a place nor jumps to one. -/
def IsQuiet (line : Text) : Prop := marked? line = none ∧ jumpTarget? line = none

instance (line : Text) : Decidable (IsQuiet line) := inferInstanceAs (Decidable (_ ∧ _))

/-- The labels of the places that the lines of a text mark, in order. -/
def markedIn (t : Text) : List Text := (Text.lines t).filterMap marked?

theorem words_cons {c : Char} {word : Text} (hc : c ≠ ' ') (hword : ' ' ∉ word) (rest : Text) :
    Text.split ' ' ((c :: word ++ ' ' :: rest).dropWhile (· = ' ')) =
      (c :: word) :: Text.split ' ' rest := by
  have hspace : ' ' ∉ c :: word := by simpa [hword] using Ne.symm hc
  rw [List.cons_append, List.dropWhile_cons_of_neg (by simpa using hc), ← List.cons_append,
    Text.split_append_cons, Text.split_of_not_mem hspace, List.singleton_append]

theorem marked?_eq_none {line : Text} (h : ':' ∉ line) : marked? line = none := by
  cases line with
  | nil => rfl
  | cons c rest =>
    have hc : c ≠ ':' := fun hc => h (by simp [hc])
    simp [marked?, hc]

theorem marked?_of_head? {line : Text} (first : Char) (hhead : line.head? = some first)
    (hfirst : first ≠ ':') : marked? line = none := by
  obtain ⟨rest, rfl⟩ := List.head?_eq_some_iff.mp hhead
  simp [marked?, hfirst]

theorem jumpTarget?_goto {label : Text} (h : ' ' ∉ label) :
    jumpTarget? (Dispatch.gotoLine label) = some label := by
  have hsplit : Dispatch.gotoLine label = 'g' :: ("oto" : Text) ++ ' ' :: label := rfl
  rw [jumpTarget?, hsplit, words_cons (by decide) (by decide), Text.split_of_not_mem h]
  rfl

/-- What ends a comparison with a jump to a label. -/
theorem jumpTarget?_comparison {label : Text} (h : ' ' ∉ label) (compared : Text) :
    jumpTarget? ("if \"" ++ compared ++ " " ++ Dispatch.gotoLine label) = some label := by
  have hsplit : ("if \"" : Text) ++ compared ++ " " ++ Dispatch.gotoLine label =
      'i' :: ("f" : Text) ++ ' ' :: ('"' :: compared ++ ' ' :: (("goto" : Text) ++ ' ' :: label)) := by
    show (("if \"" : Text) ++ compared ++ " ") ++ ("goto " ++ label) = _
    rw [List.append_assoc, List.append_assoc]
    rfl
  have hgoto : ' ' ∉ ("goto" : Text) := by decide
  obtain ⟨word, others, hwords⟩ : ∃ word others,
      Text.split ' ' ('"' :: compared ++ ' ' :: (("goto" : Text) ++ ' ' :: label)) =
        ('"' :: word) :: others := by
    rw [List.cons_append, Text.split_cons_of_ne (by decide)]
    exact ⟨_, _, rfl⟩
  have hlast : (('"' :: word) :: others).reverse =
      label :: ("goto" : Text) :: (Text.split ' ' ('"' :: compared)).reverse := by
    rw [← hwords, Text.split_append_cons, Text.split_append_cons, Text.split_of_not_mem hgoto,
      Text.split_of_not_mem h]
    simp
  rw [jumpTarget?, hsplit, words_cons (by decide) (by decide), hwords]
  simp only [hlast]
  rfl

theorem jumpTarget?_invocation {label : Text} (h : ' ' ∉ label) (arguments : List Text) :
    jumpTarget? (invocation label .windows ++ arguments.flatMap (' ' :: ·)) = some label := by
  have hsplit : invocation label .windows ++ arguments.flatMap (' ' :: ·) =
      'c' :: ("all" : Text) ++ ' ' :: (':' :: label ++ arguments.flatMap (' ' :: ·)) := rfl
  have hlabel : ' ' ∉ ':' :: label := by simpa using h
  obtain ⟨others, hwords⟩ : ∃ others,
      Text.split ' ' (':' :: label ++ arguments.flatMap (' ' :: ·)) = (':' :: label) :: others := by
    cases arguments with
    | nil => exact ⟨[], by simpa using Text.split_of_not_mem hlabel⟩
    | cons first rest =>
      have hfirst : (':' :: label) ++ (first :: rest).flatMap (' ' :: ·) =
          (':' :: label) ++ ' ' :: (first ++ rest.flatMap (' ' :: ·)) := rfl
      rw [hfirst, Text.split_append_cons, Text.split_of_not_mem hlabel]
      exact ⟨_, rfl⟩
  rw [jumpTarget?, hsplit, words_cons (by decide) (by decide), hwords]
  rfl

/-- What starts with another character than the commands that jump does not jump. -/
theorem jumpTarget?_cons_eq_none {first : Char} (hspace : first ≠ ' ')
    (hcommand : first.toLower ∉ ['g', 'c', 'i']) (rest : Text) :
    jumpTarget? (first :: rest) = none := by
  rw [jumpTarget?, List.dropWhile_cons_of_neg (by simpa using hspace), Text.split_cons_of_ne hspace]
  have hother (others keyword : Text) (c : Char) (hc : keyword.head? = some c)
      (hmem : c ∈ ['g', 'c', 'i']) : Text.lower (first :: others) ≠ keyword := by
    rintro rfl
    obtain rfl : first.toLower = c := by simpa [Text.lower] using hc
    exact hcommand hmem
  split
  · next command word others hwords =>
    obtain ⟨rfl, -⟩ := List.cons.inj hwords
    rw [if_neg (hother _ "goto" 'g' rfl (by decide)), if_neg (hother _ "call" 'c' rfl (by decide)),
      if_neg]
    exact fun h => hother _ "if" 'i' rfl (by decide) h.1
  · rfl

theorem isQuiet_of_head? {line : Text} (first : Char) (hhead : line.head? = some first)
    (hfirst : first ≠ ' ' ∧ first ≠ ':' ∧ first.toLower ∉ ['g', 'c', 'i']) : IsQuiet line := by
  refine ⟨marked?_of_head? first hhead hfirst.2.1, ?_⟩
  obtain ⟨rest, rfl⟩ := List.head?_eq_some_iff.mp hhead
  exact jumpTarget?_cons_eq_none hfirst.1 hfirst.2.2 rest

theorem isQuiet_if_not (rest : Text) : IsQuiet ("if not " ++ rest) := by
  have hsplit : ("if not " : Text) ++ rest = 'i' :: ("f" : Text) ++ ' ' ::
      (("not" : Text) ++ ' ' :: rest) := rfl
  have hnot : ' ' ∉ ("not" : Text) := by decide
  refine ⟨rfl, ?_⟩
  rw [jumpTarget?, hsplit, words_cons (by decide) (by decide), Text.split_append_cons,
    Text.split_of_not_mem hnot]
  rfl

end Label

namespace Dispatch

/-- Whether the subject of a table and the values of its arms are on one line each, and the bodies of
its arms end their lines. -/
def IsLined (subject : Text) (arms : List Arm) : Prop :=
  '\n' ∉ subject ∧ ∀ arm ∈ arms, '\n' ∉ arm.1 ∧ Text.IsEnded arm.2

def testContent (subject value : Text) (index : Nat) : Text :=
  "if \"" ++ (Variable.reference subject .windows ++ "\" == \"" ++ value ++ "\"") ++ " " ++
    gotoLine (Label.arm index)

variable {subject : Text} {arms : List Arm}

theorem windowsTest_eq_line (subject value : Text) (index : Nat) :
    windowsTest subject value index = Family.windows.line (testContent subject value index) := by
  simp only [windowsTest, testContent, List.append_assoc]
  rfl

theorem not_mem_arm {c : Char} (hc : c ∉ Label.armStem) (hdigit : c.isDigit = false) (index : Nat) :
    c ∉ Label.arm index := by
  rw [Label.arm, List.mem_append, not_or]
  refine ⟨hc, fun hmem => ?_⟩
  have hnumeral := Text.isNumeral_ofNat index
  rw [Text.isNumeral, Bool.and_eq_true, List.all_eq_true] at hnumeral
  rw [hnumeral.2 c hmem] at hdigit
  exact Bool.noConfusion hdigit

theorem lf_not_mem_gotoLine {label : Text} (h : '\n' ∉ label) : '\n' ∉ gotoLine label := by
  show '\n' ∉ ("goto " : Text) ++ label
  rw [List.mem_append, not_or]
  exact ⟨by decide, h⟩

theorem lf_not_mem_testContent {value : Text} (hsubject : '\n' ∉ subject) (hvalue : '\n' ∉ value)
    (index : Nat) : '\n' ∉ testContent subject value index := by
  have hreference : '\n' ∉ Variable.reference subject .windows := by
    simp only [Variable.reference]
    split <;> simp [hsubject]
  have hgoto := lf_not_mem_gotoLine (not_mem_arm (c := '\n') (by decide) (by decide) index)
  simp only [testContent, List.mem_append, not_or]
  exact ⟨⟨⟨by decide, ⟨⟨hreference, by decide⟩, hvalue⟩, by decide⟩, by decide⟩, hgoto⟩

theorem lines_windowsArm {body : Text} (hbody : Text.IsEnded body) (index : Nat) :
    Text.lines (windowsArm body index) =
      (':' :: Label.arm index) :: Text.lines body ++ [gotoLine Label.endSwitch] := by
  have harm : '\n' ∉ ':' :: Label.arm index := by
    rw [List.mem_cons, not_or]
    exact ⟨by decide, not_mem_arm (by decide) (by decide) index⟩
  rw [windowsArm, List.append_assoc, Text.lines_windows_line harm, Text.lines_append hbody,
    Text.lines_line (by decide)]
  rfl

/-- The lines of a table: the tests, the arms with the lines of their bodies, and the end. -/
theorem lines_windowsTable (h : IsLined subject arms) :
    Text.lines (windowsTable subject arms) =
      (arms.zipIdx.map fun arm => testContent subject arm.1.1 arm.2) ++
        (gotoLine Label.endSwitch ::
          (arms.zipIdx.flatMap fun arm =>
            (':' :: Label.arm arm.2) :: Text.lines arm.1.2 ++ [gotoLine Label.endSwitch]) ++
          [':' :: Label.endSwitch]) := by
  have htest : ∀ arm ∈ arms.zipIdx, '\n' ∉ testContent subject arm.1.1 arm.2 := fun arm harm =>
    lf_not_mem_testContent h.1 (h.2 _ (List.fst_mem_of_mem_zipIdx harm)).1 arm.2
  have hbody : ∀ arm ∈ arms.zipIdx, Text.IsEnded arm.1.2 := fun arm harm =>
    (h.2 _ (List.fst_mem_of_mem_zipIdx harm)).2
  have htests : (arms.zipIdx.flatMap fun arm => windowsTest subject arm.1.1 arm.2) =
      Family.windows.block (arms.zipIdx.map fun arm => testContent subject arm.1.1 arm.2) := by
    rw [Family.block, List.flatMap_map]
    simp only [windowsTest_eq_line]
  have harm : ∀ arm ∈ arms.zipIdx, Text.IsEnded (windowsArm arm.1.2 arm.2) := fun arm _ =>
    Text.isEnded_append_line _ .windows _
  have harms : Text.lines (arms.zipIdx.flatMap fun arm => windowsArm arm.1.2 arm.2) =
      arms.zipIdx.flatMap fun arm =>
        (':' :: Label.arm arm.2) :: Text.lines arm.1.2 ++ [gotoLine Label.endSwitch] := by
    rw [Text.lines_flatMap harm]
    exact List.flatMap_congr fun arm harm => lines_windowsArm (hbody arm harm) arm.2
  rw [windowsTable, htests, List.append_assoc, List.append_assoc,
    Text.lines_append (Text.isEnded_block .windows _),
    Text.lines_windows_block (List.forall_mem_map.mpr htest), Text.lines_windows_line (by decide),
    Text.lines_append (Text.isEnded_flatMap harm), harms, Text.lines_line (by decide)]
  rfl

theorem marked?_testContent (value : Text) (index : Nat) :
    Label.marked? (testContent subject value index) = none := rfl

/-- A table marks the places of its own labels and those that the bodies of its arms mark. -/
theorem perm_markedIn_windowsTable (h : IsLined subject arms) :
    (Label.markedIn (windowsTable subject arms)).Perm
      (labels arms.length ++ arms.flatMap fun arm => Label.markedIn arm.2) := by
  have htests : (arms.zipIdx.map fun arm => testContent subject arm.1.1 arm.2).filterMap
      Label.marked? = [] := by
    simp [marked?_testContent]
  have hgoto : [gotoLine Label.endSwitch].filterMap Label.marked? = [] := by decide
  have harms : (arms.zipIdx.flatMap fun arm => (':' :: Label.arm arm.2) :: Text.lines arm.1.2 ++
      [gotoLine Label.endSwitch]).filterMap Label.marked? =
      arms.zipIdx.flatMap fun arm => Label.arm arm.2 :: Label.markedIn arm.1.2 := by
    rw [List.filterMap_flatMap]
    simp only [List.cons_append, List.filterMap_cons, Label.marked?, List.filterMap_append, hgoto,
      List.append_nil]
    rfl
  have hindices : arms.zipIdx.map (fun arm => Label.arm arm.2) =
      (List.range arms.length).map Label.arm := by
    rw [List.range_eq_range', ← List.zipIdx_map_snd 0 arms, List.map_map]
    rfl
  have hbodies : (arms.zipIdx.flatMap fun arm => Label.markedIn arm.1.2) =
      arms.flatMap fun arm => Label.markedIn arm.2 := by
    rw [← List.zipIdx_map_fst 0 arms, List.flatMap_map]
    simp
  have hsplit := (List.map_append_flatMap_perm arms.zipIdx (fun arm => Label.arm arm.2)
    fun arm => Label.markedIn arm.1.2).symm
  rw [hindices, hbodies] at hsplit
  have hmarked : Label.markedIn (windowsTable subject arms) =
      (arms.zipIdx.flatMap fun arm => Label.arm arm.2 :: Label.markedIn arm.1.2) ++
        [Label.endSwitch] := by
    rw [Label.markedIn, lines_windowsTable h, List.filterMap_append, htests, List.nil_append,
      ← List.singleton_append, List.append_assoc, List.filterMap_append, hgoto, List.nil_append,
      List.filterMap_append, harms]
    rfl
  rw [hmarked, labels, List.append_assoc]
  refine (hsplit.append_right _).trans ?_
  rw [List.append_assoc]
  exact List.perm_append_comm.append_left _

/-- With arms that run nothing, a table marks its own places only. -/
theorem mem_markedIn_table_of_bare {values : List Text} (h : ∀ t ∈ subject :: values, '\n' ∉ t)
    {place : Text} :
    place ∈ Label.markedIn (table subject (values.map fun value => (value, [])) .windows) ↔
      place ∈ labels values.length := by
  obtain ⟨hsubject, hvalues⟩ := List.forall_mem_cons.mp h
  have hlined : IsLined subject (values.map fun value => (value, [])) :=
    ⟨hsubject, List.forall_mem_map.mpr fun value hvalue => ⟨hvalues value hvalue, Or.inl rfl⟩⟩
  have hbodies : (values.map fun value => (value, ([] : Text))).flatMap
      (fun arm => Label.markedIn arm.2) = [] := by
    rw [List.flatMap_map, List.flatMap_eq_nil_iff]
    exact fun _ _ => rfl
  have hperm := perm_markedIn_windowsTable hlined
  rw [hbodies, List.append_nil, List.length_map] at hperm
  exact hperm.mem_iff

/-- A table jumps to its own labels, besides where the bodies of its arms jump to. -/
theorem jump_of_mem_lines_windowsTable (h : IsLined subject arms) {line name : Text}
    (hline : line ∈ Text.lines (windowsTable subject arms))
    (hjump : Label.jumpTarget? line = some name) :
    name ∈ labels arms.length ∨ ∃ arm ∈ arms, line ∈ Text.lines arm.2 := by
  have hgoto : Label.jumpTarget? (gotoLine Label.endSwitch) = some Label.endSwitch :=
    Label.jumpTarget?_goto (by decide)
  rw [lines_windowsTable h] at hline
  simp only [List.mem_append, List.mem_map, List.mem_cons, List.mem_flatMap, List.not_mem_nil,
    or_false] at hline
  have hplace (place : Text) : Label.jumpTarget? (':' :: place) ≠ some name := by
    rw [Label.jumpTarget?_cons_eq_none (by decide) (by decide)]
    exact nofun
  have hend (hjump : Label.jumpTarget? (gotoLine Label.endSwitch) = some name) :
      name ∈ labels arms.length := by
    rw [hgoto] at hjump
    rw [← Option.some.inj hjump]
    exact endSwitch_mem_labels _
  rcases hline with ⟨arm, harm, rfl⟩ | (rfl | ⟨arm, harm, (rfl | hbody) | rfl⟩) | rfl
  · have hspace : ' ' ∉ Label.arm arm.2 := not_mem_arm (by decide) (by decide) arm.2
    rw [testContent, Label.jumpTarget?_comparison hspace] at hjump
    rw [← Option.some.inj hjump]
    exact Or.inl (arm_mem_labels (List.snd_lt_of_mem_zipIdx harm))
  · exact Or.inl (hend hjump)
  · exact absurd hjump (hplace _)
  · exact Or.inr ⟨arm.1, List.fst_mem_of_mem_zipIdx harm, hbody⟩
  · exact Or.inl (hend hjump)
  · exact absurd hjump (hplace _)

end Dispatch

end DualShell
