import DualShell.Dispatch
import DualShell.Proofs.Environments
import DualShell.Text.Numeral

/-!
What the references of a dispatch table denote when a shell reads them by its own rules. After the sign of
a reference both shells take one digit, and no more, for the number of an argument. So a table dispatches
on the variable that its subject names, or on the argument if its number has one digit; of a longer number
only the first digit counts, and the others stay behind as text.
-/

namespace DualShell

/-- What can be referred to: an argument by its number, or a variable by its name. -/
inductive Parameter where
  | argument (index : Nat)
  | named (name : Text)
  deriving DecidableEq

namespace Parameter

/-- What a name stands for: a numeral without leading zeros for an argument, an identifier for a variable. -/
inductive IsFor : Text → Parameter → Prop
  | argument {name : Text} {index : Nat} (value : Text.readNumeral? name = some index)
    (canonical : name.length = 1 ∨ name.head? ≠ some '0') : IsFor name (.argument index)
  | named {name : Text} (identifier : Label.IsIdentifier name) : IsFor name (.named name)

/-- The variable that is named after the sign of a reference, with the text after the reference. A name goes
as far as it can on Unix, and up to the closing sign on Windows. -/
def named? (t : Text) : Family → Option (Parameter × Text)
  | .unix =>
    let name := t.takeWhile isWordChar
    if name = [] then none else some (.named name, t.drop name.length)
  | .windows =>
    let name := t.takeWhile (· ≠ '%')
    match t.drop name.length with
    | [] => none
    | _ :: after => if name = [] then none else some (.named name, after)

/-- The parameter of the reference that a text starts with, and the text after it. A digit after the sign is
an argument by itself. -/
def read? (family : Family) : Text → Option (Parameter × Text)
  | sign :: c :: rest =>
    if sign = Environment.sign family then
      match Text.digitIn? 10 c with
      | some index => some (.argument index, rest)
      | none => named? (c :: rest) family
    else none
  | _ => none

/-! ### Numerals -/

theorem isSome_digitIn?_iff {c : Char} : (Text.digitIn? 10 c).isSome = true ↔ c.isDigit = true := by
  by_cases hdigit : c.isDigit = true
  · have hlt : c.toNat - '0'.toNat < 10 := by
      simp only [Char.isDigit, Bool.and_eq_true, decide_eq_true_eq, ge_iff_le,
        UInt32.le_iff_toNat_le] at hdigit
      have htop : c.toNat ≤ 57 := hdigit.2
      exact Nat.lt_of_le_of_lt (Nat.sub_le_sub_right htop _) (by decide)
    rw [Text.digitIn?, if_pos hdigit, Option.filter_some, if_pos (decide_eq_true hlt)]
    exact iff_of_true rfl hdigit
  · rw [Text.digitIn?, if_neg hdigit]
    split <;> simp [hdigit]
    split <;> simp

theorem isDigit_of_foldlM {digits : Text} {start n : Nat}
    (h : digits.foldlM (fun value c => (Text.digitIn? 10 c).map (10 * value + ·)) start = some n) :
    ∀ c ∈ digits, c.isDigit = true := by
  induction digits generalizing start with
  | nil => nofun
  | cons c rest ih =>
    rw [List.foldlM_cons, Option.bind_eq_bind, Option.bind_eq_some_iff] at h
    obtain ⟨value, hvalue, hrest⟩ := h
    obtain ⟨digit, hdigit, -⟩ := Option.map_eq_some_iff.mp hvalue
    exact List.forall_mem_cons.mpr ⟨isSome_digitIn?_iff.mp (Option.isSome_of_eq_some hdigit), ih hrest⟩

/-- What denotes a number starts with a digit, and holds digits only. -/
theorem exists_digit_of_readNumeral? {t : Text} {n : Nat} (h : Text.readNumeral? t = some n) :
    Text.isNumeral t = true ∧ ∃ c rest digit, t = c :: rest ∧ Text.digitIn? 10 c = some digit := by
  cases t with
  | nil => cases h
  | cons c rest =>
    have hdigits : ∀ d ∈ c :: rest, d.isDigit = true := isDigit_of_foldlM h
    obtain ⟨digit, hdigit⟩ := Option.isSome_iff_exists.mp
      (isSome_digitIn?_iff.mpr (hdigits c List.mem_cons_self))
    exact ⟨List.all_eq_true.mpr hdigits, c, rest, digit, rfl, hdigit⟩

theorem readNumeral?_singleton (c : Char) : Text.readNumeral? [c] = Text.digitIn? 10 c := by
  cases hdigit : Text.digitIn? 10 c <;> simp [Text.readNumeral?, Text.readInBase?, hdigit]

/-! ### Reading a reference -/

variable {family : Family} {name rest : Text}

theorem read?_sign_digit {c : Char} {index : Nat} (hc : Text.digitIn? 10 c = some index) :
    read? family (Environment.sign family :: c :: rest) = some (.argument index, rest) := by
  simp only [read?, if_true, hc]

theorem read?_sign_of_not_isDigit {c : Char} (hc : c.isDigit = false) :
    read? family (Environment.sign family :: c :: rest) = named? (c :: rest) family := by
  have hnone : Text.digitIn? 10 c = none := by
    rw [← Option.not_isSome_iff_eq_none, isSome_digitIn?_iff, hc]
    exact Bool.false_ne_true
  simp only [read?, if_true, hnone]

/-- The reference to a numeral is read as the argument of its first digit. -/
theorem read?_reference_digit {c : Char} {index : Nat} (hc : Text.digitIn? 10 c = some index)
    (hname : Text.isNumeral (c :: name) = true) (rest : Text) :
    read? family (Variable.reference (c :: name) family ++ rest) =
      some (.argument index, name ++ rest) := by
  have hreference : Variable.reference (c :: name) family = Environment.sign family :: c :: name := by
    cases family with
    | unix => rfl
    | windows => exact if_pos hname
  rw [hreference]
  exact read?_sign_digit hc

theorem read?_reference_identifier (hname : Label.IsIdentifier name)
    (hrest : ∀ c ∈ rest.head?, isWordChar c = false) :
    read? family (Variable.reference name family ++ rest) = some (.named name, rest) := by
  obtain ⟨hword, c, others, rfl, hdigit⟩ := hname
  cases family with
  | unix =>
    have htake : (c :: others ++ rest).takeWhile isWordChar = c :: others :=
      Text.takeWhile_append_of_boundary hword hrest
    refine (read?_sign_of_not_isDigit hdigit).trans ?_
    change named? (c :: others ++ rest) .unix = _
    simp only [named?, htake, List.drop_left, List.cons_ne_nil, if_false]
  | windows =>
    have hreference : Variable.reference (c :: others) .windows ++ rest =
        '%' :: c :: (others ++ '%' :: rest) := by
      simp [Variable.reference, Text.isNumeral, hdigit]
    have hinside : ∀ d ∈ c :: others, decide (d ≠ '%') = true := fun d hd =>
      decide_eq_true (Environment.ne_of_isWordChar (hword d hd) (by decide))
    have htake : (c :: others ++ '%' :: rest).takeWhile (fun d => decide (d ≠ '%')) = c :: others :=
      Text.takeWhile_append_of_boundary hinside (by simp)
    rw [hreference]
    refine (read?_sign_of_not_isDigit hdigit).trans ?_
    change named? (c :: others ++ '%' :: rest) .windows = _
    simp only [named?, htake, List.drop_left, List.cons_ne_nil, if_false]

theorem not_isIdentifier_of_isNumeral (h : Text.isNumeral name = true) : ¬Label.IsIdentifier name := by
  rintro ⟨-, c, rest, rfl, hc⟩
  simp [Text.isNumeral, hc] at h

/-- A reference is read as what its name stands for, with nothing left over, when the name is an identifier
or one digit, and in no other case. -/
theorem read?_reference_iff {parameter : Parameter} (h : IsFor name parameter)
    (hrest : ∀ c ∈ rest.head?, isWordChar c = false) :
    read? family (Variable.reference name family ++ rest) = some (parameter, rest) ↔
      name.length = 1 ∨ Label.IsIdentifier name := by
  cases h with
  | named identifier => exact iff_of_true (read?_reference_identifier identifier hrest) (Or.inr identifier)
  | @argument index value canonical =>
    obtain ⟨hnumeral, c, others, digit, rfl, hdigit⟩ := exists_digit_of_readNumeral? value
    rw [read?_reference_digit hdigit hnumeral, Option.some.injEq, Prod.mk.injEq,
      List.append_left_eq_self, or_iff_left (not_isIdentifier_of_isNumeral hnumeral)]
    constructor
    · rintro ⟨-, rfl⟩
      rfl
    · intro hlength
      obtain rfl : others = [] := List.length_eq_zero_iff.mp (Nat.succ.inj hlength)
      rw [readNumeral?_singleton, hdigit] at value
      exact ⟨congrArg Parameter.argument (Option.some.inj value), rfl⟩

end Parameter

namespace Dispatch

variable {family : Family} {subject front back : Text} {arms : List Arm}

/-- What follows the reference in the test for an arm at an index. -/
def testClosing (arm : Arm × Nat) : Text :=
  Family.windows.line ("\" == \"" ++ arm.1.1 ++ "\" " ++ gotoLine (Label.arm arm.2))

/-- What stands around the references in tests; the first part starts with `front`, and the last one ends
with `rest`. -/
def testPieces (rest : Text) : Text → List (Arm × Nat) → List Text
  | front, [] => [front ++ rest]
  | front, arm :: others => (front ++ "if \"") :: testPieces rest (testClosing arm) others

/-- What stands around the references to the subject in a table, whatever the subject is. -/
def pieces (arms : List Arm) : Family → List Text
  | .unix => ["case ", " in\n" ++ arms.flatMap (unixArm Quoting.shellWord) ++ "esac\n"]
  | .windows =>
    testPieces
      (Family.windows.line (gotoLine Label.endSwitch) ++
        (arms.zipIdx.flatMap fun arm => windowsArm arm.1.2 arm.2) ++
        Family.windows.line (':' :: Label.endSwitch)) [] arms.zipIdx

/-- Whether a reference to the subject stands in a table between these parts of it. -/
def IsPlace (subject : Text) (arms : List Arm) (family : Family) (front back : Text) : Prop :=
  ∃ before after, pieces arms family = before ++ after ∧ before ≠ [] ∧ after ≠ [] ∧
    front = Text.join (Variable.reference subject family) before ∧
    back = Text.join (Variable.reference subject family) after

theorem join_testPieces (subject rest front : Text) (numbered : List (Arm × Nat)) :
    Text.join (Variable.reference subject .windows) (testPieces rest front numbered) =
      front ++ ((numbered.flatMap fun arm => windowsTest subject arm.1.1 arm.2) ++ rest) := by
  induction numbered generalizing front with
  | nil => exact List.intercalate_singleton
  | cons arm others ih =>
    have hne : testPieces rest (testClosing arm) others ≠ [] := by
      cases others <;> rw [testPieces] <;> exact List.cons_ne_nil _ _
    have htest : windowsTest subject arm.1.1 arm.2 =
        "if \"" ++ (Variable.reference subject .windows ++ testClosing arm) := by
      simp only [windowsTest, testClosing, Family.line, List.append_assoc]
    rw [testPieces, Text.join_cons hne, ih, List.flatMap_cons, htest]
    simp only [List.append_assoc]

/-- The references to the subject join what stands around them. -/
theorem join_pieces (subject : Text) (arms : List Arm) (family : Family) :
    Text.join (Variable.reference subject family) (pieces arms family) = table subject arms family := by
  cases family with
  | unix =>
    rw [pieces, Text.join_cons (List.cons_ne_nil _ _), Text.join, List.intercalate_singleton, table,
      unixTable]
    simp only [Family.line, List.append_assoc]
    rfl
  | windows =>
    rw [pieces, join_testPieces, table, windowsTable]
    simp only [List.append_assoc, List.nil_append]

theorem IsPlace.table_eq (h : IsPlace subject arms family front back) :
    table subject arms family = front ++ (Variable.reference subject family ++ back) := by
  obtain ⟨before, after, hpieces, hbefore, hafter, rfl, rfl⟩ := h
  rw [← join_pieces, hpieces, Text.join_append hbefore hafter]

theorem head?_of_mem_testPieces {rest front piece : Text} {numbered : List (Arm × Nat)}
    (hfront : front.head? = some '"') (h : piece ∈ testPieces rest front numbered) :
    piece.head? = some '"' := by
  induction numbered generalizing front with
  | nil =>
    obtain rfl := List.mem_singleton.mp h
    rw [List.head?_append, hfront]
    rfl
  | cons arm others ih =>
    rcases List.mem_cons.mp h with rfl | h
    · rw [List.head?_append, hfront]
      rfl
    · exact ih rfl h

/-- What stands after a reference starts with a character that no name holds. -/
theorem exists_head?_of_mem_tail {piece : Text} (h : piece ∈ (pieces arms family).tail) :
    ∃ c, piece.head? = some c ∧ isWordChar c = false := by
  cases family with
  | unix =>
    obtain rfl := List.mem_singleton.mp h
    exact ⟨' ', rfl, by decide⟩
  | windows =>
    refine ⟨'"', ?_, by decide⟩
    rw [pieces] at h
    cases hnumbered : arms.zipIdx with
    | nil =>
      rw [hnumbered] at h
      cases h
    | cons arm others =>
      rw [hnumbered] at h
      exact head?_of_mem_testPieces rfl h

/-- No name goes on after a reference to the subject. -/
theorem IsPlace.head?_back (h : IsPlace subject arms family front back) :
    ∀ c ∈ back.head?, isWordChar c = false := by
  obtain ⟨before, after, hpieces, hbefore, hafter, -, rfl⟩ := h
  obtain ⟨first, others, rfl⟩ := List.exists_cons_of_ne_nil hbefore
  obtain ⟨piece, rest, rfl⟩ := List.exists_cons_of_ne_nil hafter
  have hpiece : piece ∈ (pieces arms family).tail := by
    rw [hpieces]
    exact List.mem_append_right others List.mem_cons_self
  obtain ⟨c, hhead, hc⟩ := exists_head?_of_mem_tail hpiece
  obtain ⟨more, rfl⟩ := List.head?_eq_some_iff.mp hhead
  have hback : (Text.join (Variable.reference subject family) ((c :: more) :: rest)).head? = some c := by
    by_cases hrest : rest = []
    · rw [hrest, Text.join, List.intercalate_singleton]
      rfl
    · rw [Text.join_cons hrest]
      rfl
  intro d hd
  rw [hback] at hd
  obtain rfl := Option.mem_some.mp hd
  exact hc

/-- A table refers to its subject, unless it is a batch table without arms. -/
theorem exists_isPlace (subject : Text) (h : ¬(family = .windows ∧ arms = [])) :
    ∃ front back, IsPlace subject arms family front back := by
  have hlength : ∃ first next others, pieces arms family = first :: next :: others := by
    cases family with
    | unix => exact ⟨_, _, _, rfl⟩
    | windows =>
      obtain ⟨arm, others, rfl⟩ := List.exists_cons_of_ne_nil fun hnil => h ⟨rfl, hnil⟩
      rw [pieces, List.zipIdx_cons, testPieces]
      cases others.zipIdx (0 + 1) <;> rw [testPieces] <;> exact ⟨_, _, _, rfl⟩
  obtain ⟨first, next, others, hpieces⟩ := hlength
  exact ⟨_, _, [first], next :: others, hpieces, List.cons_ne_nil _ _, List.cons_ne_nil _ _, rfl, rfl⟩

theorem not_isPlace (subject front back : Text) : ¬IsPlace subject [] .windows front back := by
  rintro ⟨before, after, hpieces, hbefore, hafter, -, -⟩
  obtain ⟨first, others, rfl⟩ := List.exists_cons_of_ne_nil hbefore
  have htail : [] = others ++ after := congrArg List.tail hpieces
  exact hafter (List.append_eq_nil_iff.mp htail.symm).2

/-- Every reference in a dispatch table is read as what the subject names, with nothing of it left over, when
the subject is an identifier or one digit, and for no longer number. The reference to a longer number is
read as the argument of its first digit, and its other digits stay behind. -/
theorem reads_subject_iff {parameter : Parameter} (h : Parameter.IsFor subject parameter)
    (arms : List Arm) (family : Family) :
    table subject arms family = Text.join (Variable.reference subject family) (pieces arms family) ∧
    (∀ front back, IsPlace subject arms family front back →
      table subject arms family = front ++ (Variable.reference subject family ++ back)) ∧
    ((∀ front back, IsPlace subject arms family front back →
        Parameter.read? family (Variable.reference subject family ++ back) = some (parameter, back)) ↔
      subject.length = 1 ∨ Label.IsIdentifier subject ∨ family = .windows ∧ arms = []) ∧
    ∀ index, parameter = .argument index →
      ∃ c others digit, subject = c :: others ∧ Text.digitIn? 10 c = some digit ∧
        ∀ front back, IsPlace subject arms family front back →
          Parameter.read? family (Variable.reference subject family ++ back) =
            some (.argument digit, others ++ back) := by
  refine ⟨(join_pieces subject arms family).symm, fun _ _ hplace => hplace.table_eq, ?_, ?_⟩
  · by_cases hnone : family = .windows ∧ arms = []
    · obtain ⟨rfl, rfl⟩ := hnone
      exact iff_of_true (fun front back hplace => absurd hplace (not_isPlace subject front back))
        (Or.inr (Or.inr ⟨rfl, rfl⟩))
    · rw [or_iff_left hnone]
      constructor
      · intro hreads
        obtain ⟨front, back, hplace⟩ := exists_isPlace subject hnone
        exact (Parameter.read?_reference_iff h hplace.head?_back).mp (hreads front back hplace)
      · intro hsubject front back hplace
        exact (Parameter.read?_reference_iff h hplace.head?_back).mpr hsubject
  · rintro index rfl
    obtain ⟨value, -⟩ := h
    obtain ⟨hnumeral, c, others, digit, rfl, hdigit⟩ := Parameter.exists_digit_of_readNumeral? value
    exact ⟨c, others, digit, rfl, hdigit, fun front back _ =>
      Parameter.read?_reference_digit hdigit hnumeral back⟩

theorem reads_subject_mode :
    Parameter.IsFor "MODE" (.named "MODE") ∧
    ∀ front back, IsPlace "MODE" [("run", "echo run\r\n"), ("stop", [])] .windows front back →
      Parameter.read? .windows (Variable.reference "MODE" .windows ++ back) =
        some (.named "MODE", back) := by
  have hmode : Label.IsIdentifier "MODE" :=
    ⟨List.all_eq_true.mp (by decide), 'M', "ODE", rfl, by decide⟩
  obtain ⟨-, -, hreads, -⟩ :=
    reads_subject_iff (.named hmode) [("run", "echo run\r\n"), ("stop", [])] .windows
  exact ⟨.named hmode, hreads.mpr (Or.inr (Or.inl hmode))⟩

/-- The reference to the twelfth argument is read as the first one with a digit left over. -/
theorem not_reads_subject_twelve :
    Parameter.IsFor "12" (.argument 12) ∧
    ∀ family, ∃ front back, IsPlace "12" [("run", "echo run\n")] family front back ∧
      Parameter.read? family (Variable.reference "12" family ++ back) =
        some (.argument 1, '2' :: back) ∧
      Parameter.read? family (Variable.reference "12" family ++ back) ≠ some (.argument 12, back) := by
  have hone : Text.digitIn? 10 '1' = some 1 := by decide
  refine ⟨.argument (by decide) (Or.inr (by decide)), fun family => ?_⟩
  have hread : ∀ back, Parameter.read? family (Variable.reference "12" family ++ back) =
      some (.argument 1, '2' :: back) := fun back =>
    Parameter.read?_reference_digit hone (by decide) back
  have hplaces : ∃ front back, IsPlace "12" [("run", "echo run\n")] family front back :=
    exists_isPlace "12" (by simp)
  obtain ⟨front, back, hplace⟩ := hplaces
  refine ⟨front, back, hplace, hread back, fun htwelve => ?_⟩
  rw [hread back] at htwelve
  cases htwelve

end Dispatch

end DualShell
