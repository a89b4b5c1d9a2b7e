import DualShell.Proofs.BatchRun
import DualShell.Proofs.CarriedExports
import DualShell.Proofs.ScriptLabels

/-!
The variables that the head of a script clears. Aliases are names of variables that differ between the
families; every other name stands for itself. Each variable that a name stands for is cleared once, in the
order in which it is first named, so that a name for a variable already named leaves no trace.
-/

namespace DualShell

theorem Text.mem_join {separator : Text} {parts : List Text} {c : Char} (h : c ∈ join separator parts) :
    c ∈ separator ∨ ∃ part ∈ parts, c ∈ part := by
  induction parts with
  | nil => cases h
  | cons part rest ih =>
    by_cases hrest : rest = []
    · subst hrest
      rw [join, List.intercalate_singleton] at h
      exact Or.inr ⟨part, List.mem_cons_self, h⟩
    · rw [join_cons hrest, List.mem_append, List.mem_append] at h
      rcases h with hpart | hseparator | hjoin
      · exact Or.inr ⟨part, List.mem_cons_self, hpart⟩
      · exact Or.inl hseparator
      · rcases ih hjoin with hseparator | ⟨other, hother, hc⟩
        · exact Or.inl hseparator
        · exact Or.inr ⟨other, List.mem_cons_of_mem part hother, hc⟩

namespace Variable

/-- The aliases, with the variables that they stand for. -/
def aliases : Family → List (Text × Text)
  | .unix => [("path", "PATH"), ("javaHome", "JAVA_HOME"), ("libraryPath", "LD_LIBRARY_PATH")]
  | .windows => [("path", "PATH"), ("javaHome", "JAVA_HOME"), ("libraryPath", "PATH")]

/-- The variable that a name stands for. -/
def named (family : Family) (name : Text) : Text := ((aliases family).lookup name).getD name

/-- What clears variables: one line for all of them on Unix, one line each on Windows. -/
def clearing (cleared : List Text) : Family → Text
  | .unix => if cleared = [] then [] else "unset " ++ Text.join " " cleared ++ "\n"
  | .windows => cleared.flatMap fun real => "set " ++ real ++ "=\r\n"

/-- The variables that a line of a script clears. -/
def clearedBy (line : Text) : Family → List Text
  | .unix => ((line.dropPrefix? "unset ").map (List.splitOn ' ')).getD []
  | .windows => (Text.between? "set " "=" line).toList

/-- The variables that a script clears, line by line. -/
def clearedIn (script : Text) (family : Family) : List Text :=
  (Text.lines script).flatMap (clearedBy · family)

/-! ### Aliases -/

theorem alias_of_name_eq {token : Token} {name : Text} (h : token.name = name ++ "Variable") :
    token = .pathVariable ∧ name = "path" ∨ token = .javaHomeVariable ∧ name = "javaHome" ∨
      token = .libraryPathVariable ∧ name = "libraryPath" := by
  have hsuffix : ∀ token ∈ Token.all, ("Variable" : Text) <:+ token.name →
      token ∈ [Token.pathVariable, .javaHomeVariable, .libraryPathVariable] := by decide
  have htoken := hsuffix token token.mem_all ⟨name, h.symm⟩
  simp only [List.mem_cons, List.not_mem_nil, or_false] at htoken
  rcases htoken with rfl | rfl | rfl
  · exact Or.inl ⟨rfl, List.append_cancel_right (h.symm : name ++ _ = ("path" : Text) ++ _)⟩
  · exact Or.inr (Or.inl ⟨rfl, List.append_cancel_right (h.symm : name ++ _ = ("javaHome" : Text) ++ _)⟩)
  · exact Or.inr (Or.inr
      ⟨rfl, List.append_cancel_right (h.symm : name ++ _ = ("libraryPath" : Text) ++ _)⟩)

/-- Some token lends a variable to the aliases, and to no other name. -/
theorem realName?_eq_lookup (name : Text) (family : Family) :
    realName? name family = (aliases family).lookup name := by
  rw [realName?]
  cases htoken : Token.ofName? (name ++ "Variable") with
  | some token =>
    have hname : token.name = name ++ "Variable" := Token.name_eq_of_ofName? htoken
    obtain ⟨rfl, rfl⟩ | ⟨rfl, rfl⟩ | ⟨rfl, rfl⟩ := alias_of_name_eq hname <;> cases family <;> rfl
  | none =>
    have hlent : ∀ entry ∈ aliases family,
        (Token.ofName? (entry.1 ++ "Variable")).isSome = true := by
      cases family <;> decide
    refine (List.lookup_eq_none_iff.mpr fun entry hentry => ?_).symm
    have hne : entry.1 ≠ name := by
      rintro rfl
      have hsome := hlent entry hentry
      rw [htoken] at hsome
      cases hsome
    simpa using hne.symm

theorem realName?_eq_some_iff {name real : Text} {family : Family} :
    realName? name family = some real ↔ (name, real) ∈ aliases family := by
  rw [realName?_eq_lookup]
  constructor
  · intro h
    obtain ⟨before, after, hsplit, -⟩ := List.lookup_eq_some_iff.mp h
    rw [hsplit]
    exact List.mem_append_right _ List.mem_cons_self
  · have hlookup : ∀ entry ∈ aliases family, (aliases family).lookup entry.1 = some entry.2 := by
      cases family <;> decide
    exact hlookup (name, real)

theorem realName_eq_named (family : Family) : realName family = named family := by
  funext name
  rw [realName, realName?_eq_lookup, named]

/-! ### What is cleared -/

theorem clearing_windows (cleared : List Text) :
    clearing cleared .windows =
      Family.windows.block (cleared.map fun real => ("set " ++ real ++ "=" : Text)) := by
  simp only [Family.block, List.flatMap_map, clearing]
  refine (List.flatMap_congr fun real _ => ?_).symm
  exact List.append_assoc _ _ _

theorem unsetSection_eq_clearing (names : List Text) (family : Family) :
    unsetSection names family = clearing (distinct (names.map (named family))) family := by
  simp only [unsetSection, unsetLines, realName_eq_named]
  cases distinct (names.map (named family)) with
  | nil => cases family <;> rfl
  | cons real others =>
    cases family with
    | unix => exact List.append_nil _
    | windows => exact (clearing_windows _).symm

/-- On Unix one more variable is cleared in the line of the others, after them. -/
theorem clearing_concat_unix {cleared : List Text} (h : cleared ≠ []) (real : Text) :
    ∃ line, clearing cleared .unix = line ++ "\n" ∧
      clearing (cleared ++ [real]) .unix = line ++ " " ++ real ++ "\n" := by
  refine ⟨"unset " ++ Text.join " " cleared, if_neg h, ?_⟩
  rw [clearing, if_neg (List.append_ne_nil_of_left_ne_nil h _),
    Text.join_append h (List.cons_ne_nil real [])]
  simp only [Text.join, List.intercalate_singleton, List.append_assoc]

/-- On Windows one more variable is cleared in a line of its own. -/
theorem clearing_concat_windows (cleared : List Text) (real : Text) :
    clearing (cleared ++ [real]) .windows =
      clearing cleared .windows ++ ("set " ++ real ++ "=\r\n") := by
  rw [clearing, List.flatMap_append, List.flatMap_singleton, clearing]

/-! ### Reading the lines back -/

theorem clearedIn_clearing_unix {cleared : List Text}
    (h : ∀ real ∈ cleared, ∀ c ∈ real, isWhiteSpace c = false) :
    clearedIn (clearing cleared .unix) .unix = cleared := by
  rw [clearing]
  split
  · next hnil => rw [hnil]; rfl
  · next hne =>
    have hnotMem : ∀ c, isWhiteSpace c = true → c ∉ ("unset " : Text) → c ∉ (" " : Text) →
        c ∉ ("unset " ++ Text.join " " cleared : Text) := by
      intro c hspace hopening hseparator hmem
      rcases List.mem_append.mp hmem with hmem | hmem
      · exact hopening hmem
      · rcases Text.mem_join hmem with hmem | ⟨real, hreal, hmem⟩
        · exact hseparator hmem
        · rw [h real hreal c hmem] at hspace
          cases hspace
    have hlf := hnotMem '\n' (by decide) (by decide) (by decide)
    have hlast : ("unset " ++ Text.join " " cleared : Text).getLast? ≠ some '\r' := fun hr =>
      hnotMem '\r' (by decide) (by decide) (by decide) (List.mem_of_getLast? hr)
    have hlines : Text.lines ("unset " ++ Text.join " " cleared ++ "\n") =
        ["unset " ++ Text.join " " cleared] := by
      rw [Text.lines_eq_cons (by simp), Text.cutLine_append_of_not_mem hlf hlast]
      simp [Text.cutLine, Text.lines]
    have hprefix : ("unset " ++ Text.join " " cleared : Text).dropPrefix? "unset " =
        some (Text.join " " cleared) := List.dropPrefix?_eq_some_iff.mpr ⟨_, rfl, beq_self_eq_true _⟩
    have hwords : ∀ real ∈ cleared, ' ' ∉ real := fun real hreal hmem =>
      absurd (h real hreal ' ' hmem) (by decide)
    rw [clearedIn, hlines, List.flatMap_singleton, clearedBy, hprefix]
    exact List.splitOn_intercalate ' ' hwords hne

theorem clearedIn_clearing_windows {cleared : List Text} (h : ∀ real ∈ cleared, '\n' ∉ real) :
    clearedIn (clearing cleared .windows) .windows = cleared := by
  have hline : ∀ line ∈ cleared.map fun real => ("set " ++ real ++ "=" : Text), '\n' ∉ line := by
    intro line hline
    obtain ⟨real, hreal, rfl⟩ := List.mem_map.mp hline
    simp only [List.mem_append, not_or]
    exact ⟨⟨by decide, h real hreal⟩, by decide⟩
  have hread : ∀ real : Text, clearedBy ("set " ++ real ++ "=") .windows = [real] := by
    intro real
    rw [clearedBy, Text.between?_eq_some.mpr (List.append_assoc _ _ _)]
    rfl
  rw [clearing_windows, clearedIn, Text.lines_windows_block hline, List.flatMap_map]
  simp only [hread]
  exact List.flatMap_singleton' cleared

/-- Names without white space stand for variables without white space. -/
theorem isWhiteSpace_named {family : Family} {name : Text} (h : ∀ c ∈ name, isWhiteSpace c = false) :
    ∀ c ∈ named family name, isWhiteSpace c = false := by
  rw [named]
  cases hlookup : (aliases family).lookup name with
  | none => exact h
  | some real =>
    have hreal : ∀ entry ∈ aliases family, (entry.2.all fun c => !isWhiteSpace c) = true := by
      cases family <;> decide
    rw [← realName?_eq_lookup] at hlookup
    simpa using hreal _ (realName?_eq_some_iff.mp hlookup)

theorem clearedIn_unsetSection {names : List Text} (family : Family)
    (h : ∀ name ∈ names, ∀ c ∈ name, isWhiteSpace c = false) :
    clearedIn (unsetSection names family) family = distinct (names.map (named family)) := by
  have hcleared : ∀ real ∈ distinct (names.map (named family)), ∀ c ∈ real,
      isWhiteSpace c = false := by
    intro real hreal
    rw [mem_distinct] at hreal
    obtain ⟨name, hname, rfl⟩ := List.mem_map.mp hreal
    exact isWhiteSpace_named (h name hname)
  rw [unsetSection_eq_clearing]
  cases family with
  | unix => exact clearedIn_clearing_unix hcleared
  | windows =>
    exact clearedIn_clearing_windows fun real hreal hlf =>
      absurd (hcleared real hreal '\n' hlf) (by decide)

/-- The head of a script clears the variables that the names given stand for, each once and in the order
in which they are first named: in one line on Unix, in one line each on Windows. Only the three aliases
stand for another variable than their own. A name for a variable that is named before can be left out
wherever it stands, and a name for a new variable, given last, adds what clears it at the end. -/
theorem unsetSection_clears (family : Family) :
    (∀ name real, realName? name family = some real ↔ (name, real) ∈ aliases family) ∧
    (∀ names, ∃ cleared,
      (∀ other, IsDistinctOf other (names.map (named family)) ↔ other = cleared) ∧
      unsetSection names family = clearing cleared family ∧
      ((∀ name ∈ names, ∀ c ∈ name, isWhiteSpace c = false) →
        clearedIn (unsetSection names family) family = cleared)) ∧
    unsetSection [] family = [] ∧
    (∀ before name after, named family name ∈ before.map (named family) →
      unsetSection (before ++ name :: after) family = unsetSection (before ++ after) family) ∧
    (∀ names name, named family name ∉ names.map (named family) →
      match family with
      | .unix => names ≠ [] → ∃ line, unsetSection names .unix = line ++ "\n" ∧
          unsetSection (names ++ [name]) .unix = line ++ " " ++ named .unix name ++ "\n"
      | .windows => unsetSection (names ++ [name]) .windows =
          unsetSection names .windows ++ ("set " ++ named .windows name ++ "=\r\n")) := by
  refine ⟨fun _ _ => realName?_eq_some_iff, fun names => ?_, by cases family <;> rfl,
    fun before name after hnamed => ?_, fun names name hnew => ?_⟩
  · exact ⟨_, fun _ => isDistinctOf_iff, unsetSection_eq_clearing names family,
      clearedIn_unsetSection family⟩
  · simp only [unsetSection_eq_clearing, List.map_append, List.map_cons,
      distinct_append_cons_of_mem hnamed]
  · have hconcat : distinct ((names ++ [name]).map (named family)) =
        distinct (names.map (named family)) ++ [named family name] := by
      rw [List.map_append, List.map_singleton, distinct_concat, if_neg hnew]
    cases family with
    | unix =>
      intro hnames
      have hcleared : distinct (names.map (named .unix)) ≠ [] := by
        obtain ⟨first, rest, rfl⟩ := List.exists_cons_of_ne_nil hnames
        exact List.cons_ne_nil _ _
      simp only [unsetSection_eq_clearing, hconcat]
      exact clearing_concat_unix hcleared _
    | windows =>
      simp only [unsetSection_eq_clearing, hconcat]
      exact clearing_concat_windows _ _

/-- Two aliases and the name of a variable stand for it; the name of another token stands for itself. -/
example : unsetSection ["libraryPath", "fs", "path", "PATH"] .windows = "set PATH=\r\nset fs=\r\n" := by
  decide

end Variable

end DualShell
