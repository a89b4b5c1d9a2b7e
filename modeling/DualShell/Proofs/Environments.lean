import DualShell.Proofs.ShownStatements
import Mathlib.Logic.Function.Basic

/-!
What assignments leave in the variables of a shell. References to variables are replaced by their values
when a value is assigned or a text is read; quotes and escapes are of no concern here. An assignment
changes one variable, so that a scope changes none but those that its keys stand for.
-/

namespace DualShell

open Passes

/-- The values of variables by name; a variable that is not set is empty. -/
abbrev Environment := Text → Text

namespace Environment

/-- The name under which a family looks a variable up; the Windows interpreter disregards case. -/
def key (name : Text) : Family → Text
  | .unix => name
  | .windows => name.upper

def value (env : Environment) (family : Family) (name : Text) : Text := env (key name family)

def assign (env : Environment) (family : Family) (name value : Text) : Environment :=
  Function.update env (key name family) value

/-- The character that every reference starts with. -/
def sign : Family → Char
  | .unix => '$'
  | .windows => '%'

/-- Whether a name can be that of a variable, and not of an argument. -/
def isVariableName : Text → Bool
  | [] => false
  | c :: _ => !(c.isDigit || c == '*' || c == '~')

/-- What stands for the start of a text when it is read, and how many characters it stands for: the
value of a variable for a reference to it, or one sign for two. -/
def reading? (env : Environment) (family : Family) (t : Text) : Option (Text × Nat) :=
  match family, t with
  | .unix, '$' :: '{' :: rest =>
    let name := rest.takeWhile isWordChar
    if isVariableName name ∧ (rest.drop name.length).head? = some '}' then
      some (env.value .unix name, name.length + 3)
    else none
  | .unix, '$' :: rest =>
    let name := rest.takeWhile isWordChar
    if isVariableName name then some (env.value .unix name, name.length + 1) else none
  | .windows, '%' :: '%' :: _ => some ("%", 2)
  | .windows, '%' :: rest =>
    let name := rest.takeWhile fun c => c ≠ '%' ∧ c ≠ ':'
    if isVariableName name ∧ (rest.drop name.length).head? = some '%' then
      some (env.value .windows name, name.length + 2)
    else none
  | _, _ => none

/-- Reads a text; `skip` counts the characters left of a reference that has already been read. -/
def readFrom (env : Environment) (family : Family) : Nat → Text → Text
  | _, [] => []
  | skip + 1, _ :: rest => readFrom env family skip rest
  | 0, c :: rest =>
    match env.reading? family (c :: rest) with
    | some (replacement, width) => replacement ++ readFrom env family (width - 1) rest
    | none => c :: readFrom env family 0 rest

/-- The text with every reference to a variable replaced by its value. -/
def read (env : Environment) (family : Family) (t : Text) : Text := env.readFrom family 0 t

/-- The environment after assignments to the variables of keys, in order. -/
def assignAll (env : Environment) (family : Family) (assignments : List (Text × Text)) :
    Environment :=
  assignments.foldl
    (fun env a => env.assign family (Variable.exportedName a.1) (env.read family a.2)) env

variable {env : Environment} {family : Family}

theorem value_assign_self (name value : Text) : (env.assign family name value).value family name = value :=
  Function.update_self _ _ _

theorem value_assign_of_ne {name other : Text} (h : key other family ≠ key name family) (value : Text) :
    (env.assign family name value).value family other = env.value family other :=
  Function.update_of_ne h _ _

/-! ### Reading -/

theorem reading?_eq_none {c : Char} (h : c ≠ sign family) (rest : Text) :
    env.reading? family (c :: rest) = none := by
  cases family <;> simp [reading?, sign] at h ⊢ <;> simp_all

theorem readFrom_append (t rest : Text) :
    env.readFrom family t.length (t ++ rest) = env.readFrom family 0 rest := by
  induction t with
  | nil => rfl
  | cons c others ih => exact ih

/-- What holds no sign stands for itself. -/
theorem read_append_of_notMem {t : Text} (h : sign family ∉ t) (rest : Text) :
    env.read family (t ++ rest) = t ++ env.read family rest := by
  induction t with
  | nil => rfl
  | cons c others ih =>
    obtain ⟨hc, hothers⟩ := not_or.mp (mt List.mem_cons.mpr h)
    rw [List.cons_append, read, readFrom, reading?_eq_none (Ne.symm hc)]
    exact congrArg (c :: ·) (ih hothers)

theorem read_eq_self {t : Text} (h : sign family ∉ t) : env.read family t = t := by
  have happend : env.read family (t ++ []) = t ++ env.read family [] := read_append_of_notMem h []
  simpa [read, readFrom] using happend

/-- Word characters are told apart from all others. -/
theorem ne_of_isWordChar {a b : Char} (ha : isWordChar a = true) (hb : isWordChar b = false) :
    a ≠ b := by
  rintro rfl
  exact Bool.false_ne_true (hb.symm.trans ha)

theorem isVariableName_of_isIdentifier {name : Text} (h : Label.IsIdentifier name) :
    isVariableName name = true := by
  obtain ⟨hword, c, rest, rfl, hdigit⟩ := h
  have hstar : c ≠ '*' := ne_of_isWordChar (hword c List.mem_cons_self) (by decide)
  have htilde : c ≠ '~' := ne_of_isWordChar (hword c List.mem_cons_self) (by decide)
  simp [isVariableName, hdigit, hstar, htilde]

theorem reading?_reference_unix {name : Text} (hname : Label.IsIdentifier name) {rest : Text}
    (hrest : ∀ c ∈ rest.head?, isWordChar c = false) :
    env.reading? .unix ('$' :: (name ++ rest)) = some (env.value .unix name, name.length + 1) := by
  have hvariable := isVariableName_of_isIdentifier hname
  obtain ⟨hword, first, others, rfl, -⟩ := hname
  have htake := Text.takeWhile_append_of_boundary hword hrest
  have hbrace : first ≠ '{' := ne_of_isWordChar (hword first List.mem_cons_self) (by decide)
  rw [List.cons_append] at htake ⊢
  rw [reading?]
  · simp only [htake, hvariable, if_true]
  · rintro more heq
    exact hbrace (List.cons.inj heq).1

theorem reading?_reference_windows {name : Text} (hname : Label.IsIdentifier name) (rest : Text) :
    env.reading? .windows ('%' :: (name ++ '%' :: rest)) =
      some (env.value .windows name, name.length + 2) := by
  have hvariable := isVariableName_of_isIdentifier hname
  obtain ⟨hword, first, others, rfl, -⟩ := hname
  have hinside : ∀ c ∈ first :: others, decide (c ≠ '%' ∧ c ≠ ':') = true := by
    intro c hc
    have hpercent : c ≠ '%' := ne_of_isWordChar (hword c hc) (by decide)
    have hcolon : c ≠ ':' := ne_of_isWordChar (hword c hc) (by decide)
    simp [hpercent, hcolon]
  have htake : (first :: others ++ '%' :: rest).takeWhile (fun c => c ≠ '%' ∧ c ≠ ':') =
      first :: others :=
    Text.takeWhile_append_of_boundary hinside (by simp)
  have hhead : ((first :: others ++ '%' :: rest).drop (first :: others).length).head? = some '%' := by
    rw [List.drop_left]
    rfl
  have hpercent : first ≠ '%' := ne_of_isWordChar (hword first List.mem_cons_self) (by decide)
  rw [List.cons_append] at htake hhead ⊢
  rw [reading?]
  · simp only [htake, hvariable, hhead, and_self, if_true]
  · rintro more heq
    exact hpercent (List.cons.inj heq).1

theorem reading?_reference {name : Text} (hname : Label.IsIdentifier name) {rest : Text}
    (hrest : ∀ c ∈ rest.head?, isWordChar c = false) :
    env.reading? family (Variable.reference name family ++ rest) =
      some (env.value family name, (Variable.reference name family).length) := by
  cases family with
  | unix => exact reading?_reference_unix hname hrest
  | windows =>
    have hnumeral : Text.isNumeral name = false := by
      obtain ⟨-, first, others, rfl, hdigit⟩ := hname
      simp [Text.isNumeral, hdigit]
    have hreference : Variable.reference name .windows = '%' :: name ++ ['%'] := by
      simp [Variable.reference, hnumeral]
    rw [hreference, List.length_append, List.append_assoc]
    exact reading?_reference_windows hname rest

/-- A reference reads as the value of its variable. -/
theorem read_reference {name : Text} (hname : Label.IsIdentifier name) {rest : Text}
    (hrest : ∀ c ∈ rest.head?, isWordChar c = false) :
    env.read family (Variable.reference name family ++ rest) =
      env.value family name ++ env.read family rest := by
  obtain ⟨c, others, hreference⟩ : ∃ c others, Variable.reference name family = c :: others := by
    cases family with
    | unix => exact ⟨_, _, rfl⟩
    | windows =>
      rw [Variable.reference]
      split <;> exact ⟨_, _, rfl⟩
  have hreading : env.reading? family (Variable.reference name family ++ rest) =
      some (env.value family name, (Variable.reference name family).length) :=
    reading?_reference hname hrest
  rw [hreference, List.cons_append, List.length_cons] at hreading
  rw [hreference, List.cons_append, read, readFrom, hreading]
  exact congrArg (env.value family name ++ ·) (readFrom_append others rest)

/-! ### Assignments -/

theorem isLower_of_mem_upperSnake {before : Option Char} {key : Text} :
    ∀ c ∈ Variable.upperSnake before key, c.isLower = false := by
  induction key generalizing before with
  | nil => simp [Variable.upperSnake]
  | cons c rest ih =>
    rw [Variable.upperSnake]
    split
    · next hupper =>
      have hc := Text.isLower_eq_false_of_isUpper (Bool.and_eq_true_iff.mp hupper).1
      simp only [List.forall_mem_cons]
      exact ⟨by decide, hc, ih⟩
    · simp only [List.forall_mem_cons]
      exact ⟨Text.isLower_toUpper c, ih⟩

/-- Exported names hold no lower-case letters. -/
theorem upper_exportedName (name : Text) :
    (Variable.exportedName name).upper = Variable.exportedName name := by
  refine Text.upper_eq_self ?_
  rw [Variable.exportedName]
  split
  · exact isLower_of_mem_upperSnake
  · next hany =>
    rw [List.any_eq_true, not_exists] at hany
    exact fun c hc => by simpa [hc] using hany c

theorem key_exportedName (name : Text) (family : Family) :
    key (Variable.exportedName name) family = Variable.exportedName name := by
  cases family with
  | unix => rfl
  | windows => exact upper_exportedName name

/-- Assignments change no variables but those of their keys. -/
theorem value_assignAll_of_ne {name : Text} {assignments : List (Text × Text)}
    (h : ∀ a ∈ assignments, Variable.exportedName a.1 ≠ key name family) :
    (env.assignAll family assignments).value family name = env.value family name := by
  induction assignments generalizing env with
  | nil => rfl
  | cons a rest ih =>
    obtain ⟨ha, hrest⟩ := List.forall_mem_cons.mp h
    have hkey : key name family ≠ key (Variable.exportedName a.1) family := by
      rw [key_exportedName]
      exact Ne.symm ha
    calc
      (env.assignAll family (a :: rest)).value family name
          = ((env.assign family (Variable.exportedName a.1) (env.read family a.2)).assignAll family
              rest).value family name := rfl
      _ = (env.assign family (Variable.exportedName a.1) (env.read family a.2)).value family name :=
          ih hrest
      _ = env.value family name := value_assign_of_ne hkey _

end Environment

/-- The assignments that a scope writes: its keys with their expanded values. -/
def Scope.written (scope : Scope) (family : Family) : Except RenderError (List (Text × Text)) :=
  traverse (fun entry => (Template.expand family entry.2).map fun value => (entry.1, value))
    scope.assignments.entries

theorem Scope.map_fst_written {scope : Scope} {family : Family} {written : List (Text × Text)}
    (h : scope.written family = .ok written) : written.map Prod.fst = scope.assignments.keys := by
  refine map_of_traverse_eq_ok (fun entry a ha => ?_) h
  obtain ⟨value, -, rfl⟩ := map_eq_ok.mp ha
  rfl

/-- The function of a scope makes the assignments that the scope writes. -/
theorem Scope.render_eq_written (scope : Scope) (family : Family) :
    scope.render family = (scope.written family).map fun written =>
      functionDefinition scope.name
        (family.block (written.map fun a => Variable.exportLine a.1 a.2 family)) family := by
  have hline : (fun entry : Text × Text => (Template.expand family entry.2).map fun value =>
        family.line (Variable.exportLine entry.1 value family)) =
      fun entry => ((Template.expand family entry.2).map fun value => (entry.1, value)).map
        fun a => family.line (Variable.exportLine a.1 a.2 family) := by
    funext entry
    cases Template.expand family entry.2 <;> rfl
  rw [render, Variable.exportSection, Text.collect, hline, traverse_map, written]
  cases traverse (fun entry => (Template.expand family entry.2).map fun value => (entry.1, value))
    scope.assignments.entries with
  | error e => rfl
  | ok written =>
    simp only [Except.map, Family.block, List.flatMap_def, List.map_map]
    rfl

end DualShell
