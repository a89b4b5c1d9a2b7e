import DualShell.Scope

/-!
Statements are the trees that scripts are written from. Most of them are portable; a dialect holds
one statement for each family where no portable form exists.
-/

namespace DualShell

inductive Statement where
  /-- Portable lines, each a template. -/
  | interpret (lines : List Text)
  /-- Statements in order. -/
  | list (items : List Statement)
  /-- A body in which every return from a function becomes an exit from the script. -/
  | exitInsteadOfReturn (body : Statement)
  /-- The definition of a function that exports variables. -/
  | scope (exported : Scope)
  /-- A call of a function with templates as arguments. -/
  | call (function : Text) (arguments : List Text)
  /-- A dispatch on the value of a variable. -/
  | switch (subject : Text) (cases : List (Text × Statement))
  /-- A look-up of the process that matches a pattern. -/
  | findPid (pattern : Text)
  /-- The end of the process that was looked up last. -/
  | kill
  /-- The start of a script in the background, with its logs in a directory. -/
  | forget (instanceName script logDirectory : Text)
  /-- The writing of a script of its own, which exports variables and runs a body. -/
  | runScript (instanceName : Text) (exports : List Text) (workingDirectory : Text)
    (body : Statement)
  /-- A body whose exit status is recorded in a directory. -/
  | capture (logDirectory : Text) (body : Statement)
  /-- One statement for each family. -/
  | dialect (unix windows : Statement)

namespace Statement

/-- A property holds of every statement if it passes from the parts of a statement to the whole. -/
@[elab_as_elim, induction_eliminator]
theorem induct {P : Statement → Prop}
    (interpret : ∀ lines, P (.interpret lines))
    (list : ∀ items, (∀ s ∈ items, P s) → P (.list items))
    (exitInsteadOfReturn : ∀ body, P body → P (.exitInsteadOfReturn body))
    (scope : ∀ exported, P (.scope exported))
    (call : ∀ function arguments, P (.call function arguments))
    (switch : ∀ subject cases, (∀ c ∈ cases, P c.2) → P (.switch subject cases))
    (findPid : ∀ pattern, P (.findPid pattern))
    (kill : P .kill)
    (forget : ∀ instanceName script logDirectory, P (.forget instanceName script logDirectory))
    (runScript : ∀ instanceName exports workingDirectory body, P body →
      P (.runScript instanceName exports workingDirectory body))
    (capture : ∀ logDirectory body, P body → P (.capture logDirectory body))
    (dialect : ∀ unix windows, P unix → P windows → P (.dialect unix windows))
    (s : Statement) : P s :=
  @Statement.rec P (fun items => ∀ s ∈ items, P s) (fun cases => ∀ c ∈ cases, P c.2)
    (fun c => P c.2) interpret list exitInsteadOfReturn scope call switch findPid kill forget
    runScript capture dialect
    (by simp) (fun _ _ hs hrest => List.forall_mem_cons.mpr ⟨hs, hrest⟩)
    (by simp) (fun _ _ hc hrest => List.forall_mem_cons.mpr ⟨hc, hrest⟩)
    (fun _ _ hs => hs) s

mutual

def same : Statement → Statement → Bool
  | .interpret lines, .interpret lines' => lines == lines'
  | .list items, .list items' => sameItems items items'
  | .exitInsteadOfReturn body, .exitInsteadOfReturn body' => same body body'
  | .scope exported, .scope exported' => exported == exported'
  | .call function arguments, .call function' arguments' =>
    function == function' && arguments == arguments'
  | .switch subject cases, .switch subject' cases' =>
    subject == subject' && sameCases cases cases'
  | .findPid pattern, .findPid pattern' => pattern == pattern'
  | .kill, .kill => true
  | .forget instanceName script logDirectory, .forget instanceName' script' logDirectory' =>
    instanceName == instanceName' && script == script' && logDirectory == logDirectory'
  | .runScript instanceName exports workingDirectory body,
    .runScript instanceName' exports' workingDirectory' body' =>
    instanceName == instanceName' && exports == exports' &&
      workingDirectory == workingDirectory' && same body body'
  | .capture logDirectory body, .capture logDirectory' body' =>
    logDirectory == logDirectory' && same body body'
  | .dialect unix windows, .dialect unix' windows' => same unix unix' && same windows windows'
  | _, _ => false

def sameItems : List Statement → List Statement → Bool
  | [], [] => true
  | s :: rest, s' :: rest' => same s s' && sameItems rest rest'
  | _, _ => false

def sameCases : List (Text × Statement) → List (Text × Statement) → Bool
  | [], [] => true
  | (value, s) :: rest, (value', s') :: rest' =>
    value == value' && same s s' && sameCases rest rest'
  | _, _ => false

end

theorem sameItems_iff {items : List Statement}
    (h : ∀ s ∈ items, ∀ t, same s t = true ↔ s = t) (others : List Statement) :
    sameItems items others = true ↔ items = others := by
  induction items generalizing others with
  | nil => cases others <;> simp [sameItems]
  | cons s rest ih =>
    cases others with
    | nil => simp [sameItems]
    | cons t more =>
      simp [sameItems, h s (by simp), ih (fun r hr => h r (by simp [hr]))]

theorem sameCases_iff {cases : List (Text × Statement)}
    (h : ∀ c ∈ cases, ∀ t, same c.2 t = true ↔ c.2 = t) (others : List (Text × Statement)) :
    sameCases cases others = true ↔ cases = others := by
  induction cases generalizing others with
  | nil => cases others <;> simp [sameCases]
  | cons c rest ih =>
    obtain ⟨value, s⟩ := c
    cases others with
    | nil => simp [sameCases]
    | cons d more =>
      obtain ⟨value', t⟩ := d
      simp [sameCases, h (value, s) (by simp), ih (fun r hr => h r (by simp [hr]))]

theorem same_iff (s t : Statement) : same s t = true ↔ s = t := by
  induction s generalizing t with
  | list items ih => cases t <;> simp [same, sameItems_iff ih]
  | switch subject cases ih => cases t <;> simp [same, sameCases_iff ih]
  | exitInsteadOfReturn body ih => cases t <;> simp [same, ih]
  | runScript instanceName exports workingDirectory body ih =>
    cases t <;> simp [same, ih, and_assoc]
  | capture logDirectory body ih => cases t <;> simp [same, ih]
  | dialect unix windows ihu ihw => cases t <;> simp [same, ihu, ihw]
  | interpret | scope | call | findPid | kill | forget => cases t <;> simp [same, and_assoc]

instance : DecidableEq Statement := fun s t => decidable_of_iff (same s t = true) (same_iff s t)

end Statement

end DualShell
