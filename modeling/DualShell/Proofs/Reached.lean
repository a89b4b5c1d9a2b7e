import DualShell.Proofs.Library
import DualShell.Proofs.Placeholders
import DualShell.Statement.Render

/-!
The statements that are written as parts of a statement, at any depth. A statement can be written
exactly when every statement reached in it has known templates and every run script among them calls
library functions only.
-/

namespace DualShell

open Passes

namespace Template

theorem exists_expandAll_eq_ok {family : Family} {templates : List Text} :
    (∃ written, expandAll family templates = .ok written) ↔ ∀ t ∈ templates, IsKnown t := by
  simp only [expandAll, exists_traverse_eq_ok, exists_expand_eq_ok]

end Template

/-- The templates of a scope: the values that it assigns. -/
def Scope.templates (scope : Scope) : List Text := scope.assignments.entries.map Prod.snd

theorem Scope.exists_render_eq_ok {family : Family} {scope : Scope} :
    (∃ text, scope.render family = .ok text) ↔ ∀ t ∈ scope.templates, Template.IsKnown t := by
  simp only [render, Variable.exportSection, exists_map_eq_ok, Text.exists_collect_eq_ok,
    Template.exists_expand_eq_ok, templates, List.forall_mem_map]

namespace Statement

/-- The statements that are written as parts of a statement; of a dialect, only one is. -/
def parts (family : Family) : Statement → List Statement
  | .list items => items
  | .exitInsteadOfReturn body => [body]
  | .switch _ cases => cases.map Prod.snd
  | .runScript _ _ _ body => [body]
  | .capture _ body => [body]
  | .dialect unix windows =>
    match family with
    | .unix => [unix]
    | .windows => [windows]
  | .interpret _ | .scope _ | .call _ _ | .findPid _ | .kill | .forget _ _ _ => []

/-- Whether a statement is written when another one is, at any depth. -/
inductive Reaches (family : Family) : Statement → Statement → Prop
  | self (s : Statement) : Reaches family s s
  | part {s part node : Statement} :
    part ∈ s.parts family → Reaches family part node → Reaches family s node

/-- The templates that a statement expands itself, those of its parts left out. -/
def templates : Statement → List Text
  | .interpret lines => lines
  | .scope exported => exported.templates
  | .call _ arguments => arguments
  | .findPid pattern => [pattern]
  | .forget instanceName script logDirectory => [instanceName, script, logDirectory]
  | .runScript _ _ workingDirectory _ => [workingDirectory]
  | .capture logDirectory _ => [logDirectory]
  | .list _ | .exitInsteadOfReturn _ | .switch _ _ | .kill | .dialect _ _ => []

/-- Whether a statement calls library functions only. -/
def CallsOnlyLibrary (family : Family) (s : Statement) : Prop :=
  ∀ name ∈ s.dependencies family, ∃ f : LibraryFunction, f.name = name

/-- Whether a statement, should it be a run script, can do without the script around it. -/
def IsSelfContained (family : Family) : Statement → Prop
  | .runScript _ _ _ body => body.CallsOnlyLibrary family
  | .interpret _ | .list _ | .exitInsteadOfReturn _ | .scope _ | .call _ _ | .switch _ _
  | .findPid _ | .kill | .forget _ _ _ | .capture _ _ | .dialect _ _ => True

theorem induct_parts {P : Statement → Prop} (family : Family)
    (h : ∀ s, (∀ part ∈ s.parts family, P part) → P s) (s : Statement) : P s := by
  induction s with
  | interpret | scope | call | findPid | kill | forget => exact h _ (by simp [parts])
  | list items ih => exact h _ ih
  | exitInsteadOfReturn body ih => exact h _ (by simpa [parts] using ih)
  | switch subject cases ih => exact h _ (List.forall_mem_map.mpr ih)
  | runScript instanceName exports workingDirectory body ih => exact h _ (by simpa [parts] using ih)
  | capture logDirectory body ih => exact h _ (by simpa [parts] using ih)
  | dialect unix windows ihu ihw =>
    cases family with
    | unix => exact h _ (by simpa [parts] using ihu)
    | windows => exact h _ (by simpa [parts] using ihw)

/-- What holds of everything reached holds of the statement and of everything its parts reach. -/
theorem forall_reaches {P : Statement → Prop} {family : Family} {s : Statement} :
    (∀ node, Reaches family s node → P node) ↔
      P s ∧ ∀ part ∈ s.parts family, ∀ node, Reaches family part node → P node := by
  constructor
  · intro h
    exact ⟨h s (.self s), fun part hpart node hnode => h node (.part hpart hnode)⟩
  · rintro ⟨hself, hparts⟩ node hnode
    cases hnode with
    | self => exact hself
    | part hpart hnode => exact hparts _ hpart node hnode

theorem exists_renderItems_eq_ok {family : Family} {items : List Statement} :
    (∃ text, renderItems family items = .ok text) ↔
      ∀ s ∈ items, ∃ text, render family s = .ok text := by
  rw [renderItems_eq, Text.exists_collect_eq_ok]

theorem exists_renderCases_eq_ok {family : Family} {cases : List (Text × Statement)} :
    (∃ arms, renderCases family cases = .ok arms) ↔
      ∀ c ∈ cases, ∃ text, render family c.2 = .ok text := by
  simp only [renderCases_eq, exists_traverse_eq_ok, exists_map_eq_ok]

theorem exists_resolve_dependencies_eq_ok {family : Family} {s : Statement} :
    (∃ library, LibraryFunction.resolve family [] (s.dependencies family).names = .ok library) ↔
      s.CallsOnlyLibrary family := by
  simp only [LibraryFunction.exists_resolve_eq_ok, List.not_mem_nil, false_or]
  exact Iff.rfl

theorem exists_render_runScript_eq_ok {family : Family} {instanceName workingDirectory : Text}
    {exports : List Text} {body : Statement} :
    (∃ text, render family (.runScript instanceName exports workingDirectory body) = .ok text) ↔
      Template.IsKnown workingDirectory ∧ body.CallsOnlyLibrary family ∧
        ∃ text, render family body = .ok text := by
  rw [← @Template.exists_expand_eq_ok family, ← exists_resolve_dependencies_eq_ok]
  simp only [render, bind_eq_ok, pure_eq_ok]
  constructor
  · rintro ⟨_, library, hlibrary, written, hwritten, directory, hdirectory, -⟩
    exact ⟨⟨directory, hdirectory⟩, ⟨library, hlibrary⟩, written, hwritten⟩
  · rintro ⟨⟨directory, hdirectory⟩, ⟨library, hlibrary⟩, written, hwritten⟩
    exact ⟨_, library, hlibrary, written, hwritten, directory, hdirectory, rfl⟩

theorem exists_render_capture_eq_ok {family : Family} {logDirectory : Text} {body : Statement} :
    (∃ text, render family (.capture logDirectory body) = .ok text) ↔
      Template.IsKnown logDirectory ∧ ∃ text, render family body = .ok text := by
  rw [← @Template.exists_expand_eq_ok family]
  simp only [render, bind_eq_ok, pure_eq_ok]
  constructor
  · rintro ⟨_, directory, hdirectory, written, hwritten, -⟩
    exact ⟨⟨directory, hdirectory⟩, written, hwritten⟩
  · rintro ⟨⟨directory, hdirectory⟩, written, hwritten⟩
    exact ⟨_, directory, hdirectory, written, hwritten, rfl⟩

/-- A statement can be written when it can be apart from its parts, and each part can be. -/
theorem exists_render_eq_ok_iff_parts {family : Family} (s : Statement) :
    (∃ text, render family s = .ok text) ↔
      ((∀ t ∈ s.templates, Template.IsKnown t) ∧ s.IsSelfContained family) ∧
        ∀ part ∈ s.parts family, ∃ text, render family part = .ok text := by
  cases s with
  | interpret lines =>
    simp [render, Template.expandLines, exists_map_eq_ok, Template.exists_expandAll_eq_ok, templates,
      IsSelfContained, parts]
  | list items => simp [render, exists_renderItems_eq_ok, templates, IsSelfContained, parts]
  | exitInsteadOfReturn body =>
    simp [render, exists_map_eq_ok, templates, IsSelfContained, parts]
  | scope exported =>
    simp [render, Scope.exists_render_eq_ok, templates, IsSelfContained, parts]
  | call function arguments =>
    simp [render, functionCall, exists_map_eq_ok, Template.exists_expandAll_eq_ok, templates,
      IsSelfContained, parts]
  | switch subject cases =>
    simp only [render, exists_map_eq_ok, exists_renderCases_eq_ok, parts, List.forall_mem_map]
    simp [templates, IsSelfContained]
  | findPid pattern =>
    simp [render, libraryCall, exists_map_eq_ok, Template.exists_expandAll_eq_ok, templates,
      IsSelfContained, parts]
  | kill => simp [render, templates, IsSelfContained, parts]
  | forget instanceName script logDirectory =>
    simp [render, libraryCall, exists_map_eq_ok, Template.exists_expandAll_eq_ok, templates,
      IsSelfContained, parts]
  | runScript instanceName exports workingDirectory body =>
    simp [exists_render_runScript_eq_ok, templates, IsSelfContained, parts, and_assoc]
  | capture logDirectory body =>
    simp [exists_render_capture_eq_ok, templates, IsSelfContained, parts]
  | dialect unix windows =>
    cases family <;> simp [render, templates, IsSelfContained, parts]

/-- A statement can be written exactly when all that it reaches has known templates and the run
scripts among it are self-contained. -/
theorem exists_render_eq_ok {family : Family} (s : Statement) :
    (∃ text, render family s = .ok text) ↔
      ∀ node, Reaches family s node →
        (∀ t ∈ node.templates, Template.IsKnown t) ∧ node.IsSelfContained family := by
  induction s using induct_parts family with
  | h s ih =>
    rw [exists_render_eq_ok_iff_parts, forall_reaches]
    refine and_congr Iff.rfl ?_
    exact forall₂_congr ih

end Statement

end DualShell
