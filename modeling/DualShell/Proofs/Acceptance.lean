import DualShell.Proofs.FunctionSection
import DualShell.Proofs.Reached

/-!
Which plans can be written. A plan can be written exactly when its calls reach scopes or library
functions, the run scripts reached in it call library functions only, and all templates reached in it
are known. A call that reaches nothing is reported before anything else goes wrong, and of several the
least name is.
-/

namespace DualShell

open Passes

theorem exists_first_name {names : List Text}
    (hascending : names.Pairwise fun a b => a.precedes b = true) {P : Text → Prop}
    (h : ∃ name ∈ names, P name) :
    ∃ before name after, names = before ++ name :: after ∧ P name ∧ (∀ other ∈ before, ¬P other) ∧
      ∀ other ∈ names, P other → other = name ∨ name.precedes other = true := by
  induction names with
  | nil => simp at h
  | cons first rest ih =>
    obtain ⟨hfirst, hrest⟩ := List.pairwise_cons.mp hascending
    by_cases hP : P first
    · refine ⟨[], first, rest, rfl, hP, by simp, fun other hother _ => ?_⟩
      exact (List.mem_cons.mp hother).imp_right (hfirst other)
    · have htail : ∃ name ∈ rest, P name := by
        obtain ⟨name, hname, hPname⟩ := h
        rcases List.mem_cons.mp hname with rfl | hname
        · exact absurd hPname hP
        · exact ⟨name, hname, hPname⟩
      obtain ⟨before, name, after, rfl, hname, hbefore, hleast⟩ := ih hrest htail
      refine ⟨first :: before, name, after, rfl, hname, List.forall_mem_cons.mpr ⟨hP, hbefore⟩, ?_⟩
      intro other hother hPother
      rcases List.mem_cons.mp hother with rfl | hother
      · exact absurd hPother hP
      · exact hleast other hother hPother

theorem Scope.exists_toDefinition_eq_ok {family : Family} {scope : Scope} :
    (∃ d, scope.toDefinition family = .ok d) ↔ ∀ t ∈ scope.templates, Template.IsKnown t := by
  rw [toDefinition, exists_map_eq_ok, exists_render_eq_ok]

namespace ScriptPlan

/-- Whether a statement is written when the statements ahead of the dispatch or the dispatch are. -/
def Reaches (plan : ScriptPlan) (family : Family) (node : Statement) : Prop :=
  (∃ s ∈ plan.statements, s.Reaches family node) ∨
    ∃ table ∈ plan.switch, table.toStatement.Reaches family node

theorem reaches_iff_exists_body {plan : ScriptPlan} {family : Family} {node : Statement} :
    plan.Reaches family node ↔ ∃ s ∈ plan.body, s.Reaches family node := by
  cases hswitch : plan.switch with
  | none => simp [Reaches, body, hswitch]
  | some table =>
    simp only [Reaches, body, hswitch, Option.mem_def, Option.some.injEq, exists_eq_left',
      Option.map_some, Option.toList_some, List.mem_append, List.mem_singleton, or_and_right,
      exists_or, exists_eq_left]

/-- Whether the statements of a plan call a function of this name, and neither its scopes nor the
library have one. -/
def Misses (plan : ScriptPlan) (family : Family) (name : Text) : Prop :=
  plan.Calls family name ∧ name ∉ plan.scopes.labels ∧ ∀ f : LibraryFunction, f.name ≠ name

theorem exists_renderItems_body_eq_ok {plan : ScriptPlan} {family : Family} :
    (∃ text, Statement.renderItems family plan.body = .ok text) ↔
      ∀ node, plan.Reaches family node →
        (∀ t ∈ node.templates, Template.IsKnown t) ∧ node.IsSelfContained family := by
  simp only [Statement.exists_renderItems_eq_ok, Statement.exists_render_eq_ok,
    reaches_iff_exists_body]
  constructor
  · rintro h node ⟨s, hs, hnode⟩
    exact h s hs node hnode
  · intro h s hs node hnode
    exact h node ⟨s, hs, hnode⟩

theorem exists_resolve_required_eq_ok {plan : ScriptPlan} {family : Family} :
    (∃ library, LibraryFunction.resolve family plan.scopes.labels (plan.required family).names =
      .ok library) ↔
      ∀ name, plan.Calls family name →
        name ∈ plan.scopes.labels ∨ ∃ f : LibraryFunction, f.name = name := by
  simp only [LibraryFunction.exists_resolve_eq_ok, mem_required]
  constructor
  · intro h name hname
    exact h name (Or.inr hname)
  · rintro h name (rfl | hname)
    · exact Or.inr ⟨.abort, rfl⟩
    · exact h name hname

theorem exists_write_eq_ok {plan : ScriptPlan} {family : Family} :
    (∃ script, plan.write family = .ok script) ↔
      (∀ name, plan.Calls family name →
        name ∈ plan.scopes.labels ∨ ∃ f : LibraryFunction, f.name = name) ∧
      (∀ scope ∈ plan.scopes.scopes, ∀ t ∈ scope.templates, Template.IsKnown t) ∧
      ∀ node, plan.Reaches family node →
        (∀ t ∈ node.templates, Template.IsKnown t) ∧ node.IsSelfContained family := by
  simp only [← exists_resolve_required_eq_ok, ← exists_renderItems_body_eq_ok,
    ← @Scope.exists_toDefinition_eq_ok family, ← exists_traverse_eq_ok, write_eq_ok]
  constructor
  · rintro ⟨_, library, scopes, body, hlibrary, hscopes, hbody, -⟩
    exact ⟨⟨library, hlibrary⟩, ⟨scopes, hscopes⟩, body, hbody⟩
  · rintro ⟨⟨library, hlibrary⟩, ⟨scopes, hscopes⟩, body, hbody⟩
    exact ⟨_, library, scopes, body, hlibrary, hscopes, hbody, rfl⟩

theorem build_eq_error {plan : ScriptPlan} {family : Family} {e : ScriptError}
    (h : plan.build family = .error e) : ∃ cause, e = .render cause := by
  rw [build] at h
  cases hwrite : plan.write family with
  | ok script => simp [hwrite, Except.mapError] at h
  | error cause =>
    refine ⟨cause, ?_⟩
    simpa [hwrite, Except.mapError, eq_comm] using h

/-- Of the names that the calls of a plan miss, the first one is what the plan fails with. -/
theorem exists_build_eq_unknownFunction {plan : ScriptPlan} {family : Family}
    (h : ∃ name, plan.Misses family name) :
    ∃ name, plan.Misses family name ∧
      (∀ other, plan.Misses family other → other = name ∨ name.precedes other = true) ∧
      plan.build family = .error (.render (.unknownFunction name family)) := by
  have hrequired : ∀ name, plan.Misses family name → name ∈ (plan.required family).names :=
    fun name hname => mem_required.mpr (Or.inr hname.1)
  obtain ⟨missing, hmissing⟩ := h
  obtain ⟨before, name, after, hnames, hname, hbefore, hleast⟩ :=
    exists_first_name (plan.required family).ascending ⟨missing, hrequired _ hmissing, hmissing⟩
  refine ⟨name, hname, fun other hother => hleast other (hrequired other hother) hother, ?_⟩
  have hdefined : ∀ other ∈ before,
      other ∈ plan.scopes.labels ∨ ∃ f : LibraryFunction, f.name = other := by
    intro other hother
    have hasked : other ∈ (plan.required family).names := by
      rw [hnames]
      exact List.mem_append_left _ hother
    rcases mem_required.mp hasked with rfl | hcalls
    · exact Or.inr ⟨.abort, rfl⟩
    · by_contra hnone
      rw [not_or, not_exists] at hnone
      exact hbefore other hother ⟨hcalls, hnone⟩
  rw [build, write, hnames, LibraryFunction.resolve_eq_error hdefined hname.2.1 hname.2.2]
  rfl

/-- A plan can be written exactly when every call reaches a scope or a library function, the body of
every run script reached calls library functions only, and every placeholder in a template of a scope
or of a statement reached names a token. A plan that cannot be written ends with what went wrong
while it was rendered; when a call reaches nothing, that is the least name with such a call. -/
theorem exists_build_eq_ok_iff (plan : ScriptPlan) (family : Family) :
    ((∃ script, plan.build family = .ok script) ↔
      (∀ name, plan.Calls family name →
        name ∈ plan.scopes.labels ∨ ∃ f : LibraryFunction, f.name = name) ∧
      (∀ instanceName exports workingDirectory body,
        plan.Reaches family (.runScript instanceName exports workingDirectory body) →
          ∀ name ∈ body.dependencies family, ∃ f : LibraryFunction, f.name = name) ∧
      (∀ scope ∈ plan.scopes.scopes, ∀ t ∈ scope.templates, Template.IsKnown t) ∧
      ∀ node, plan.Reaches family node → ∀ t ∈ node.templates, Template.IsKnown t) ∧
    (∀ e, plan.build family = .error e → ∃ cause, e = .render cause) ∧
    ((∃ name, plan.Misses family name) →
      ∃ name, plan.Misses family name ∧
        (∀ other, plan.Misses family other → other = name ∨ name.precedes other = true) ∧
        plan.build family = .error (.render (.unknownFunction name family))) := by
  refine ⟨?_, fun e => build_eq_error, exists_build_eq_unknownFunction⟩
  simp only [build_eq_ok, exists_write_eq_ok]
  constructor
  · rintro ⟨hcalls, hscopes, hnodes⟩
    exact ⟨hcalls, fun _ _ _ _ hnode => (hnodes _ hnode).2, hscopes,
      fun node hnode => (hnodes node hnode).1⟩
  · rintro ⟨hcalls, hscripts, hscopes, htemplates⟩
    refine ⟨hcalls, hscopes, fun node hnode => ⟨htemplates node hnode, ?_⟩⟩
    cases node with
    | runScript instanceName exports workingDirectory body => exact hscripts _ _ _ _ hnode
    | _ => trivial

end ScriptPlan

end DualShell
