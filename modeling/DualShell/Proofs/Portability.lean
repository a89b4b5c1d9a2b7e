import DualShell.Proofs.FunctionSection
import DualShell.Proofs.InstancePlan
import DualShell.Statement.Render

/-!
Portable trees. A statement without dialects ends alike for both families: either both write it, or
both fail at the same place with the same cause. Scripts that are made of such statements define the
same functions for both families, and the dialects of a control script change nothing about that.
-/

namespace DualShell

/-- The same error, met while writing for another family. -/
def ScriptError.forFamily (other : Family) : ScriptError → ScriptError
  | .render cause => .render (cause.forFamily other)
  | .missingArgument argument => .missingArgument argument
  | .noRunStatements instanceName => .noRunStatements instanceName
  | .reservedName name => .reservedName name
  | .nameConflict name existing => .nameConflict name existing

/-- Whether two scripts, the first for Unix and the second for Windows, are both built and define the
same functions, or both fail with the same error but for the family that it names. -/
def EndAlike (unix windows : Except ScriptError Script) : Prop :=
  (∃ script script', unix = .ok script ∧ windows = .ok script' ∧
    script.functions = script'.functions) ∨
  ∃ e : ScriptError, unix = .error e ∧ windows = .error (e.forFamily .windows)

/-- Whether two passes, the first for Unix and the second for Windows, end alike: both with results
that are related, or both with one failure but for the family that it names. -/
inductive Agree {α β : Type} (R : α → β → Prop) :
    Except RenderError α → Except RenderError β → Prop
  | ok {a : α} {b : β} (h : R a b) : Agree R (.ok a) (.ok b)
  | error (e : RenderError) : Agree R (.error e) (.error (e.forFamily .windows))

namespace Agree

variable {α β γ δ : Type} {R : α → β → Prop} {S : γ → δ → Prop}
  {x : Except RenderError α} {y : Except RenderError β}

theorem bind {f : α → Except RenderError γ} {g : β → Except RenderError δ} (h : Agree R x y)
    (hnext : ∀ a b, R a b → Agree S (f a) (g b)) : Agree S (x >>= f) (y >>= g) := by
  cases h with
  | ok hab => exact hnext _ _ hab
  | error e => exact .error e

theorem map {f : α → γ} {g : β → δ} (h : Agree R x y) (hnext : ∀ a b, R a b → S (f a) (g b)) :
    Agree S (x.map f) (y.map g) := by
  cases h with
  | ok hab => exact .ok (hnext _ _ hab)
  | error e => exact .error e

/-- Passes over one list agree when they do at every item. -/
theorem traverse {ι : Type} {f : ι → Except RenderError α} {g : ι → Except RenderError β}
    {items : List ι} (h : ∀ i ∈ items, Agree R (f i) (g i)) :
    Agree (List.Forall₂ R) (DualShell.traverse f items) (DualShell.traverse g items) := by
  induction items with
  | nil => exact .ok .nil
  | cons i rest ih =>
    obtain ⟨hfirst, hrest⟩ := List.forall_mem_cons.mp h
    refine hfirst.bind fun a b hab => (ih hrest).bind fun as bs hrest => ?_
    exact .ok (.cons hab hrest)

end Agree

/-- Whether two passes for text end alike, whatever text they write. -/
abbrev AgreeOnFailure (x y : Except RenderError Text) : Prop := Agree (fun _ _ => True) x y

theorem AgreeOnFailure.collect {ι : Type} {f g : ι → Except RenderError Text} {items : List ι}
    (h : ∀ i ∈ items, AgreeOnFailure (f i) (g i)) :
    AgreeOnFailure (Text.collect f items) (Text.collect g items) :=
  (Agree.traverse h).map fun _ _ _ => trivial

namespace Template

theorem agree_piece (piece : Piece) :
    AgreeOnFailure (piece.expand .unix) (piece.expand .windows) := by
  cases piece with
  | plain c => exact .ok trivial
  | placeholder name =>
    simp only [Piece.expand]
    cases Token.ofName? name with
    | some token => exact .ok trivial
    | none => exact .error (.unresolvedToken name .unix)

theorem agree_expand (template : Text) :
    AgreeOnFailure (expand .unix template) (expand .windows template) :=
  AgreeOnFailure.collect fun piece _ => agree_piece piece

theorem agree_expandAll (templates : List Text) :
    Agree (List.Forall₂ fun _ _ => True) (expandAll .unix templates)
      (expandAll .windows templates) :=
  Agree.traverse fun template _ => agree_expand template

theorem agree_expandLines (templates : List Text) :
    AgreeOnFailure (expandLines .unix templates) (expandLines .windows templates) :=
  (agree_expandAll templates).map fun _ _ _ => trivial

end Template

namespace LibraryFunction

theorem agree_lookUp (name : Text) : Agree Eq (lookUp .unix name) (lookUp .windows name) := by
  simp only [lookUp]
  cases ofName? name with
  | some function => exact .ok rfl
  | none => exact .error (.unknownFunction name .unix)

/-- Names resolve to the same functions for both families. -/
theorem agree_resolve (defined names : List Text) :
    Agree Eq (resolve .unix defined names) (resolve .windows defined names) := by
  have hlookUp : Agree (List.Forall₂ Eq) (traverse (lookUp .unix) (names.filter (· ∉ defined)))
      (traverse (lookUp .windows) (names.filter (· ∉ defined))) :=
    Agree.traverse fun name _ => agree_lookUp name
  refine hlookUp.map fun library library' hsame => ?_
  rw [List.forall₂_eq_eq_eq] at hsame
  rw [hsame]

end LibraryFunction

theorem agree_functionCall (name : Text) (arguments : List Text) :
    AgreeOnFailure (functionCall name arguments .unix) (functionCall name arguments .windows) :=
  (Template.agree_expandAll arguments).map fun _ _ _ => trivial

theorem agree_libraryCall (function : LibraryFunction) (arguments : List Text) :
    AgreeOnFailure (libraryCall function arguments .unix)
      (libraryCall function arguments .windows) :=
  (Template.agree_expandAll arguments).map fun _ _ _ => trivial

namespace Scope

theorem agree_exportSection (assignments : Variables) :
    AgreeOnFailure (Variable.exportSection assignments .unix)
      (Variable.exportSection assignments .windows) :=
  AgreeOnFailure.collect fun entry _ => (Template.agree_expand entry.2).map fun _ _ _ => trivial

theorem agree_render (scope : Scope) :
    AgreeOnFailure (scope.render .unix) (scope.render .windows) :=
  (agree_exportSection scope.assignments).map fun _ _ _ => trivial

theorem agree_toDefinition (scope : Scope) :
    Agree (fun d d' => d.label = d'.label) (scope.toDefinition .unix)
      (scope.toDefinition .windows) :=
  scope.agree_render.map fun _ _ _ => rfl

end Scope

namespace Statement

/-- Whether no dialect stands in a statement, at any depth. -/
inductive IsPortable : Statement → Prop
  | interpret (lines : List Text) : IsPortable (.interpret lines)
  | list {items : List Statement} (h : ∀ s ∈ items, IsPortable s) : IsPortable (.list items)
  | exitInsteadOfReturn {body : Statement} (h : IsPortable body) :
    IsPortable (.exitInsteadOfReturn body)
  | scope (exported : Scope) : IsPortable (.scope exported)
  | call (function : Text) (arguments : List Text) : IsPortable (.call function arguments)
  | switch {subject : Text} {cases : List (Text × Statement)} (h : ∀ c ∈ cases, IsPortable c.2) :
    IsPortable (.switch subject cases)
  | findPid (pattern : Text) : IsPortable (.findPid pattern)
  | kill : IsPortable .kill
  | forget (instanceName script logDirectory : Text) :
    IsPortable (.forget instanceName script logDirectory)
  | runScript {instanceName : Text} {exports : List Text} {workingDirectory : Text}
    {body : Statement} (h : IsPortable body) :
    IsPortable (.runScript instanceName exports workingDirectory body)
  | capture {logDirectory : Text} {body : Statement} (h : IsPortable body) :
    IsPortable (.capture logDirectory body)

/-- Whether a statement ends alike for both families and calls the same functions in the same
order. -/
structure Agrees (s : Statement) : Prop where
  callees_eq : callees .unix s = callees .windows s
  render : AgreeOnFailure (render .unix s) (render .windows s)

namespace Agrees

theorem calleesOfItems_eq {items : List Statement} (h : ∀ s ∈ items, s.Agrees) :
    calleesOfItems .unix items = calleesOfItems .windows items := by
  rw [Statement.calleesOfItems_eq, Statement.calleesOfItems_eq]
  exact List.flatMap_congr fun s hs => (h s hs).callees_eq

theorem renderItems {items : List Statement} (h : ∀ s ∈ items, s.Agrees) :
    AgreeOnFailure (renderItems .unix items) (renderItems .windows items) := by
  rw [renderItems_eq, renderItems_eq]
  exact AgreeOnFailure.collect fun s hs => (h s hs).render

theorem list {items : List Statement} (h : ∀ s ∈ items, s.Agrees) : (list items).Agrees :=
  ⟨calleesOfItems_eq h, renderItems h⟩

theorem switch {subject : Text} {cases : List (Text × Statement)} (h : ∀ c ∈ cases, c.2.Agrees) :
    (Statement.switch subject cases).Agrees := by
  constructor
  · rw [callees, callees, calleesOfCases_eq, calleesOfCases_eq]
    exact List.flatMap_congr fun c hc => (h c hc).callees_eq
  · rw [Statement.render, Statement.render, renderCases_eq, renderCases_eq]
    have harms := Agree.traverse (R := fun _ _ => True)
      (f := fun c : Text × Statement => (Statement.render .unix c.2).map fun body => (c.1, body))
      (g := fun c : Text × Statement => (Statement.render .windows c.2).map fun body => (c.1, body))
      fun c hc => (h c hc).render.map fun _ _ _ => trivial
    exact harms.map fun _ _ _ => trivial

theorem exitInsteadOfReturn {body : Statement} (h : body.Agrees) :
    (Statement.exitInsteadOfReturn body).Agrees :=
  ⟨h.callees_eq, h.render.map fun _ _ _ => trivial⟩

theorem runScript {instanceName : Text} {exports : List Text} {workingDirectory : Text}
    {body : Statement} (h : body.Agrees) :
    (Statement.runScript instanceName exports workingDirectory body).Agrees := by
  refine ⟨rfl, ?_⟩
  rw [Statement.render, Statement.render, dependencies, dependencies, h.callees_eq]
  refine (LibraryFunction.agree_resolve [] _).bind fun _ _ _ => h.render.bind fun _ _ _ => ?_
  exact (Template.agree_expand workingDirectory).bind fun _ _ _ => .ok trivial

theorem capture {logDirectory : Text} {body : Statement} (h : body.Agrees) :
    (Statement.capture logDirectory body).Agrees := by
  refine ⟨h.callees_eq, ?_⟩
  rw [Statement.render, Statement.render]
  refine (Template.agree_expand logDirectory).bind fun _ _ _ => h.render.bind fun _ _ _ => ?_
  exact .ok trivial

theorem dialect_interpret {unixLines windowsLines : List Text}
    (hunix : (Template.expandLines .unix unixLines).isOk = true)
    (hwindows : (Template.expandLines .windows windowsLines).isOk = true) :
    (dialect (interpret unixLines) (interpret windowsLines)).Agrees := by
  refine ⟨rfl, ?_⟩
  change AgreeOnFailure (Template.expandLines .unix unixLines)
    (Template.expandLines .windows windowsLines)
  obtain ⟨text, htext⟩ := Passes.exists_eq_ok_iff.mpr hunix
  obtain ⟨text', htext'⟩ := Passes.exists_eq_ok_iff.mpr hwindows
  rw [htext, htext']
  exact .ok trivial

end Agrees

theorem IsPortable.agrees {s : Statement} (h : s.IsPortable) : s.Agrees := by
  induction h with
  | interpret lines => exact ⟨rfl, Template.agree_expandLines lines⟩
  | list _ ih => exact .list ih
  | exitInsteadOfReturn _ ih => exact .exitInsteadOfReturn ih
  | scope exported => exact ⟨rfl, exported.agree_render⟩
  | call function arguments => exact ⟨rfl, agree_functionCall function arguments⟩
  | switch _ ih => exact .switch ih
  | findPid pattern => exact ⟨rfl, agree_libraryCall .findPid [pattern]⟩
  | kill => exact ⟨rfl, .ok trivial⟩
  | forget instanceName script logDirectory =>
    exact ⟨rfl, agree_libraryCall .forget [instanceName, script, logDirectory]⟩
  | runScript _ ih => exact .runScript ih
  | capture _ ih => exact .capture ih

end Statement

namespace ScriptPlan

variable {plan : ScriptPlan}

theorem required_eq (h : ∀ s ∈ plan.body, s.Agrees) :
    plan.required .unix = plan.required .windows := by
  rw [required, required, Statement.Agrees.calleesOfItems_eq h]

theorem map_label_definitions_eq {scopes scopes' : List Definition}
    (h : List.Forall₂ (fun d d' => d.label = d'.label) scopes scopes')
    (library : List LibraryFunction) :
    (definitions .unix scopes library).map Definition.label =
      (definitions .windows scopes' library).map Definition.label := by
  have hscopes : scopes.map Definition.label = scopes'.map Definition.label := by
    induction h with
    | nil => rfl
    | cons hlabel _ ih => rw [List.map_cons, List.map_cons, hlabel, ih]
  simp only [definitions, List.map_append, List.map_cons, hscopes, List.map_map]
  rfl

/-- A plan whose statements end alike is written for both families or for neither. -/
theorem agree_write (h : ∀ s ∈ plan.body, s.Agrees) :
    Agree (fun a b => a.functions = b.functions) (plan.write .unix) (plan.write .windows) := by
  rw [write, write, required_eq h]
  refine (LibraryFunction.agree_resolve _ _).bind fun library _ hsame => ?_
  subst hsame
  refine (Agree.traverse fun scope _ => scope.agree_toDefinition).bind fun scopes scopes' hlabels => ?_
  refine (Statement.Agrees.renderItems h).bind fun _ _ _ => ?_
  exact .ok (map_label_definitions_eq hlabels library)

theorem endAlike_build (h : ∀ s ∈ plan.body, s.Agrees) :
    EndAlike (plan.build .unix) (plan.build .windows) := by
  have hwrite := agree_write h
  rw [build, build]
  generalize plan.write .unix = unix at hwrite ⊢
  generalize plan.write .windows = windows at hwrite ⊢
  cases hwrite with
  | ok hfunctions => exact Or.inl ⟨_, _, rfl, rfl, hfunctions⟩
  | error e => exact Or.inr ⟨.render e, rfl, rfl⟩

end ScriptPlan

namespace Instance

variable {i : Instance}

theorem agrees_runScript (hrun : ∀ s ∈ i.run, s.Agrees) : i.runScript.Agrees :=
  .runScript (.capture (.list hrun))

/-- The dialects of a control script hold lines that both families can write. -/
theorem agrees_perform (hinit : ∀ s ∈ i.init, s.Agrees) (hrun : ∀ s ∈ i.run, s.Agrees)
    (action : Action) : ∀ s ∈ i.perform action, s.Agrees := by
  cases action with
  | init =>
    simp only [perform, List.cons_append, List.forall_mem_cons, List.forall_mem_append]
    exact ⟨(Statement.IsPortable.call i.name []).agrees, hinit, agrees_runScript hrun, by simp⟩
  | status | stop | start | stdout | stderr =>
    suffices h : ∀ s ∈ i.perform _, s.IsPortable from fun s hs => (h s hs).agrees
    simp [perform, printLog, Statement.IsPortable.interpret, Statement.IsPortable.findPid,
      Statement.IsPortable.kill, Statement.IsPortable.forget]
  | exitStatus | tail | tailError | run =>
    rw [perform, List.forall_mem_singleton]
    exact .dialect_interpret (by decide +kernel) (by decide +kernel)

theorem agrees_dispatch (hinit : ∀ s ∈ i.init, s.Agrees) (hrun : ∀ s ∈ i.run, s.Agrees) :
    i.dispatch.toStatement.Agrees := by
  refine .switch ?_
  rw [entries_dispatch, List.forall_mem_map]
  refine fun action _ => .list (List.forall_mem_cons.mpr ⟨?_, agrees_perform hinit hrun action⟩)
  exact (Statement.IsPortable.call InstanceDraft.defaultScopeName []).agrees

end Instance

/-- Whatever statements a plan has, as long as no dialect stands in them, its scripts for the two
families end alike, and so do the control scripts of an instance whose own statements have no
dialect. -/
theorem ScriptPlan.endAlike_of_isPortable :
    (∀ plan : ScriptPlan, (∀ s ∈ plan.body, s.IsPortable) →
      EndAlike (plan.build .unix) (plan.build .windows)) ∧
    ∀ i : Instance, (∀ s ∈ i.init, s.IsPortable) → (∀ s ∈ i.run, s.IsPortable) →
      EndAlike (i.build .unix) (i.build .windows) := by
  constructor
  · intro plan h
    exact endAlike_build fun s hs => (h s hs).agrees
  · intro i hinit hrun
    obtain ⟨plan, hplan, -, -, hstatements, hswitch⟩ := i.exists_plan
    rw [Instance.build_eq_build_plan hplan, Instance.build_eq_build_plan hplan]
    refine endAlike_build ?_
    have hbody : plan.body = [i.dispatch.toStatement] := by simp [body, hstatements, hswitch]
    rw [hbody, List.forall_mem_singleton]
    exact Instance.agrees_dispatch (fun s hs => (hinit s hs).agrees) fun s hs => (hrun s hs).agrees

/-- The edits of a plan whose statements have no dialect, one of them a run script. -/
def ScriptPlan.portableEdits : List Edit :=
  [.scope ⟨"my-app", Table.ofList [("logDir", "{temp}")]⟩,
    .statement (.runScript "web" ["logDir"] "{temp}" (.capture "logs" (.list [.findPid "web", .kill]))),
    .switch (Switch.ofCases "1" [("start", .call "my-app" [])])]

/-- An instance whose own statements have no dialect. -/
def Instance.portableInstance : Instance :=
  ⟨{ InstanceDraft.new "web" with
      init := [.findPid "worker"]
      run := [.interpret ["echo hi"]] }, by decide⟩

theorem ScriptPlan.endAlike_build_portableEdits :
    (∀ s ∈ (new.editAll portableEdits).body, s.IsPortable) ∧
    EndAlike ((new.editAll portableEdits).build .unix) ((new.editAll portableEdits).build .windows) ∧
    (∀ s ∈ Instance.portableInstance.init, s.IsPortable) ∧
    (∀ s ∈ Instance.portableInstance.run, s.IsPortable) ∧
    EndAlike (Instance.portableInstance.build .unix) (Instance.portableInstance.build .windows) := by
  have hbody : (new.editAll portableEdits).body =
      [.runScript "web" ["logDir"] "{temp}" (.capture "logs" (.list [.findPid "web", .kill])),
        .switch "1" [("start", .call "my-app" [])]] := by
    decide
  have hportable : ∀ s ∈ (new.editAll portableEdits).body, s.IsPortable := by
    rw [hbody, List.forall_mem_cons, List.forall_mem_singleton]
    refine ⟨.runScript (.capture (.list (List.forall_mem_cons.mpr ⟨.findPid _, ?_⟩))), .switch ?_⟩
    · rw [List.forall_mem_singleton]
      exact .kill
    · rw [List.forall_mem_singleton]
      exact .call _ _
  have hinit : ∀ s ∈ Instance.portableInstance.init, s.IsPortable :=
    List.forall_mem_singleton.mpr (.findPid _)
  have hrun : ∀ s ∈ Instance.portableInstance.run, s.IsPortable :=
    List.forall_mem_singleton.mpr (.interpret _)
  exact ⟨hportable, endAlike_of_isPortable.1 _ hportable, hinit, hrun,
    endAlike_of_isPortable.2 _ hinit hrun⟩

end DualShell
