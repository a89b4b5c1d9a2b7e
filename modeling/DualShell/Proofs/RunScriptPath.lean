import DualShell.Proofs.Environments
import DualShell.Proofs.InstancePlan
import DualShell.Proofs.Reached

/-!
Where an instance has its run script. The action `init` writes it below `INSTANCE_HOME` under the name of
the instance as it was given; `start` and `run` look for it by way of `INSTANCE_HOME` and `INSTANCE_NAME`.
Before that, every action calls the default scope, and `init` calls the scope of the instance's exports as
well. For a name without references and placeholders the two paths are the same exactly when these
exports leave `INSTANCE_HOME` as it is.
-/

namespace DualShell

open Passes

/-- The environment after calls of the functions of scopes, in order. -/
def Environment.afterCalls (family : Family) : Environment → List Scope →
    Except RenderError Environment
  | env, [] => .ok env
  | env, scope :: rest => do
    let assignments ← scope.written family
    afterCalls family (env.assignAll family assignments) rest

namespace Instance

/-- The scopes whose functions an action calls, in the order of the calls. -/
def calledScopes (i : Instance) (family : Family) (action : Action) : List Scope :=
  (Statement.callees family (i.actionCase action).2).filterMap fun label =>
    [i.defaultScope, i.ownScope].find? fun scope => scope.label = label

/-- Whether the statements of `init` call neither of the scopes of the instance. -/
def InitCallsNoScope (i : Instance) (family : Family) : Prop :=
  ∀ s ∈ i.init, ∀ label ∈ Statement.callees family s,
    i.defaultScope.label ≠ label ∧ i.ownScope.label ≠ label

/-- The line with which `run` starts the run script. -/
def runLine : Family → Text
  | .unix => "\"" ++ runScriptTemplate ++ "\""
  | .windows => "call \"" ++ runScriptTemplate ++ "\""

def homeVariable : Text := "INSTANCE_HOME"

variable {i : Instance} {family : Family}

/-! ### The scopes that actions call -/

theorem find?_defaultScope (i : Instance) :
    ([i.defaultScope, i.ownScope].find? fun scope => scope.label = i.defaultScope.label) =
      some i.defaultScope := by
  simp

theorem find?_ownScope (i : Instance) :
    ([i.defaultScope, i.ownScope].find? fun scope => scope.label = i.ownScope.label) =
      some i.ownScope := by
  have hne : i.defaultScope.label ≠ i.ownScope.label :=
    fun h => i.upper_label_name_ne (congrArg Text.upper h.symm)
  simp [hne]

theorem find?_scope_eq_none {label : Text} (hdefault : i.defaultScope.label ≠ label)
    (hown : i.ownScope.label ≠ label) :
    ([i.defaultScope, i.ownScope].find? fun scope => scope.label = label) = none := by
  simp [hdefault, hown]

/-- No scope of an instance has the label of a library function. -/
theorem find?_library_eq_none (i : Instance) (f : LibraryFunction) :
    ([i.defaultScope, i.ownScope].find? fun scope => scope.label = f.name) = none :=
  find?_scope_eq_none
    (fun h => isUsableName_defaultScopeName.upper_label_ne f (congrArg Text.upper h))
    fun h => i.isUsableName_name.upper_label_ne f (congrArg Text.upper h)

theorem callees_actionCase (i : Instance) (family : Family) (action : Action) :
    Statement.callees family (i.actionCase action).2 =
      i.defaultScope.label :: Statement.calleesOfItems family (i.perform action) := rfl

theorem calledScopes_init (h : i.InitCallsNoScope family) :
    i.calledScopes family .init = [i.defaultScope, i.ownScope] := by
  have hinit : (i.init.flatMap (Statement.callees family)).filterMap (fun label =>
      [i.defaultScope, i.ownScope].find? fun scope => scope.label = label) = [] := by
    rw [List.filterMap_eq_nil_iff]
    intro label hlabel
    obtain ⟨s, hs, hmem⟩ := List.mem_flatMap.mp hlabel
    exact find?_scope_eq_none (h s hs label hmem).1 (h s hs label hmem).2
  have hcallees : Statement.calleesOfItems family (i.perform .init) =
      i.ownScope.label :: i.init.flatMap (Statement.callees family) := by
    rw [Statement.calleesOfItems_eq, perform, List.cons_append, List.flatMap_cons,
      List.flatMap_append]
    simp [Statement.callees, runScript, ownScope, Scope.label]
  rw [calledScopes, callees_actionCase, hcallees, List.filterMap_cons, find?_defaultScope,
    List.filterMap_cons, find?_ownScope, hinit]

theorem calledScopes_start (i : Instance) (family : Family) :
    i.calledScopes family .start = [i.defaultScope] := by
  have hcallees : Statement.calleesOfItems family (i.perform .start) = [LibraryFunction.forget.name] :=
    rfl
  rw [calledScopes, callees_actionCase, hcallees, List.filterMap_cons, find?_defaultScope,
    List.filterMap_cons, find?_library_eq_none]
  rfl

theorem calledScopes_run (i : Instance) (family : Family) :
    i.calledScopes family .run = [i.defaultScope] := by
  have hcallees : Statement.calleesOfItems family (i.perform .run) = [] := by cases family <;> rfl
  rw [calledScopes, callees_actionCase, hcallees, List.filterMap_cons, find?_defaultScope]
  rfl

/-! ### The paths -/

theorem expand_homeReference (family : Family) :
    Template.expand family homeReference = .ok (Variable.reference homeVariable family) := by
  cases family <;> decide +kernel

/-- A file with the suffix of scripts below the home of an instance. -/
def fileInHome (file : Text) (family : Family) : Text :=
  Variable.reference homeVariable family ++ (Token.fileSeparator.literal family ++
    (file ++ ("." ++ Token.scriptSuffix.literal family)))

theorem expand_runScriptTemplate (family : Family) :
    Template.expand family runScriptTemplate =
      .ok (fileInHome (Variable.reference instanceNameVariable family) family) := by
  cases family <;> decide +kernel

theorem runScriptPath_eq (i : Instance) (family : Family) :
    Statement.runScriptPath i.name homeReference family = .ok (fileInHome i.name family) := by
  rw [Statement.runScriptPath, expand_homeReference]
  simp only [Except.map, RunScript.pathIn, fileInHome, List.append_assoc]

theorem isIdentifier_homeVariable : Label.IsIdentifier homeVariable :=
  ⟨List.all_eq_true.mp (by decide), _, _, rfl, by decide⟩

theorem isIdentifier_nameVariable : Label.IsIdentifier instanceNameVariable :=
  ⟨List.all_eq_true.mp (by decide), _, _, rfl, by decide⟩

theorem read_fileInHome (env : Environment) (file : Text) (family : Family) :
    env.read family (fileInHome file family) =
      env.value family homeVariable ++ (Token.fileSeparator.literal family ++
        env.read family (file ++ ("." ++ Token.scriptSuffix.literal family))) := by
  have hsign : Environment.sign family ∉ Token.fileSeparator.literal family := by
    cases family <;> decide
  rw [fileInHome, Environment.read_reference isIdentifier_homeVariable,
    Environment.read_append_of_notMem hsign]
  intro c hc
  cases family <;> cases hc <;> decide

theorem read_suffix (env : Environment) (family : Family) :
    env.read family ("." ++ Token.scriptSuffix.literal family) =
      "." ++ Token.scriptSuffix.literal family :=
  Environment.read_eq_self (by cases family <;> decide)

theorem read_nameReference (env : Environment) (family : Family) :
    env.read family (Variable.reference instanceNameVariable family ++
        ("." ++ Token.scriptSuffix.literal family)) =
      env.value family instanceNameVariable ++ ("." ++ Token.scriptSuffix.literal family) := by
  rw [Environment.read_reference isIdentifier_nameVariable, read_suffix]
  intro c hc
  cases hc
  decide

theorem read_literal (env : Environment) {family : Family} {name : Text}
    (h : Environment.sign family ∉ name) :
    env.read family (name ++ ("." ++ Token.scriptSuffix.literal family)) =
      name ++ ("." ++ Token.scriptSuffix.literal family) := by
  rw [Environment.read_append_of_notMem h, read_suffix]

/-! ### What the actions find in the variables -/

/-- The scopes of an instance whose script is built can be written. -/
theorem exists_written_of_build {script : Script} (h : i.build family = .ok script) :
    ∃ defaults exports, i.defaultScope.written family = .ok defaults ∧
      i.ownScope.written family = .ok exports := by
  obtain ⟨plan, hplan, hscopes, -⟩ := i.exists_plan
  rw [build_eq_build_plan hplan, ScriptPlan.build_eq_ok, ScriptPlan.write_eq_ok] at h
  obtain ⟨-, definitions, -, -, hdefinitions, -, -⟩ := h
  have hwritten : ∀ scope ∈ plan.scopes.scopes, ∃ written, scope.written family = .ok written := by
    intro scope hscope
    obtain ⟨d, hd⟩ := exists_traverse_eq_ok.mp ⟨definitions, hdefinitions⟩ scope hscope
    obtain ⟨text, htext, -⟩ := map_eq_ok.mp hd
    rw [Scope.render_eq_written] at htext
    obtain ⟨written, hwritten, -⟩ := map_eq_ok.mp htext
    exact ⟨written, hwritten⟩
  rw [hscopes] at hwritten
  obtain ⟨defaults, hdefaults⟩ := hwritten i.defaultScope (by simp)
  obtain ⟨exports, hexports⟩ := hwritten i.ownScope (by simp)
  exact ⟨defaults, exports, hdefaults, hexports⟩

/-- Whether a text is read as it stands in a template: it has no placeholder and no reference. -/
def IsLiteral (family : Family) (t : Text) : Prop := '{' ∉ t ∧ Environment.sign family ∉ t

/-- The default scope assigns a literal name to `INSTANCE_NAME` as it is. -/
theorem value_name_of_written {defaults : List (Text × Text)}
    (h : i.defaultScope.written family = .ok defaults) (env : Environment)
    (hname : IsLiteral family i.name) :
    (env.assignAll family defaults).value family instanceNameVariable = i.name := by
  have hentries : i.defaultScope.assignments.entries =
      [(nameKey, i.name), (homeKey, i.home), (logDirectoryKey, i.logDirectory)] :=
    i.entries_defaultVariables
  have hkeys := Scope.map_fst_written h
  rw [Table.keys, hentries] at hkeys
  rw [Scope.written, hentries] at h
  obtain ⟨first, others, hfirst, -, rfl⟩ := traverse_cons_eq_ok.mp h
  rw [Template.expand_eq_self hname.1] at hfirst
  obtain rfl := Except.ok.inj hfirst
  have hothers : ∀ a ∈ others, Variable.exportedName a.1 ≠
      Environment.key instanceNameVariable family := by
    have hrest : others.map Prod.fst = [homeKey, logDirectoryKey] := (List.cons.inj hkeys).2
    have hne : ∀ key ∈ [homeKey, logDirectoryKey], Variable.exportedName key ≠
        Environment.key instanceNameVariable family := by
      cases family <;> decide +kernel
    intro a ha
    exact hne a.1 (hrest ▸ List.mem_map_of_mem ha)
  have hexported : Variable.exportedName nameKey = instanceNameVariable := by decide +kernel
  calc
    (env.assignAll family ((nameKey, i.name) :: others)).value family instanceNameVariable
        = ((env.assign family (Variable.exportedName nameKey) (env.read family i.name)).assignAll
            family others).value family instanceNameVariable := rfl
    _ = (env.assign family (Variable.exportedName nameKey) (env.read family i.name)).value family
          instanceNameVariable := Environment.value_assignAll_of_ne hothers
    _ = env.read family i.name := by rw [hexported, Environment.value_assign_self]
    _ = i.name := Environment.read_eq_self hname.2

theorem value_home_of_written {exports : List (Text × Text)}
    (h : i.ownScope.written family = .ok exports) (env : Environment)
    (hkeys : ∀ key ∈ i.exports.keys, Variable.exportedName key ≠ homeVariable) :
    (env.assignAll family exports).value family homeVariable = env.value family homeVariable := by
  have hhome : Environment.key homeVariable family = homeVariable := by cases family <;> decide
  refine Environment.value_assignAll_of_ne fun a ha => ?_
  rw [hhome]
  refine hkeys a.1 ?_
  have hmap : exports.map Prod.fst = i.exports.keys := Scope.map_fst_written h
  rw [← hmap]
  exact List.mem_map_of_mem ha

/-! ### The actions -/

theorem reaches_runScript (i : Instance) (family : Family) :
    (i.actionCase .init).2.Reaches family i.runScript := by
  refine .part ?_ (.self _)
  rw [actionCase, Statement.parts, perform]
  simp

theorem reaches_forget (i : Instance) (family : Family) :
    (i.actionCase .start).2.Reaches family
      (.forget nameReference runScriptTemplate logDirectoryReference) := by
  refine .part ?_ (.self _)
  rw [actionCase, Statement.parts, perform]
  simp

theorem reaches_runLine (i : Instance) (family : Family) :
    (i.actionCase .run).2.Reaches family (.interpret [runLine family]) := by
  refine .part (List.mem_cons_of_mem _ (List.mem_singleton_self _)) (.part ?_ (.self _))
  cases family <;> exact List.mem_singleton_self _

/-- Whatever the variables are before, when the statements of `init` call no scope, the path at which
`init` writes the run script reads as the home that it finds, then the name of the instance with what it
refers to; the path that `start` and `run` use reads as the home and the name that these find. For a name
that stands for itself the two are the same exactly when the exports of the instance leave the home as it
is, and they do unless the key of one stands for `INSTANCE_HOME`. -/
theorem read_runScriptPath_iff (i : Instance) (family : Family) (env : Environment)
    {script : Script} (h : i.build family = .ok script) (hinit : i.InitCallsNoScope family) :
    (i.actionCase .init).2.Reaches family i.runScript ∧
    (i.actionCase .start).2.Reaches family
      (.forget nameReference runScriptTemplate logDirectoryReference) ∧
    (i.actionCase .run).2.Reaches family (.interpret [runLine family]) ∧
    ∃ atInit atStart written path,
      env.afterCalls family (i.calledScopes family .init) = .ok atInit ∧
      env.afterCalls family (i.calledScopes family .start) = .ok atStart ∧
      env.afterCalls family (i.calledScopes family .run) = .ok atStart ∧
      Statement.runScriptPath i.name homeReference family = .ok written ∧
      Template.expand family runScriptTemplate = .ok path ∧
      atInit.read family written = atInit.value family homeVariable ++
        (Token.fileSeparator.literal family ++
          atInit.read family (i.name ++ ("." ++ Token.scriptSuffix.literal family))) ∧
      atStart.read family path = atStart.value family homeVariable ++
        (Token.fileSeparator.literal family ++ (atStart.value family instanceNameVariable ++
          ("." ++ Token.scriptSuffix.literal family))) ∧
      (IsLiteral family i.name →
        (atInit.read family written = atStart.read family path ↔
          atInit.value family homeVariable = atStart.value family homeVariable) ∧
        ((∀ key ∈ i.exports.keys, Variable.exportedName key ≠ homeVariable) →
          atInit.read family written = atStart.read family path)) := by
  refine ⟨i.reaches_runScript family, i.reaches_forget family, i.reaches_runLine family, ?_⟩
  obtain ⟨defaults, exports, hdefaults, hexports⟩ := exists_written_of_build h
  have hstart : env.afterCalls family [i.defaultScope] = .ok (env.assignAll family defaults) := by
    simp only [Environment.afterCalls, hdefaults]
    rfl
  have hinit' : env.afterCalls family [i.defaultScope, i.ownScope] =
      .ok ((env.assignAll family defaults).assignAll family exports) := by
    simp only [Environment.afterCalls, hdefaults, hexports]
    rfl
  have hwritten := read_fileInHome ((env.assignAll family defaults).assignAll family exports) i.name
    family
  have hpath := read_fileInHome (env.assignAll family defaults)
    (Variable.reference instanceNameVariable family) family
  rw [read_nameReference] at hpath
  refine ⟨_, _, _, _, by rw [calledScopes_init hinit, hinit'], by rw [calledScopes_start, hstart],
    by rw [calledScopes_run, hstart], i.runScriptPath_eq family, expand_runScriptTemplate family,
    hwritten, hpath, fun hname => ?_⟩
  have hiff : ((env.assignAll family defaults).assignAll family exports).read family
        (fileInHome i.name family) =
      (env.assignAll family defaults).read family
        (fileInHome (Variable.reference instanceNameVariable family) family) ↔
      ((env.assignAll family defaults).assignAll family exports).value family homeVariable =
        (env.assignAll family defaults).value family homeVariable := by
    rw [hwritten, hpath, read_literal _ hname.2, value_name_of_written hdefaults env hname,
      List.append_cancel_right_eq]
  exact ⟨hiff, fun hkeys => hiff.mpr (value_home_of_written hexports _ hkeys)⟩

/-- An instance that keeps its home and echoes something before its run script is written. -/
def settledInstance : Instance :=
  ⟨{ InstanceDraft.new "web" with
      home := "/srv/a"
      exports := Table.ofList [("logLevel", "{varl}INSTANCE_HOME{varr}")]
      init := [.interpret ["echo ready"]]
      run := [.interpret ["echo hi"]] }, by decide +kernel⟩

theorem read_runScriptPath_settledInstance :
    (∃ script, settledInstance.build .windows = .ok script) ∧
    settledInstance.InitCallsNoScope .windows ∧ IsLiteral .windows settledInstance.name ∧
    ∃ atInit atStart written path,
      Environment.afterCalls .windows (fun _ => []) (settledInstance.calledScopes .windows .init) =
        .ok atInit ∧
      Environment.afterCalls .windows (fun _ => []) (settledInstance.calledScopes .windows .start) =
        .ok atStart ∧
      Statement.runScriptPath settledInstance.name homeReference .windows = .ok written ∧
      Template.expand .windows runScriptTemplate = .ok path ∧
      atInit.read .windows written = atStart.read .windows path := by
  obtain ⟨script, hscript⟩ : ∃ script, settledInstance.build .windows = .ok script :=
    exists_eq_ok_iff.mpr (by decide +kernel)
  have hinit : settledInstance.InitCallsNoScope .windows := by
    intro s hs label hlabel
    obtain rfl := List.mem_singleton.mp hs
    cases hlabel
  have hname : IsLiteral .windows settledInstance.name := by constructor <;> decide
  have hkeys : ∀ key ∈ settledInstance.exports.keys, Variable.exportedName key ≠ homeVariable := by
    decide +kernel
  obtain ⟨-, -, -, atInit, atStart, written, path, hatInit, hatStart, -, hwritten, hpath, -, -, hsame⟩ :=
    read_runScriptPath_iff settledInstance .windows (fun _ => []) hscript hinit
  exact ⟨⟨script, hscript⟩, hinit, hname, atInit, atStart, written, path, hatInit, hatStart, hwritten,
    hpath, (hsame hname).2 hkeys⟩

/-- An instance with an export whose key stands for `INSTANCE_HOME`. -/
def movedInstance : Instance :=
  ⟨{ InstanceDraft.new "web" with
      home := "/srv/a"
      exports := Table.ofList [("instanceHome", "/srv/b")]
      run := [.interpret ["echo hi"]] }, by decide +kernel⟩

/-- The run script of `movedInstance` is written to one place and looked for in another. -/
theorem read_runScriptPath_movedInstance :
    (movedInstance.build .unix).isOk = true ∧ movedInstance.InitCallsNoScope .unix ∧
    (Environment.afterCalls .unix (fun _ => []) (movedInstance.calledScopes .unix .init)).bind
      (fun env => (Statement.runScriptPath movedInstance.name homeReference .unix).map
        (env.read .unix)) = .ok "/srv/b/web.sh" ∧
    (Environment.afterCalls .unix (fun _ => []) (movedInstance.calledScopes .unix .start)).bind
      (fun env => (Template.expand .unix runScriptTemplate).map (env.read .unix)) =
        .ok "/srv/a/web.sh" ∧
    ("/srv/b/web.sh" : Text) ≠ "/srv/a/web.sh" := by
  refine ⟨by decide +kernel, ?_, by decide +kernel, by decide +kernel, by decide⟩
  intro s hs
  exact absurd hs List.not_mem_nil

end Instance

end DualShell
