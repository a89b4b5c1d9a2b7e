import DualShell.Proofs.Library
import DualShell.ScriptPlan

/-!
The functions that a script defines. A plan that can be written defines `abort`, its scopes and the
library functions that its statements need, each once even without regard to case, so that every
call in the script reaches a definition in its function section.
-/

namespace DualShell

open Passes

namespace Statement

theorem mem_dependencies {family : Family} {s : Statement} {name : Text} :
    name ∈ s.dependencies family ↔ name ∈ callees family s :=
  NameSet.mem_ofList

theorem mem_dependencies_switch {family : Family} {subject : Text} {cases : List (Text × Statement)}
    {name : Text} :
    name ∈ (Statement.switch subject cases).dependencies family ↔
      ∃ c ∈ cases, name ∈ c.2.dependencies family := by
  simp only [mem_dependencies, callees, calleesOfCases_eq, List.mem_flatMap]

theorem renderItems_append (family : Family) (xs ys : List Statement) :
    renderItems family (xs ++ ys) = (do
      let first ← renderItems family xs
      let second ← renderItems family ys
      return first ++ second) := by
  simp only [renderItems_eq, Text.collect, traverse_append]
  cases traverse (render family) xs with
  | error e => rfl
  | ok first =>
    cases traverse (render family) ys with
    | error e => rfl
    | ok second => exact congrArg Except.ok List.flatten_append

theorem renderItems_append_eq_ok {family : Family} {xs ys : List Statement} {t : Text} :
    renderItems family (xs ++ ys) = .ok t ↔
      ∃ first second, renderItems family xs = .ok first ∧ renderItems family ys = .ok second ∧
        first ++ second = t := by
  simp only [renderItems_append, bind_eq_ok, pure_eq_ok]
  constructor
  · rintro ⟨first, hfirst, second, hsecond, rfl⟩
    exact ⟨first, second, hfirst, hsecond, rfl⟩
  · rintro ⟨first, second, hfirst, hsecond, rfl⟩
    exact ⟨first, hfirst, second, hsecond, rfl⟩

end Statement

/-- The line that opens the definition of the function with a label. -/
def Definition.heading (label : Text) : Family → Text
  | .unix => label ++ "() \x7b"
  | .windows => ':' :: label

/-- Whether the text of a definition starts by naming its label. -/
def Definition.IsHeaded (family : Family) (d : Definition) : Prop :=
  ∃ body, d.text = family.line (heading d.label family) ++ body

theorem LibraryFunction.isHeaded_toDefinition (family : Family) (f : LibraryFunction) :
    (f.toDefinition family).IsHeaded family := by
  cases family <;> cases f <;> exact ⟨_, rfl⟩

theorem LibraryFunction.upper_name_injective {f g : LibraryFunction}
    (h : f.name.upper = g.name.upper) : f = g := by
  revert h
  cases f <;> cases g <;> decide

namespace Scope

theorem toDefinition_eq_ok {family : Family} {scope : Scope} {d : Definition} :
    scope.toDefinition family = .ok d ↔
      ∃ body, Variable.exportSection scope.assignments family = .ok body ∧
        d = ⟨scope.label, functionDefinition scope.name body family⟩ := by
  simp only [toDefinition, render, map_eq_ok]
  constructor
  · rintro ⟨_, ⟨body, hbody, rfl⟩, rfl⟩
    exact ⟨body, hbody, rfl⟩
  · rintro ⟨body, hbody, rfl⟩
    exact ⟨_, ⟨body, hbody, rfl⟩, rfl⟩

theorem label_of_toDefinition {family : Family} (scope : Scope) (d : Definition)
    (h : scope.toDefinition family = .ok d) : d.label = scope.label := by
  obtain ⟨body, -, rfl⟩ := toDefinition_eq_ok.mp h
  rfl

theorem isHeaded_of_toDefinition {family : Family} {scope : Scope} {d : Definition}
    (h : scope.toDefinition family = .ok d) : d.IsHeaded family := by
  obtain ⟨body, -, rfl⟩ := toDefinition_eq_ok.mp h
  cases family with
  | unix =>
    refine ⟨body ++ Family.unix.block ["   return 0", "\x7d"], ?_⟩
    simp only [functionDefinition, Definition.heading, label, List.append_assoc]
  | windows =>
    refine ⟨body ++ Family.windows.line "   exit /b 0", ?_⟩
    simp only [functionDefinition, Definition.heading, label, List.append_assoc]

theorem IsUsableName.upper_label_ne {name : Text} (h : IsUsableName name) (f : LibraryFunction) :
    (Label.ofName name).upper ≠ f.name.upper := by
  intro heq
  have hreserved : isReservedName name = true := by
    rw [isReservedName, Bool.or_eq_true]
    exact Or.inl (List.any_eq_true.mpr ⟨f, LibraryFunction.mem_all f, by simp [heq]⟩)
  rw [h.2] at hreserved
  exact Bool.false_ne_true hreserved

end Scope

namespace ScriptPlan

/-- Whether a statement ahead of the dispatch or a case of the dispatch calls a function of this
name. -/
def Calls (plan : ScriptPlan) (family : Family) (name : Text) : Prop :=
  (∃ s ∈ plan.statements, name ∈ s.dependencies family) ∨
    ∃ table ∈ plan.switch, ∃ c ∈ table.cases.entries, name ∈ c.2.dependencies family

theorem calls_iff_exists_body {plan : ScriptPlan} {family : Family} {name : Text} :
    plan.Calls family name ↔ ∃ s ∈ plan.body, name ∈ s.dependencies family := by
  cases hswitch : plan.switch with
  | none => simp [Calls, body, hswitch]
  | some table =>
    simp only [Calls, body, hswitch, Option.mem_def, Option.some.injEq, exists_eq_left',
      Option.map_some, Option.toList_some, List.mem_append, List.mem_singleton, or_and_right,
      exists_or, exists_eq_left, Switch.toStatement, Statement.mem_dependencies_switch]

theorem calls_iff_mem_callees {plan : ScriptPlan} {family : Family} {name : Text} :
    plan.Calls family name ↔ name ∈ Statement.calleesOfItems family plan.body := by
  rw [calls_iff_exists_body, Statement.calleesOfItems_eq, List.mem_flatMap]
  simp only [Statement.mem_dependencies]

theorem mem_required {plan : ScriptPlan} {family : Family} {name : Text} :
    name ∈ (plan.required family).names ↔
      name = LibraryFunction.abort.name ∨ plan.Calls family name := by
  rw [calls_iff_mem_callees, ← List.mem_cons]
  exact NameSet.mem_ofList

/-- The definitions of a script in order: `abort`, the scopes, and what else is embedded of the
library. -/
def definitions (family : Family) (scopes : List Definition) (library : List LibraryFunction) :
    List Definition :=
  LibraryFunction.abort.toDefinition family ::
    scopes ++ (library.filter (· ≠ .abort)).map (LibraryFunction.toDefinition family)

theorem write_eq_ok {plan : ScriptPlan} {family : Family} {script : Script} :
    plan.write family = .ok script ↔
      ∃ library scopes body,
        LibraryFunction.resolve family plan.scopes.labels (plan.required family).names =
          .ok library ∧
        traverse (Scope.toDefinition family) plan.scopes.scopes = .ok scopes ∧
        Statement.renderItems family plan.body = .ok body ∧
        plan.assemble family (definitions family scopes library) body = script := by
  simp only [write, bind_eq_ok, pure_eq_ok]
  constructor
  · rintro ⟨library, hlibrary, scopes, hscopes, body, hbody, rfl⟩
    exact ⟨library, scopes, body, hlibrary, hscopes, hbody, rfl⟩
  · rintro ⟨library, scopes, body, hlibrary, hscopes, hbody, rfl⟩
    exact ⟨library, hlibrary, scopes, hscopes, body, hbody, rfl⟩

theorem build_eq_ok {plan : ScriptPlan} {family : Family} {script : Script} :
    plan.build family = .ok script ↔ plan.write family = .ok script := by
  rw [build]
  cases plan.write family <;> simp [Except.mapError]

/-! ### Labels -/

theorem map_label_definitions {plan : ScriptPlan} {family : Family} {scopes : List Definition}
    (hscopes : traverse (Scope.toDefinition family) plan.scopes.scopes = .ok scopes)
    (library : List LibraryFunction) :
    (definitions family scopes library).map Definition.label =
      LibraryFunction.abort.name :: plan.scopes.labels ++
        (library.filter (· ≠ .abort)).map LibraryFunction.name := by
  have hlabels : scopes.map Definition.label = plan.scopes.labels :=
    map_of_traverse_eq_ok Scope.label_of_toDefinition hscopes
  simp only [definitions, List.map_append, List.map_cons, hlabels, List.map_map]
  rfl

theorem pairwise_upper_labels (registry : ScopeRegistry) :
    registry.labels.Pairwise fun a b => a.upper ≠ b.upper := by
  rw [ScopeRegistry.labels, List.pairwise_map]
  refine registry.apart.imp fun {a b} hab => ?_
  simpa [Scope.clashes, Label.same, Scope.label] using hab

theorem upper_label_ne_name {registry : ScopeRegistry} {label : Text} (h : label ∈ registry.labels)
    (f : LibraryFunction) : label.upper ≠ f.name.upper := by
  obtain ⟨scope, hscope, rfl⟩ := List.mem_map.mp h
  exact (registry.usable scope hscope).upper_label_ne f

theorem label_ne_name {registry : ScopeRegistry} {label : Text} (h : label ∈ registry.labels)
    (f : LibraryFunction) : label ≠ f.name :=
  fun heq => upper_label_ne_name h f (congrArg Text.upper heq)

theorem pairwise_upper_names {functions : List LibraryFunction} (h : functions.Nodup) :
    (functions.map LibraryFunction.name).Pairwise fun a b => a.upper ≠ b.upper := by
  rw [List.pairwise_map]
  exact h.imp fun hne heq => hne (LibraryFunction.upper_name_injective heq)

/-- The functions of a script are told apart by their labels, whatever the case. -/
theorem pairwise_upper_functions (registry : ScopeRegistry) {functions : List LibraryFunction}
    (hnodup : functions.Nodup) :
    (LibraryFunction.abort.name :: registry.labels ++
      (functions.filter (· ≠ .abort)).map LibraryFunction.name).Pairwise
        fun a b => a.upper ≠ b.upper := by
  rw [List.cons_append, List.pairwise_cons, List.pairwise_append]
  refine ⟨?_, pairwise_upper_labels registry, pairwise_upper_names (hnodup.filter _), ?_⟩
  · intro name hname
    rcases List.mem_append.mp hname with hlabel | hfunction
    · exact (upper_label_ne_name hlabel .abort).symm
    · obtain ⟨f, hf, rfl⟩ := List.mem_map.mp hfunction
      intro heq
      obtain rfl := LibraryFunction.upper_name_injective heq
      simp at hf
  · intro label hlabel name hname
    obtain ⟨f, -, rfl⟩ := List.mem_map.mp hname
    exact upper_label_ne_name hlabel f

/-! ### The embedded library -/

def called (plan : ScriptPlan) (family : Family) : List LibraryFunction :=
  LibraryFunction.all.filter fun f => (Statement.calleesOfItems family plan.body).contains f.name

theorem mem_called {plan : ScriptPlan} {family : Family} {f : LibraryFunction} :
    f ∈ plan.called family ↔ plan.Calls family f.name := by
  simp only [called, List.mem_filter, LibraryFunction.mem_all, true_and, List.contains_iff_mem,
    calls_iff_mem_callees]

/-- `abort` calls nothing, so asking for it adds nothing else. -/
theorem filter_closure_eq {required called : List LibraryFunction}
    (h : ∀ f, f ∈ required ↔ f = .abort ∨ f ∈ called) :
    (LibraryFunction.closure required).filter (· ≠ .abort) =
      LibraryFunction.all.filter fun f =>
        f ∈ (LibraryFunction.closure called).toFinset ∧ f ≠ .abort := by
  have hrequired := LibraryFunction.isLeast_closure required
  have hcalled := LibraryFunction.isLeast_closure called
  have hle : (LibraryFunction.closure called).toFinset ⊆
      (LibraryFunction.closure required).toFinset :=
    hcalled.2 ⟨fun f hf => hrequired.1.1 f ((h f).mpr (Or.inr hf)), hrequired.1.2⟩
  -- the other set with `abort` in it covers what is required, so the least one is part of it
  have hge : (LibraryFunction.closure required).toFinset ⊆
      insert .abort (LibraryFunction.closure called).toFinset := by
    refine hrequired.2 ⟨fun f hf => ?_, fun f hf callee hcallee => ?_⟩
    · rcases (h f).mp hf with rfl | hf
      · exact Finset.mem_insert_self _ _
      · exact Finset.mem_insert_of_mem (hcalled.1.1 f hf)
    · rcases Finset.mem_insert.mp hf with rfl | hf
      · simp [LibraryFunction.dependencies] at hcallee
      · exact Finset.mem_insert_of_mem (hcalled.1.2 f hf callee hcallee)
  rw [LibraryFunction.closure_eq_filter required, List.filter_filter]
  apply List.filter_congr
  intro f _
  by_cases habort : f = .abort
  · simp [habort]
  · have hiff : f ∈ LibraryFunction.closure required ↔ f ∈ LibraryFunction.closure called := by
      constructor
      · intro hf
        have hmem := hge (List.mem_toFinset.mpr hf)
        simpa [habort] using hmem
      · intro hf
        exact List.mem_toFinset.mp (hle (List.mem_toFinset.mpr hf))
    simp [habort, hiff]

/-- What a plan embeds beside `abort` belongs to the least set that covers its calls. -/
theorem exists_isLeast_library {plan : ScriptPlan} {family : Family}
    {library : List LibraryFunction}
    (h : LibraryFunction.resolve family plan.scopes.labels (plan.required family).names =
      .ok library) :
    ∃ needed : Finset LibraryFunction,
      IsLeast {functions | LibraryFunction.Covers (fun f => plan.Calls family f.name) functions}
        needed ∧
      library.filter (· ≠ .abort) =
        LibraryFunction.all.filter fun f => f ∈ needed ∧ f ≠ .abort := by
  obtain ⟨required, rfl, hrequired⟩ := LibraryFunction.eq_closure_of_resolve h
  refine ⟨(LibraryFunction.closure (plan.called family)).toFinset, ?_, filter_closure_eq ?_⟩
  · simpa only [mem_called] using LibraryFunction.isLeast_closure (plan.called family)
  · intro f
    rw [hrequired, mem_required, mem_called]
    have hlabel : f.name ∉ plan.scopes.labels := fun hf => label_ne_name hf f rfl
    have hname : f.name = LibraryFunction.abort.name ↔ f = .abort :=
      ⟨fun heq => LibraryFunction.upper_name_injective (congrArg Text.upper heq), congrArg _⟩
    simp only [hlabel, not_false_eq_true, and_true, hname]

theorem mem_functions_of_calls {plan : ScriptPlan} {family : Family}
    {library : List LibraryFunction} {needed : Finset LibraryFunction}
    (hlibrary : LibraryFunction.resolve family plan.scopes.labels (plan.required family).names =
      .ok library)
    (hneeded : LibraryFunction.Covers (fun f => plan.Calls family f.name) needed) {name : Text}
    (hcalls : plan.Calls family name) :
    name ∈ LibraryFunction.abort.name :: plan.scopes.labels ++
      (LibraryFunction.all.filter fun f => f ∈ needed ∧ f ≠ .abort).map LibraryFunction.name := by
  have hresolves := LibraryFunction.exists_resolve_eq_ok.mp ⟨library, hlibrary⟩ name
    (mem_required.mpr (Or.inr hcalls))
  rcases hresolves with hlabel | ⟨f, rfl⟩
  · exact List.mem_append_left _ (List.mem_cons_of_mem _ hlabel)
  · by_cases habort : f = .abort
    · subst habort
      exact List.mem_append_left _ List.mem_cons_self
    · refine List.mem_append_right _ (List.mem_map_of_mem ?_)
      simp [LibraryFunction.mem_all, habort, hneeded.1 f hcalls]

/-- Whether a definition is that of a library function or of a scope of the plan. -/
def Defines (plan : ScriptPlan) (family : Family) (d : Definition) : Prop :=
  (∃ f : LibraryFunction, d = f.toDefinition family) ∨
    ∃ scope ∈ plan.scopes.scopes, scope.toDefinition family = .ok d

theorem Defines.isHeaded {plan : ScriptPlan} {family : Family} {d : Definition}
    (h : plan.Defines family d) : d.IsHeaded family := by
  rcases h with ⟨f, rfl⟩ | ⟨scope, -, hscope⟩
  · exact f.isHeaded_toDefinition family
  · exact Scope.isHeaded_of_toDefinition hscope

theorem defines_of_mem_definitions {plan : ScriptPlan} {family : Family} {scopes : List Definition}
    (hscopes : traverse (Scope.toDefinition family) plan.scopes.scopes = .ok scopes)
    {library : List LibraryFunction} {d : Definition}
    (hd : d ∈ definitions family scopes library) : plan.Defines family d := by
  rcases List.mem_append.mp hd with hd | hd
  · rcases List.mem_cons.mp hd with rfl | hd
    · exact Or.inl ⟨.abort, rfl⟩
    · exact Or.inr ((mem_of_traverse_eq_ok hscopes).mp hd)
  · obtain ⟨f, -, rfl⟩ := List.mem_map.mp hd
    exact Or.inl ⟨f, rfl⟩

theorem assemble_text (plan : ScriptPlan) (family : Family) (definitions : List Definition)
    (statements dispatch : Text) :
    (plan.assemble family definitions (statements ++ dispatch)).text =
      Token.beginScript.literal family ++ Variable.unsetSection plan.unset family ++
        (Token.beginFunctions.literal family ++ definitions.flatMap Definition.text ++
          Token.endFunctions.literal family) ++
        Variable.resetPath family ++ statements ++ dispatch ++ Token.endScript.literal family := by
  simp only [assemble, List.append_assoc]

/-- Whatever edits led to a plan, a script built from it defines `abort`, the scopes in order and
the rest of the least set of library functions that covers its calls. No two of these functions
share a label, whatever the case, every call reaches one of them, and their definitions, each headed
by its label, make up the function section of the text. -/
theorem functions_of_build (changes : List Edit) (family : Family) {script : Script}
    (h : (new.editAll changes).build family = .ok script) :
    let plan := new.editAll changes
    (∃ needed : Finset LibraryFunction,
      IsLeast {functions | LibraryFunction.Covers (fun f => plan.Calls family f.name) functions}
        needed ∧
      script.functions = LibraryFunction.abort.name :: plan.scopes.labels ++
        (LibraryFunction.all.filter fun f => f ∈ needed ∧ f ≠ .abort).map LibraryFunction.name) ∧
    (script.functions.Pairwise fun a b => a.upper ≠ b.upper) ∧
    (∀ name, plan.Calls family name → name ∈ script.functions) ∧
    ∃ (defined : List Definition) (statements dispatch : Text),
      defined.map Definition.label = script.functions ∧
      (∀ d ∈ defined, plan.Defines family d ∧ d.IsHeaded family) ∧
      Statement.renderItems family plan.statements = .ok statements ∧
      Statement.renderItems family (plan.switch.map Switch.toStatement).toList = .ok dispatch ∧
      script.text =
        Token.beginScript.literal family ++ Variable.unsetSection plan.unset family ++
          (Token.beginFunctions.literal family ++ defined.flatMap Definition.text ++
            Token.endFunctions.literal family) ++
          Variable.resetPath family ++ statements ++ dispatch ++ Token.endScript.literal family := by
  intro plan
  obtain ⟨library, scopes, body, hlibrary, hscopes, hbody, rfl⟩ :=
    write_eq_ok.mp (build_eq_ok.mp h)
  obtain ⟨statements, dispatch, hstatements, hdispatch, rfl⟩ :=
    Statement.renderItems_append_eq_ok.mp hbody
  obtain ⟨needed, hneeded, hfilter⟩ := exists_isLeast_library hlibrary
  have hlabels := map_label_definitions hscopes library
  have hfunctions : (definitions family scopes library).map Definition.label =
      LibraryFunction.abort.name :: plan.scopes.labels ++
        (LibraryFunction.all.filter fun f => f ∈ needed ∧ f ≠ .abort).map LibraryFunction.name := by
    rw [hlabels, hfilter]
  refine ⟨⟨needed, hneeded, hfunctions⟩, ?_, ?_, definitions family scopes library, statements,
    dispatch, rfl, ?_, hstatements, hdispatch, assemble_text plan family _ statements dispatch⟩
  · have hnodup : library.Nodup := by
      obtain ⟨required, rfl, -⟩ := LibraryFunction.eq_closure_of_resolve hlibrary
      rw [LibraryFunction.closure_eq_filter]
      exact List.Nodup.filter _ (by decide)
    change ((definitions family scopes library).map Definition.label).Pairwise _
    rw [hlabels]
    exact pairwise_upper_functions plan.scopes hnodup
  · intro name hname
    change name ∈ (definitions family scopes library).map Definition.label
    rw [hfunctions]
    exact mem_functions_of_calls hlibrary hneeded.1 hname
  · intro d hd
    have hdefines := defines_of_mem_definitions hscopes hd
    exact ⟨hdefines, hdefines.isHeaded⟩

/-- The edits of a plan with two scopes, a look-up ahead of the dispatch, and a start in it. -/
def serviceEdits : List Edit :=
  [.scope ⟨"default", Table.ofList [("instanceName", "web")]⟩,
    .statement (.findPid "worker"),
    .scope ⟨"my-app", Table.ofList [("logDir", "{temp}")]⟩,
    .switch (Switch.ofCases "1"
      [("start", .list [.call "my-app" [], .forget "web" "run.{sh}" "logs"])])]

theorem functions_of_build_serviceEdits :
    ∃ script : Script,
      (new.editAll serviceEdits).build .windows = .ok script ∧
      script.functions = ["abort", "default", "my_app", "findPid", "forget"].map String.toList ∧
      (script.functions.Pairwise fun a b => a.upper ≠ b.upper) ∧
      (new.editAll serviceEdits).Calls .windows "my_app" ∧
      ("my_app" : Text) ∈ script.functions := by
  have hwritten : ((new.editAll serviceEdits).build .windows).map Script.functions =
      .ok (["abort", "default", "my_app", "findPid", "forget"].map String.toList) := by
    decide
  obtain ⟨script, hscript, hfunctions⟩ := map_eq_ok.mp hwritten
  have hcalls : (new.editAll serviceEdits).Calls .windows "my_app" := by
    rw [calls_iff_mem_callees]
    decide
  obtain ⟨-, hapart, hreached, -⟩ := functions_of_build serviceEdits .windows hscript
  exact ⟨script, hscript, hfunctions, hapart, hcalls, hreached _ hcalls⟩

end ScriptPlan

end DualShell
