import DualShell.Proofs.FunctionSection
import DualShell.Proofs.ShownStatements

/-!
The labels of a whole batch script. It marks the places of its functions, the end of their section, and
the places of the tables, captured bodies and functions that its statements show; every jump is to one
of these places. Tables number their arms from the start each, and every captured body has one and the
same label, so the labels differ exactly when at most one table and one captured body are shown and the
functions shown have labels of their own.
-/

namespace DualShell

open Passes

namespace Statement

def isTable : Statement → Bool
  | .switch _ _ => true
  | .interpret _ | .list _ | .exitInsteadOfReturn _ | .scope _ | .call _ _ | .findPid _ | .kill
  | .forget _ _ _ | .runScript _ _ _ _ | .capture _ _ | .dialect _ _ => false

def isCapture : Statement → Bool
  | .capture _ _ => true
  | .interpret _ | .list _ | .exitInsteadOfReturn _ | .scope _ | .call _ _ | .switch _ _ | .findPid _
  | .kill | .forget _ _ _ | .runScript _ _ _ _ | .dialect _ _ => false

theorem mem_frameLabels {s : Statement} {label : Text} :
    label ∈ s.frameLabels ↔
      (∃ subject cases, s = .switch subject cases ∧ label ∈ Dispatch.labels cases.length) ∨
        ∃ logDirectory body, s = .capture logDirectory body ∧ label = Label.capturedBody := by
  cases s <;> simp [frameLabels]

theorem isTable_iff {s : Statement} : s.isTable = true ↔ ∃ subject cases, s = .switch subject cases := by
  cases s <;> simp [isTable]

theorem isCapture_iff {s : Statement} :
    s.isCapture = true ↔ ∃ logDirectory body, s = .capture logDirectory body := by
  cases s <;> simp [isCapture]

theorem pairwise_frameLabels (s : Statement) :
    s.frameLabels.Pairwise fun a b => a.upper ≠ b.upper := by
  cases s with
  | switch subject cases => exact Dispatch.pairwise_upper_labels cases.length
  | capture logDirectory body => exact List.pairwise_singleton _ _
  | _ => exact List.Pairwise.nil

theorem upper_ne_of_mem_labels {size : Nat} {place other : Text} (h : place ∈ Dispatch.labels size)
    (harm : ¬Label.armStem <+: other.upper) (hend : Label.endSwitch.upper ≠ other.upper) :
    place.upper ≠ other.upper := by
  rcases List.mem_append.mp h with hmem | hmem
  · obtain ⟨index, -, rfl⟩ := List.mem_map.mp hmem
    exact Label.upper_arm_ne harm index
  · rwa [List.mem_singleton.mp hmem]

theorem isFrame_of_mem_frameLabels {s : Statement} {label : Text} (h : label ∈ s.frameLabels) :
    Label.IsFrame label := by
  rcases mem_frameLabels.mp h with ⟨subject, cases, rfl, hlabel⟩ | ⟨logDirectory, body, rfl, rfl⟩
  · exact Dispatch.isFrame_of_mem_labels hlabel
  · exact Label.isFrame_capturedBody

theorem upper_functionEnd_ne {s : Statement} {label : Text} (h : label ∈ s.frameLabels) :
    Label.functionEnd.upper ≠ label.upper := by
  rcases mem_frameLabels.mp h with ⟨subject, cases, rfl, hlabel⟩ | ⟨logDirectory, body, rfl, rfl⟩
  · exact (upper_ne_of_mem_labels hlabel (by decide) (by decide)).symm
  · decide

/-- Two statements have a label in common exactly when both are tables or both are captured bodies. -/
theorem apart_frameLabels_iff {s t : Statement} :
    (∀ a ∈ s.frameLabels, ∀ b ∈ t.frameLabels, a.upper ≠ b.upper) ↔
      (s.isTable → t.isTable → False) ∧ (s.isCapture → t.isCapture → False) := by
  constructor
  · intro h
    refine ⟨fun hs ht => ?_, fun hs ht => ?_⟩
    · obtain ⟨subject, cases, rfl⟩ := isTable_iff.mp hs
      obtain ⟨subject', cases', rfl⟩ := isTable_iff.mp ht
      exact h _ (Dispatch.endSwitch_mem_labels _) _ (Dispatch.endSwitch_mem_labels _) rfl
    · obtain ⟨logDirectory, body, rfl⟩ := isCapture_iff.mp hs
      obtain ⟨logDirectory', body', rfl⟩ := isCapture_iff.mp ht
      exact h _ (List.mem_singleton_self _) _ (List.mem_singleton_self _) rfl
  · rintro ⟨htables, hcaptures⟩ a ha b hb
    rcases mem_frameLabels.mp ha with ⟨subject, cases, rfl, ha⟩ | ⟨logDirectory, body, rfl, rfl⟩ <;>
      rcases mem_frameLabels.mp hb with ⟨subject', cases', rfl, hb⟩ | ⟨logDirectory', body', rfl, rfl⟩
    · exact (htables rfl rfl).elim
    · exact upper_ne_of_mem_labels ha (by decide) (by decide)
    · exact (upper_ne_of_mem_labels hb (by decide) (by decide)).symm
    · exact (hcaptures rfl rfl).elim

end Statement

theorem length_filter_le_one_iff {α : Type} (p : α → Bool) (items : List α) :
    (items.filter p).length ≤ 1 ↔ items.Pairwise fun a b => p a → p b → False := by
  rw [← List.pairwise_filter (R := fun _ _ => False)]
  match items.filter p with
  | [] => simp
  | [a] => simp
  | a :: b :: rest =>
    refine iff_of_false (by simp) fun h => ?_
    exact List.rel_of_pairwise_cons h List.mem_cons_self

/-- The labels of tables and captured bodies differ exactly when there is at most one of each. -/
theorem pairwise_flatMap_frameLabels_iff (nodes : List Statement) :
    ((nodes.flatMap Statement.frameLabels).Pairwise fun a b => a.upper ≠ b.upper) ↔
      (nodes.filter Statement.isTable).length ≤ 1 ∧ (nodes.filter Statement.isCapture).length ≤ 1 := by
  rw [List.pairwise_flatMap, length_filter_le_one_iff, length_filter_le_one_iff, ← List.pairwise_and_iff]
  simp only [Statement.apart_frameLabels_iff]
  exact and_iff_right fun s _ => s.pairwise_frameLabels

theorem Token.name_eq_of_ofName? {name : Text} {token : Token} (h : ofName? name = some token) :
    token.name = name := by
  simpa using List.find?_some h

section Frame

open Label

/-- The variables behind aliases have names on one line. -/
theorem lf_not_mem_realName {name : Text} (h : '\n' ∉ name) :
    '\n' ∉ Variable.realName .windows name := by
  have hliterals : ∀ token ∈ Token.all, ("Variable" : Text) <:+ token.name →
      '\n' ∉ token.literal .windows := by decide
  rw [Variable.realName, Variable.realName?]
  cases htoken : Token.ofName? (name ++ "Variable") with
  | none => simpa using h
  | some token =>
    have hname : token.name = name ++ "Variable" := Token.name_eq_of_ofName? htoken
    refine hliterals token (Token.mem_all token) ?_
    rw [hname]
    exact List.suffix_append _ _

theorem isIndex_unsetSection {names : List Text} (h : ∀ name ∈ names, '\n' ∉ name) :
    IsIndex [] [] [] (Variable.unsetSection names .windows) := by
  rw [Variable.unsetSection]
  apply IsIndex.quiet
  intro line hline
  have hcleared : ∃ name ∈ names, line = "set " ++ Variable.realName .windows name ++ "=" := by
    simp only [Variable.unsetLines] at hline
    split at hline
    · cases hline
    · contradiction
    · next cleared _ hcleared _ =>
      obtain ⟨real, hreal, rfl⟩ := List.mem_map.mp hline
      rw [mem_distinct] at hreal
      obtain ⟨name, hname, rfl⟩ := List.mem_map.mp hreal
      exact ⟨name, hname, rfl⟩
  obtain ⟨name, hname, rfl⟩ := hcleared
  refine ⟨?_, isQuiet_of_head? 's' rfl (by decide)⟩
  simp only [List.mem_append, not_or]
  exact ⟨⟨by decide, lf_not_mem_realName (h name hname)⟩, by decide⟩

theorem isIndex_beginScript : IsIndex [] [] [] (Token.beginScript.literal .windows) :=
  IsIndex.quiet_line (by decide) (by decide)

theorem isIndex_beginFunctions : IsIndex [] [functionEnd] [] (Token.beginFunctions.literal .windows) := by
  have hjump : jumpTarget? ("GOTO " ++ functionEnd) = some functionEnd := by decide
  show IsIndex [] [functionEnd] [] (Family.windows.line ("GOTO " ++ functionEnd))
  exact IsIndex.jump (by decide) (by decide) hjump

theorem isIndex_endFunctions : IsIndex [functionEnd] [] [] (Token.endFunctions.literal .windows) :=
  IsIndex.place (by decide)

theorem isIndex_resetPath : IsIndex [] [] [] (Variable.resetPath .windows) :=
  IsIndex.quiet_line (by decide) (by decide)

theorem isIndex_endScript : IsIndex [] [] [] (Token.endScript.literal .windows) :=
  IsIndex.quiet_line (by decide) (by decide)

end Frame

namespace ScriptPlan

/-- The statements shown in a script of the plan, in the order of their lines. -/
def shown (plan : ScriptPlan) : List Statement := plan.body.flatMap Statement.shown

/-- The texts that a plan is given for the lines of its script. -/
def strings (plan : ScriptPlan) : List Text :=
  plan.unset ++ plan.scopes.scopes.flatMap Scope.strings ++ plan.shown.flatMap Statement.strings

variable {plan : ScriptPlan}

theorem mem_label_of_mem_library {scopes : List Definition}
    (hscopes : traverse (Scope.toDefinition .windows) plan.scopes.scopes = .ok scopes)
    {library : List LibraryFunction} {f : LibraryFunction} (hf : f = .abort ∨ f ∈ library) :
    f.name ∈ (definitions .windows scopes library).map Definition.label := by
  rw [map_label_definitions hscopes]
  by_cases habort : f = .abort
  · subst habort
    exact List.mem_append_left _ List.mem_cons_self
  · refine List.mem_append_right _ (List.mem_map_of_mem (List.mem_filter.mpr ⟨?_, by simpa using habort⟩))
    exact hf.resolve_left habort

/-- The functions of a script jump to each other only. -/
theorem isIndex_definitions
    (hinert : ∀ scope ∈ plan.scopes.scopes, ∀ t ∈ scope.strings, t.IsInert)
    {scopes : List Definition}
    (hscopes : traverse (Scope.toDefinition .windows) plan.scopes.scopes = .ok scopes)
    {library : List LibraryFunction}
    (hlibrary : LibraryFunction.resolve .windows plan.scopes.labels (plan.required .windows).names =
      .ok library) :
    Label.IsIndex ((definitions .windows scopes library).map Definition.label) [] []
      ((definitions .windows scopes library).flatMap Definition.text) := by
  have hcovers : ∀ f ∈ library, ∀ callee ∈ f.dependencies, callee ∈ library := by
    obtain ⟨required, rfl, -⟩ := LibraryFunction.eq_closure_of_resolve hlibrary
    simpa using (LibraryFunction.isLeast_closure required).1.2
  have hfunction : ∀ f : LibraryFunction, f = .abort ∨ f ∈ library →
      Label.IsIndex [f.name] ((definitions .windows scopes library).map Definition.label) []
        (f.definition .windows) := by
    intro f hf
    refine (isIndex_definition f).weaken (List.forall_mem_map.mpr fun callee hcallee => Or.inr ?_)
    rcases hf with rfl | hf
    · cases hcallee
    · exact mem_label_of_mem_library hscopes (Or.inr (hcovers f hf callee hcallee))
  have hdefined : ∀ d ∈ definitions .windows scopes library,
      Label.IsIndex [d.label] ((definitions .windows scopes library).map Definition.label) []
        d.text := by
    intro d hd
    rcases List.mem_append.mp hd with hd | hd
    · rcases List.mem_cons.mp hd with rfl | hd
      · exact hfunction .abort (Or.inl rfl)
      · obtain ⟨scope, hscope, hd⟩ := (mem_of_traverse_eq_ok hscopes).mp hd
        obtain ⟨text, htext, rfl⟩ := map_eq_ok.mp hd
        exact (Scope.isIndex_render (hinert scope hscope) htext).weaken nofun
    · obtain ⟨f, hf, rfl⟩ := List.mem_map.mp hd
      exact hfunction f (Or.inr (List.mem_filter.mp hf).1)
  have hindex := Label.IsIndex.flatMap hdefined
  have hgiven : (definitions .windows scopes library).flatMap (fun _ => ([] : List Text)) = [] :=
    List.flatMap_eq_nil_iff.mpr fun _ _ => rfl
  rw [← List.map_eq_flatMap, hgiven] at hindex
  refine hindex.weaken fun name hname => Or.inl ?_
  obtain ⟨-, -, hmem⟩ := List.mem_flatMap.mp hname
  exact hmem

/-- The index of a whole script. -/
theorem isIndex_of_write (hinert : ∀ t ∈ plan.strings, t.IsInert) {script : Script}
    (h : plan.write .windows = .ok script) :
    Label.IsIndex (script.functions ++ Label.functionEnd :: plan.shown.flatMap Statement.ownLabels) []
      (plan.shown.flatMap Statement.givenLines) script.text := by
  simp only [strings, List.forall_mem_append] at hinert
  obtain ⟨⟨hunset, hscopeStrings⟩, hshown⟩ := hinert
  obtain ⟨library, scopes, body, hlibrary, hscopes, hbody, rfl⟩ := write_eq_ok.mp h
  have hdefinitions := isIndex_definitions (fun scope hscope t ht =>
    hscopeStrings t (List.mem_flatMap.mpr ⟨scope, hscope, ht⟩)) hscopes hlibrary
  have hstatements : Statement.HasIndex plan.shown (Statement.calleesOfItems .windows plan.body)
      body := by
    rw [shown, ← Statement.shownOfItems_eq] at hshown ⊢
    exact Statement.hasIndex_of_render (s := .list plan.body)
      (fun node hnode t ht => hshown t (List.mem_flatMap.mpr ⟨node, hnode, ht⟩)) hbody
  have hcalls : ∀ name ∈ Statement.calleesOfItems .windows plan.body,
      name ∈ (definitions .windows scopes library).map Definition.label := by
    obtain ⟨needed, hneeded, hfilter⟩ := exists_isLeast_library hlibrary
    intro name hname
    rw [map_label_definitions hscopes, hfilter]
    exact mem_functions_of_calls hlibrary hneeded.1 (calls_iff_mem_callees.mpr hname)
  have hunset := isIndex_unsetSection fun name hname => (hunset name hname).2.2
  have hindex := ((((((isIndex_beginScript.append hunset).append isIndex_beginFunctions).append
    hdefinitions).append isIndex_endFunctions).append isIndex_resetPath).append hstatements).append
    isIndex_endScript
  simp only [List.nil_append, List.append_nil, List.append_assoc, List.singleton_append] at hindex
  simp only [assemble, List.append_assoc]
  refine hindex.weaken fun name hname => Or.inl ?_
  rcases List.mem_cons.mp hname with rfl | hname
  · exact List.mem_append_right _ List.mem_cons_self
  · exact List.mem_append_left _ (hcalls name hname)

theorem not_isFrame_of_mem_functions {script : Script} (h : plan.write .windows = .ok script)
    {label : Text} (hlabel : label ∈ script.functions) : ¬Label.IsFrame label := by
  obtain ⟨library, scopes, body, -, hscopes, -, rfl⟩ := write_eq_ok.mp h
  have hlibrary (f : LibraryFunction) : ¬Label.IsFrame f.name := by
    have hname : Label.ofName f.name = f.name := by cases f <;> decide
    rw [← hname, ← Label.isInternal_iff]
    cases f <;> decide
  change label ∈ (definitions .windows scopes library).map Definition.label at hlabel
  rw [map_label_definitions hscopes] at hlabel
  rcases List.mem_append.mp hlabel with hlabel | hlabel
  · rcases List.mem_cons.mp hlabel with rfl | hlabel
    · exact hlibrary .abort
    · obtain ⟨scope, hscope, rfl⟩ := List.mem_map.mp hlabel
      exact (plan.scopes.usable scope hscope).not_isFrame
  · obtain ⟨f, -, rfl⟩ := List.mem_map.mp hlabel
    exact hlibrary f

theorem pairwise_functions {script : Script} (h : plan.write .windows = .ok script) :
    script.functions.Pairwise fun a b => a.upper ≠ b.upper := by
  obtain ⟨library, scopes, body, hlibrary, hscopes, -, rfl⟩ := write_eq_ok.mp h
  change ((definitions .windows scopes library).map Definition.label).Pairwise _
  rw [map_label_definitions hscopes]
  exact pairwise_upper_functions plan.scopes (LibraryFunction.nodup_of_resolve hlibrary)

/-- The functions of a script and the end of their section never share a label with a table or a
captured body. -/
theorem pairwise_functions_append_iff {script : Script} (h : plan.write .windows = .ok script)
    (nodes : List Statement) :
    ((script.functions ++ Label.functionEnd :: nodes.flatMap Statement.frameLabels).Pairwise
      fun a b => a.upper ≠ b.upper) ↔
      (nodes.flatMap Statement.frameLabels).Pairwise fun a b => a.upper ≠ b.upper := by
  rw [List.pairwise_append, List.pairwise_cons]
  constructor
  · exact fun hall => hall.2.1.2
  · intro hframe
    have hend : ∀ other ∈ nodes.flatMap Statement.frameLabels,
        Label.functionEnd.upper ≠ other.upper := by
      intro other hother
      obtain ⟨node, -, hmem⟩ := List.mem_flatMap.mp hother
      exact Statement.upper_functionEnd_ne hmem
    refine ⟨pairwise_functions h, ⟨hend, hframe⟩, fun label hlabel place hplace heq => ?_⟩
    have hplaceFrame : Label.IsFrame place := by
      rcases List.mem_cons.mp hplace with rfl | hplace
      · exact Label.isFrame_functionEnd
      · obtain ⟨node, -, hmem⟩ := List.mem_flatMap.mp hplace
        exact Statement.isFrame_of_mem_frameLabels hmem
    exact not_isFrame_of_mem_functions h hlabel ((Label.IsFrame.congr heq).mpr hplaceFrame)

/-- When all labels of a script differ, whatever the case. -/
theorem pairwise_labels_iff {script : Script} (h : plan.write .windows = .ok script)
    (nodes : List Statement) :
    ((script.functions ++ Label.functionEnd :: nodes.flatMap Statement.ownLabels).Pairwise
      fun a b => a.upper ≠ b.upper) ↔
      (nodes.filter Statement.isTable).length ≤ 1 ∧ (nodes.filter Statement.isCapture).length ≤ 1 ∧
      ((nodes.flatMap Statement.scopeLabels).Pairwise fun a b => a.upper ≠ b.upper) ∧
      ∀ label ∈ nodes.flatMap Statement.scopeLabels,
        ∀ other ∈ script.functions ++ Label.functionEnd :: nodes.flatMap Statement.frameLabels,
          label.upper ≠ other.upper := by
  have hsplit : (nodes.flatMap Statement.ownLabels).Perm
      (nodes.flatMap Statement.frameLabels ++ nodes.flatMap Statement.scopeLabels) :=
    (List.flatMap_append_perm nodes Statement.frameLabels Statement.scopeLabels).symm
  have hperm := ((hsplit.cons Label.functionEnd).append_left script.functions)
  rw [← List.cons_append, ← List.append_assoc] at hperm
  rw [hperm.pairwise_iff fun hne => Ne.symm hne, List.pairwise_append,
    pairwise_functions_append_iff h, pairwise_flatMap_frameLabels_iff, and_assoc]
  refine and_congr Iff.rfl (and_congr Iff.rfl (and_congr Iff.rfl ?_))
  exact ⟨fun hapart label hlabel other hother => (hapart other hother label hlabel).symm,
    fun hapart other hother label hlabel => (hapart label hlabel other hother).symm⟩

/-- Whatever edits led to a plan, when the texts given for its lines are inert, a batch script built from
it marks the places of its functions, of the end of their section, and of the tables, captured bodies and
functions shown. Their labels differ, whatever the case, exactly when at most one table and one captured
body are shown and each function shown has a label of its own. Every jump is to one of these places,
unless it is in a line that was given as it is. -/
theorem labels_of_build (changes : List Edit) {script : Script}
    (hinert : ∀ t ∈ (new.editAll changes).strings, t.IsInert)
    (h : (new.editAll changes).build .windows = .ok script) :
    let nodes := (new.editAll changes).shown
    (Label.markedIn script.text).Perm
      (script.functions ++ Label.functionEnd :: nodes.flatMap Statement.ownLabels) ∧
    (((Label.markedIn script.text).Pairwise fun a b => a.upper ≠ b.upper) ↔
      (nodes.filter Statement.isTable).length ≤ 1 ∧ (nodes.filter Statement.isCapture).length ≤ 1 ∧
      ((nodes.flatMap Statement.scopeLabels).Pairwise fun a b => a.upper ≠ b.upper) ∧
      ∀ label ∈ nodes.flatMap Statement.scopeLabels,
        ∀ other ∈ script.functions ++ Label.functionEnd :: nodes.flatMap Statement.frameLabels,
          label.upper ≠ other.upper) ∧
    ∀ line ∈ Text.lines script.text, ∀ name, Label.jumpTarget? line = some name →
      name ∈ Label.markedIn script.text ∨ line ∈ nodes.flatMap Statement.givenLines := by
  intro nodes
  have hwrite := build_eq_ok.mp h
  have hindex := isIndex_of_write hinert hwrite
  refine ⟨hindex.marked, ?_, fun line hline name hname => ?_⟩
  · rw [hindex.marked.pairwise_iff fun hne => Ne.symm hne]
    exact pairwise_labels_iff hwrite nodes
  · rcases hindex.jumps line hline name hname with hlabel | hcall | hgiven
    · exact Or.inl (hindex.marked.mem_iff.mpr hlabel)
    · cases hcall
    · exact Or.inr hgiven

/-- The edits of a plan whose dispatch captures a body in one case and defines a function in the other. -/
def capturingEdits : List Edit :=
  [.scope ⟨"default", Table.ofList [("instanceName", "web")]⟩,
    .statement (.findPid "worker"),
    .switch (Switch.ofCases "1"
      [("run", .list [.call "default" [], .capture "logs" (.interpret ["echo running"])]),
        ("set", .scope ⟨"my-app", Table.ofList [("logDir", "logs")]⟩)])]

theorem labels_of_build_capturingEdits :
    (∀ t ∈ (new.editAll capturingEdits).strings, t.IsInert) ∧
    ∃ script, (new.editAll capturingEdits).build .windows = .ok script ∧
      (Label.markedIn script.text).Perm
        (["abort", "default", "findPid", "FUNCTION_END", "CASE_0", "CASE_1", "END_SWITCH",
          "CAPTURED_BODY", "my_app"].map String.toList) ∧
      ((Label.markedIn script.text).Pairwise fun a b => a.upper ≠ b.upper) ∧
      ∀ line ∈ Text.lines script.text, ∀ name, Label.jumpTarget? line = some name →
        name ∈ Label.markedIn script.text ∨ line = "echo running" := by
  have hinert : ∀ t ∈ (new.editAll capturingEdits).strings, t.IsInert := by decide
  have hwritten : ((new.editAll capturingEdits).build .windows).map Script.functions =
      .ok (["abort", "default", "findPid"].map String.toList) := by
    decide
  obtain ⟨script, hscript, hfunctions⟩ := map_eq_ok.mp hwritten
  obtain ⟨hmarked, hapart, hjumps⟩ := labels_of_build capturingEdits hinert hscript
  refine ⟨hinert, script, hscript, ?_, hapart.mpr ?_, ?_⟩
  · rw [hfunctions] at hmarked
    exact hmarked
  · rw [hfunctions]
    decide
  · intro line hline name hname
    refine (hjumps line hline name hname).imp_right fun hgiven => ?_
    have hlines : (new.editAll capturingEdits).shown.flatMap Statement.givenLines =
        [("echo running" : Text)] := by
      decide
    rw [hlines] at hgiven
    exact List.mem_singleton.mp hgiven

/-- The edits of a plan that shows two tables: one ahead of the dispatch, and the dispatch. -/
def twoTables : List Edit :=
  [.statement (.switch "MODE" [("fast", .interpret ["echo fast"])]),
    .switch (Switch.ofCases "1" [("run", .interpret ["echo run"])])]

theorem not_pairwise_markedIn_twoTables :
    ∃ script, (new.editAll twoTables).build .windows = .ok script ∧
      (∀ t ∈ (new.editAll twoTables).strings, t.IsInert) ∧
      Label.markedIn script.text =
        ["abort", "FUNCTION_END", "CASE_0", "END_SWITCH", "CASE_0", "END_SWITCH"].map String.toList ∧
      ¬(Label.markedIn script.text).Pairwise fun a b => a.upper ≠ b.upper := by
  have hmarked : ((new.editAll twoTables).build .windows).map (fun script => Label.markedIn script.text) =
      .ok (["abort", "FUNCTION_END", "CASE_0", "END_SWITCH", "CASE_0", "END_SWITCH"].map
        String.toList) := by
    decide
  obtain ⟨script, hscript, hplaces⟩ := map_eq_ok.mp hmarked
  refine ⟨script, hscript, by decide, hplaces, ?_⟩
  rw [hplaces]
  decide

end ScriptPlan

end DualShell
