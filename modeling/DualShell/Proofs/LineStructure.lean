import DualShell.Proofs.CommandLineEnds
import DualShell.Proofs.InstanceAcceptance

/-!
The line structure of scripts. Every statement, and with it every script, ends as its family ends lines
and has the family's own line ends only, as long as the texts that it is given have no others. So
nothing that is written runs into what follows it, and a script has as many lines as line feeds.
-/

namespace DualShell

open Passes Text

variable {family : Family}

namespace Text

/-- A text that ends its last line has as many lines as line feeds. -/
theorem length_lines {t : Text} (h : IsEnded t) : (lines t).length = t.count '\n' := by
  induction t with
  | nil => rfl
  | cons c rest ih =>
    have hrest : IsEnded rest := by
      rw [← List.singleton_append] at h
      exact h.of_append
    by_cases hc : c = '\n'
    · subst hc
      rw [lines_lf, List.length_cons, ih hrest, List.count_cons_self]
    · rw [List.count_cons_of_ne hc, ← ih hrest]
      by_cases hend : c = '\r' ∧ rest.head? = some '\n'
      · rw [lines, if_neg hc, if_pos hend]
      · have hne : rest ≠ [] := by
          rintro rfl
          exact hc (by simpa using h.resolve_left (by simp))
        obtain ⟨line, others, hlines⟩ := List.exists_cons_of_ne_nil (lines_ne_nil hne)
        rw [lines_cons_of_ne hc hend, hlines]
        rfl

end Text

namespace Statement

/-- Whether all texts that a statement is given for its lines, at any depth, have a property. -/
def AllStrings (family : Family) (P : Text → Prop) (s : Statement) : Prop :=
  ∀ node, Reaches family s node → ∀ t ∈ node.strings, P t

theorem allStrings_iff_parts {P : Text → Prop} {s : Statement} :
    s.AllStrings family P ↔
      (∀ t ∈ s.strings, P t) ∧ ∀ part ∈ s.parts family, part.AllStrings family P :=
  forall_reaches

theorem allStrings_list {P : Text → Prop} {items : List Statement} :
    (Statement.list items).AllStrings family P ↔ ∀ s ∈ items, s.AllStrings family P :=
  allStrings_iff_parts.trans (and_iff_right (List.forall_mem_nil _))

theorem allStrings_of_plain {s : Statement} (hparts : s.parts family = [])
    (h : ∀ t ∈ s.strings, '\r' ∉ t ∧ '\n' ∉ t) : s.AllStrings family (Lined family) := by
  rw [allStrings_iff_parts, hparts]
  exact ⟨fun t ht => lined_of_plain (h t ht), List.forall_mem_nil _⟩

theorem allStrings_dialect {unix windows : Statement} (hunix : unix.AllStrings family (Lined family))
    (hwindows : windows.AllStrings family (Lined family)) :
    (Statement.dialect unix windows).AllStrings family (Lined family) := by
  refine allStrings_iff_parts.mpr ⟨List.forall_mem_nil _, ?_⟩
  cases family with
  | unix => exact List.forall_mem_singleton.mpr hunix
  | windows => exact List.forall_mem_singleton.mpr hwindows

theorem lined_table_of_renderCases {subject : Text} {cases : List (Text × Statement)}
    {arms : List Dispatch.Arm} (hvalues : ∀ t ∈ subject :: cases.map Prod.fst, Lined family t)
    (hbodies : ∀ c ∈ cases, ∀ text, render family c.2 = .ok text → Lined family text)
    (h : renderCases family cases = .ok arms) : Lined family (Dispatch.table subject arms family) := by
  obtain ⟨hsubject, hvalues⟩ := List.forall_mem_cons.mp hvalues
  refine Dispatch.lined_table hsubject fun arm harm => ?_
  rw [renderCases_eq] at h
  obtain ⟨c, hc, hwritten⟩ := (mem_of_traverse_eq_ok h).mp harm
  obtain ⟨body, hbody, rfl⟩ := map_eq_ok.mp hwritten
  exact ⟨hvalues c.1 (List.mem_map_of_mem hc), hbodies c hc body hbody⟩

/-- What is written for a statement has the family's own line ends if the texts in it have. -/
theorem lined_of_render {s : Statement} {text : Text} (hstrings : s.AllStrings family (Lined family))
    (h : render family s = .ok text) : Lined family text := by
  induction s generalizing text with
  | interpret lines =>
    obtain ⟨contents, hcontents, rfl⟩ := map_eq_ok.mp h
    exact lined_block (Template.lined_expandAll (allStrings_iff_parts.mp hstrings).1 hcontents)
  | list items ih =>
    obtain ⟨texts, htexts, rfl⟩ := render_list_eq_ok.mp h
    have hitems := allStrings_list.mp hstrings
    exact lined_flatten (forall_mem_of_traverse_eq_ok (fun s hs _ => ih s hs (hitems s hs)) htexts)
  | exitInsteadOfReturn body ih =>
    obtain ⟨written, hwritten, rfl⟩ := map_eq_ok.mp h
    exact lined_exitForReturn (ih ((allStrings_iff_parts.mp hstrings).2 body (by simp [parts])) hwritten)
  | scope exported => exact exported.lined_render (allStrings_iff_parts.mp hstrings).1 h
  | call function arguments => exact lined_functionCall (allStrings_iff_parts.mp hstrings).1 h
  | switch subject cases ih =>
    obtain ⟨arms, harms, rfl⟩ := map_eq_ok.mp h
    obtain ⟨hvalues, hbodies⟩ := allStrings_iff_parts.mp hstrings
    exact lined_table_of_renderCases hvalues
      (fun c hc _ => ih c hc (hbodies c.2 (List.mem_map_of_mem hc))) harms
  | findPid pattern => exact lined_libraryCall (allStrings_iff_parts.mp hstrings).1 h
  | kill =>
    obtain rfl := Except.ok.inj h
    exact lined_killCommands family
  | forget instanceName script logDirectory =>
    exact lined_libraryCall (allStrings_iff_parts.mp hstrings).1 h
  | runScript instanceName exports workingDirectory body ih =>
    obtain ⟨directory, written, library, hdirectory, hwritten, -, rfl⟩ := render_runScript_eq_ok.mp h
    obtain ⟨rendered, hrendered, rfl⟩ := map_eq_ok.mp hwritten
    obtain ⟨hown, hbody⟩ := allStrings_iff_parts.mp hstrings
    obtain ⟨hname, hworking, hexports⟩ :
        Lined family instanceName ∧ Lined family workingDirectory ∧
          ∀ key ∈ exports, Lined family key := by
      simpa [strings] using hown
    exact RunScript.lined_commands hname hexports (Template.lined_expand hworking hdirectory)
      (lined_exitForReturn (ih (hbody body (by simp [parts])) hrendered))
  | capture logDirectory body ih =>
    simp only [render, bind_eq_ok, pure_eq_ok] at h
    obtain ⟨directory, hdirectory, written, hwritten, rfl⟩ := h
    obtain ⟨hown, hbody⟩ := allStrings_iff_parts.mp hstrings
    exact Capture.lined_commands
      (Template.lined_expand (hown logDirectory (by simp [strings])) hdirectory)
      (ih (hbody body (by simp [parts])) hwritten)
  | dialect unix windows ihu ihw =>
    have hread := (allStrings_iff_parts.mp hstrings).2
    cases family with
    | unix => exact ihu (hread unix (by simp [parts])) h
    | windows => exact ihw (hread windows (by simp [parts])) h

end Statement

namespace ScriptPlan

/-- Whether all texts that a plan is given for the lines of its script have a property. -/
def AllStrings (family : Family) (P : Text → Prop) (plan : ScriptPlan) : Prop :=
  (∀ name ∈ plan.unset, P name) ∧ (∀ scope ∈ plan.scopes.scopes, ∀ t ∈ scope.strings, P t) ∧
    ∀ s ∈ plan.body, s.AllStrings family P

theorem lined_definitions {plan : ScriptPlan} {scopes : List Definition}
    (hstrings : ∀ scope ∈ plan.scopes.scopes, ∀ t ∈ scope.strings, Lined family t)
    (hscopes : traverse (Scope.toDefinition family) plan.scopes.scopes = .ok scopes)
    (library : List LibraryFunction) :
    ∀ d ∈ definitions family scopes library, Lined family d.text := by
  have hlibrary (f : LibraryFunction) : Lined family (f.toDefinition family).text :=
    f.lined_definition family
  refine List.forall_mem_append.mpr ⟨List.forall_mem_cons.mpr ⟨hlibrary .abort, ?_⟩,
    List.forall_mem_map.mpr fun f _ => hlibrary f⟩
  refine forall_mem_of_traverse_eq_ok (fun scope hscope d hdefinition => ?_) hscopes
  obtain ⟨text, htext, rfl⟩ := map_eq_ok.mp hdefinition
  exact scope.lined_render (hstrings scope hscope) htext

theorem lined_of_build {plan : ScriptPlan} {script : Script}
    (hstrings : plan.AllStrings family (Lined family)) (h : plan.build family = .ok script) :
    Lined family script.text := by
  obtain ⟨library, scopes, body, -, hscopes, hbody, rfl⟩ := write_eq_ok.mp (build_eq_ok.mp h)
  obtain ⟨hunset, hscopeStrings, hstatements⟩ := hstrings
  have hwritten : Lined family body :=
    Statement.lined_of_render (Statement.allStrings_list.mpr hstatements) hbody
  have hpath : Lined family (Variable.resetPath family) :=
    Lined.line (lined_of_notMem (by cases family <;> decide))
  exact ((((((Token.beginScript.lined_literal family).append
    (Variable.lined_unsetSection hunset)).append (Token.beginFunctions.lined_literal family)).append
      (lined_flatMap (lined_definitions hscopeStrings hscopes library))).append
        (Token.endFunctions.lined_literal family)).append hpath).append hwritten
          |>.append (Token.endScript.lined_literal family)

/-- A script is never empty: its last line is the one that exits. -/
theorem lineEnd_suffix_of_build {plan : ScriptPlan} {script : Script}
    (h : plan.build family = .ok script) : family.lineEnd <:+ script.text := by
  obtain ⟨library, scopes, body, -, -, -, rfl⟩ := write_eq_ok.mp (build_eq_ok.mp h)
  have hlast : family.lineEnd <:+ Token.endScript.literal family := by
    cases family <;> exact List.suffix_append _ _
  exact hlast.trans (List.suffix_append _ _)

theorem lines_of_build {plan : ScriptPlan} {script : Script} (h : plan.build family = .ok script) :
    script.diagnostics.lines = script.text.count '\n' :=
  length_lines (EndsLine.isEnded (Or.inr (lineEnd_suffix_of_build h)))

end ScriptPlan

namespace InstanceDraft

/-- Whether all texts that a draft is given have a property. -/
def AllStrings (family : Family) (P : Text → Prop) (draft : InstanceDraft) : Prop :=
  (P draft.name ∧ P draft.home ∧ P draft.logDirectory) ∧
    (∀ entry ∈ draft.exports.entries, P entry.1 ∧ P entry.2) ∧
    (∀ s ∈ draft.init, s.AllStrings family P) ∧ ∀ s ∈ draft.run, s.AllStrings family P

end InstanceDraft

namespace Instance

variable {i : Instance}

theorem allStrings_runScript (h : i.toInstanceDraft.AllStrings family (Lined family)) :
    i.runScript.AllStrings family (Lined family) := by
  obtain ⟨⟨hname, -, -⟩, hexports, -, hrun⟩ := h
  have hdefault : ∀ key ∈ defaultKeys, Lined family key := by
    have hplain : ∀ key ∈ defaultKeys, '\r' ∉ key ∧ '\n' ∉ key := by decide
    exact fun key hkey => lined_of_plain (hplain key hkey)
  have hkeys : ∀ key ∈ i.exports.keys ++ defaultKeys, Lined family key :=
    List.forall_mem_append.mpr
      ⟨List.forall_mem_map.mpr fun entry hentry => (hexports entry hentry).1, hdefault⟩
  have hbody : (Statement.list i.run).AllStrings family (Lined family) :=
    Statement.allStrings_list.mpr hrun
  refine Statement.allStrings_iff_parts.mpr ⟨List.forall_mem_cons.mpr
    ⟨hname, List.forall_mem_cons.mpr ⟨lined_of_plain (by decide), hkeys⟩⟩,
    List.forall_mem_singleton.mpr (Statement.allStrings_iff_parts.mpr
      ⟨List.forall_mem_singleton.mpr (lined_of_plain (by decide)),
        List.forall_mem_singleton.mpr hbody⟩)⟩

theorem allStrings_perform (h : i.toInstanceDraft.AllStrings family (Lined family)) (action : Action) :
    ∀ s ∈ i.perform action, s.AllStrings family (Lined family) := by
  cases action with
  | init =>
    exact List.forall_mem_cons.mpr ⟨Statement.allStrings_of_plain rfl (List.forall_mem_nil _),
      List.forall_mem_append.mpr ⟨h.2.2.1, List.forall_mem_singleton.mpr (allStrings_runScript h)⟩⟩
  | status =>
    exact List.forall_mem_cons.mpr ⟨Statement.allStrings_of_plain rfl (by decide),
      List.forall_mem_singleton.mpr (Statement.allStrings_of_plain rfl (by decide))⟩
  | stop =>
    exact List.forall_mem_cons.mpr ⟨Statement.allStrings_of_plain rfl (by decide),
      List.forall_mem_singleton.mpr (Statement.allStrings_of_plain rfl (by decide))⟩
  | start | stdout | stderr =>
    exact List.forall_mem_singleton.mpr (Statement.allStrings_of_plain rfl (by decide))
  | exitStatus | tail | tailError | run =>
    exact List.forall_mem_singleton.mpr (Statement.allStrings_dialect
      (Statement.allStrings_of_plain rfl (by decide))
      (Statement.allStrings_of_plain rfl (by decide)))

theorem allStrings_dispatch (h : i.toInstanceDraft.AllStrings family (Lined family)) :
    i.dispatch.toStatement.AllStrings family (Lined family) := by
  have hvalues : ∀ t ∈ Switch.defaultSubject :: Action.all.map Action.name, '\r' ∉ t ∧ '\n' ∉ t := by
    decide
  have hstrings : i.dispatch.toStatement.strings = Switch.defaultSubject :: Action.all.map Action.name :=
    congrArg _ i.values_dispatch
  refine Statement.allStrings_iff_parts.mpr ⟨?_, ?_⟩
  · rw [hstrings]
    exact fun t ht => lined_of_plain (hvalues t ht)
  · rw [Switch.toStatement, Statement.parts, entries_dispatch, List.forall_mem_map,
      List.forall_mem_map]
    exact fun action _ => Statement.allStrings_list.mpr (List.forall_mem_cons.mpr
      ⟨Statement.allStrings_of_plain rfl (List.forall_mem_nil _), allStrings_perform h action⟩)

/-- What an instance adds to the texts of its draft has no line ends. -/
theorem allStrings_of_plan (h : i.toInstanceDraft.AllStrings family (Lined family)) {plan : ScriptPlan}
    (hplan : i.plan = .ok plan) : plan.AllStrings family (Lined family) := by
  obtain ⟨_, hsame, hscopes, hunset, hstatements, hswitch⟩ := i.exists_plan
  obtain rfl := Except.ok.inj (hplan.symm.trans hsame)
  obtain ⟨⟨hname, hhome, hlogDirectory⟩, hexports, -, -⟩ := id h
  have hplainUnset : ∀ name ∈ ScriptPlan.defaultUnset, '\r' ∉ name ∧ '\n' ∉ name := by
    decide
  refine ⟨?_, ?_, ?_⟩
  · rw [hunset]
    exact fun name hmem => lined_of_plain (hplainUnset name hmem)
  · rw [hscopes]
    refine List.forall_mem_cons.mpr ⟨?_, List.forall_mem_singleton.mpr ?_⟩
    · rw [Scope.forall_mem_strings, defaultScope, entries_defaultVariables]
      simp only [List.forall_mem_cons]
      exact ⟨⟨lined_of_plain (by decide), hname⟩, ⟨lined_of_plain (by decide), hhome⟩,
        ⟨lined_of_plain (by decide), hlogDirectory⟩, List.forall_mem_nil _⟩
    · exact Scope.forall_mem_strings.mpr hexports
  · rw [ScriptPlan.body, hstatements, hswitch]
    exact List.forall_mem_singleton.mpr (allStrings_dispatch h)

end Instance

theorem hasOwnLineEnds_eq_lined : HasOwnLineEnds family = Lined family :=
  funext fun _ => propext hasOwnLineEnds_iff

/-- What is written for a statement is empty or ends with the family's line end, so that statements one
after the other keep their lines; and it has no other line ends than the family's own when the texts
that the statement is given have none. A script, of a plan or of an instance, ends with the family's
line end, keeps to the family's own in the same way, and has as many lines as line feeds. -/
theorem lineStructure_of_render_and_build (family : Family) :
    (∀ (s : Statement) (text : Text), s.render family = .ok text →
      EndsLine family text ∧
        (s.AllStrings family (HasOwnLineEnds family) → HasOwnLineEnds family text)) ∧
    (∀ (items : List Statement) (texts : List Text),
      traverse (Statement.render family) items = .ok texts →
        Statement.render family (.list items) = .ok texts.flatten ∧
          lines texts.flatten = texts.flatMap lines) ∧
    (∀ (plan : ScriptPlan) (script : Script), plan.build family = .ok script →
      family.lineEnd <:+ script.text ∧
        (plan.AllStrings family (HasOwnLineEnds family) → HasOwnLineEnds family script.text) ∧
        script.diagnostics.lines = script.text.count '\n') ∧
    ∀ (i : Instance) (script : Script), i.build family = .ok script →
      family.lineEnd <:+ script.text ∧
        (i.toInstanceDraft.AllStrings family (HasOwnLineEnds family) →
          HasOwnLineEnds family script.text) ∧
        script.diagnostics.lines = script.text.count '\n' := by
  rw [hasOwnLineEnds_eq_lined]
  refine ⟨fun s text h => ?_, fun items texts h => ?_, fun plan script h => ?_, fun i script h => ?_⟩
  · exact ⟨Statement.endsLine_of_render h, fun hstrings => Statement.lined_of_render hstrings h⟩
  · refine ⟨Statement.render_list_eq_ok.mpr ⟨texts, h, rfl⟩, ?_⟩
    have hended : ∀ t ∈ texts, IsEnded t :=
      forall_mem_of_traverse_eq_ok (fun _ _ _ => Statement.isEnded_of_render) h
    have hlines := @lines_flatMap Text texts id hended
    rwa [List.flatMap_def, List.map_id] at hlines
  · exact ⟨ScriptPlan.lineEnd_suffix_of_build h, fun hstrings => ScriptPlan.lined_of_build hstrings h,
      ScriptPlan.lines_of_build h⟩
  · obtain ⟨plan, hplan, -⟩ := i.exists_plan
    rw [Instance.build_eq_build_plan hplan] at h
    refine ⟨ScriptPlan.lineEnd_suffix_of_build h, fun hstrings => ?_, ScriptPlan.lines_of_build h⟩
    exact ScriptPlan.lined_of_build (Instance.allStrings_of_plan hstrings hplan) h

end DualShell
