import DualShell.Proofs.LabelIndex

/-!
The statements that are shown in a batch script: those whose own lines stand in it as they are. What a
run script runs is not shown, because it is written to a file of its own. Texts without colons, braces
and line feeds mark no places and start no further lines, so with such texts the index of a statement
consists of the labels of the tables, captured bodies and functions shown, and of its calls.
-/

namespace DualShell

open Passes

/-- Whether a text has no colon, brace or line feed, with which its writer could mark places, refer to
tokens or write further lines. -/
def Text.IsInert (t : Text) : Prop := ':' ∉ t ∧ '{' ∉ t ∧ '\n' ∉ t

instance (t : Text) : Decidable t.IsInert := inferInstanceAs (Decidable (_ ∧ _))

namespace Template

theorem pieces_eq_map {template : Text} (h : '{' ∉ template) :
    pieces template = template.map Piece.plain := by
  induction template with
  | nil => rfl
  | cons c rest ih =>
    obtain ⟨hc, hrest⟩ := not_or.mp (mt List.mem_cons.mpr h)
    rw [pieces, if_neg (fun heq => hc heq.symm), ih hrest, List.map_cons]

/-- A template without braces stands for itself. -/
theorem expand_eq_self {family : Family} {template : Text} (h : '{' ∉ template) :
    expand family template = .ok template := by
  have hpieces : traverse (Piece.expand family) (template.map Piece.plain) =
      .ok ((template.map Piece.plain).map Piece.source) :=
    traverse_eq_ok_map (List.forall_mem_map.mpr fun _ _ => rfl)
  have hsource : ((template.map Piece.plain).map Piece.source).flatten = template := by
    rw [List.map_map, ← List.flatMap_def]
    exact List.flatMap_singleton' template
  rw [expand, pieces_eq_map h, Text.collect, hpieces]
  exact congrArg Except.ok hsource

theorem expandAll_eq_self {family : Family} {templates : List Text}
    (h : ∀ t ∈ templates, '{' ∉ t) : expandAll family templates = .ok templates := by
  have hall : traverse (expand family) templates = .ok (templates.map id) :=
    traverse_eq_ok_map fun t ht => expand_eq_self (h t ht)
  rw [expandAll, hall, List.map_id]

end Template

theorem Variable.not_mem_upperSnake {c : Char} {key : Text} (hupper : c.isUpper = false)
    (hunderscore : c ≠ '_') (h : c ∉ key) (before : Option Char) : c ∉ upperSnake before key := by
  induction key generalizing before with
  | nil => simp [upperSnake]
  | cons d rest ih =>
    obtain ⟨hd, hrest⟩ := not_or.mp (mt List.mem_cons.mpr h)
    have hconverted := Text.toUpper_ne hupper (Ne.symm hd)
    rw [upperSnake]
    split
    · simp [hd, hunderscore, ih hrest]
    · simp [hconverted.symm, ih hrest]

/-- Exported names have no characters of their own but capitals and underscores. -/
theorem Variable.not_mem_exportedName {c : Char} {key : Text} (hupper : c.isUpper = false)
    (hunderscore : c ≠ '_') (h : c ∉ key) : c ∉ exportedName key := by
  rw [exportedName]
  split
  · exact not_mem_upperSnake hupper hunderscore h none
  · exact h

theorem Variable.lf_not_mem_exportedName {key : Text} (h : '\n' ∉ key) : '\n' ∉ exportedName key :=
  not_mem_exportedName (by decide) (by decide) h

/-- The texts that a scope is given for its assignments. -/
def Scope.strings (scope : Scope) : List Text :=
  scope.assignments.entries.flatMap fun entry => [entry.1, entry.2]

namespace Statement

mutual

/-- The statements whose own lines stand in a batch script as they are. Lists, dialects and bodies with
another way to return have none; what a run script runs is written to its file. -/
def shown : Statement → List Statement
  | .interpret lines => [.interpret lines]
  | .list items => shownOfItems items
  | .exitInsteadOfReturn body => shown body
  | .scope exported => [.scope exported]
  | .call function arguments => [.call function arguments]
  | .switch subject cases => .switch subject cases :: shownOfCases cases
  | .findPid pattern => [.findPid pattern]
  | .kill => [.kill]
  | .forget instanceName script logDirectory => [.forget instanceName script logDirectory]
  | .runScript instanceName exports workingDirectory body =>
    [.runScript instanceName exports workingDirectory body]
  | .capture logDirectory body => .capture logDirectory body :: shown body
  | .dialect _ windows => shown windows

def shownOfItems : List Statement → List Statement
  | [] => []
  | s :: rest => shown s ++ shownOfItems rest

def shownOfCases : List (Text × Statement) → List Statement
  | [] => []
  | (_, s) :: rest => shown s ++ shownOfCases rest

end

theorem shownOfItems_eq (items : List Statement) : shownOfItems items = items.flatMap shown := by
  induction items with
  | nil => rfl
  | cons s rest ih => simp [shownOfItems, ih]

theorem shownOfCases_eq (cases : List (Text × Statement)) :
    shownOfCases cases = cases.flatMap fun c => shown c.2 := by
  induction cases with
  | nil => rfl
  | cons c rest ih => simp [shownOfCases, ih]

/-- The texts that a statement is given for its own lines. -/
def strings : Statement → List Text
  | .interpret lines => lines
  | .scope exported => exported.strings
  | .call _ arguments => arguments
  | .switch subject cases => subject :: cases.map Prod.fst
  | .findPid pattern => [pattern]
  | .forget instanceName script logDirectory => [instanceName, script, logDirectory]
  | .runScript instanceName exports workingDirectory _ =>
    instanceName :: workingDirectory :: exports
  | .capture logDirectory _ => [logDirectory]
  | .list _ | .exitInsteadOfReturn _ | .kill | .dialect _ _ => []

/-- The lines that a statement is given as they are. -/
def givenLines : Statement → List Text
  | .interpret lines => lines
  | .list _ | .exitInsteadOfReturn _ | .scope _ | .call _ _ | .switch _ _ | .findPid _ | .kill
  | .forget _ _ _ | .runScript _ _ _ _ | .capture _ _ | .dialect _ _ => []

/-- The labels of the table or captured body that a statement is. -/
def frameLabels : Statement → List Text
  | .switch _ cases => Dispatch.labels cases.length
  | .capture _ _ => [Label.capturedBody]
  | .interpret _ | .list _ | .exitInsteadOfReturn _ | .scope _ | .call _ _ | .findPid _ | .kill
  | .forget _ _ _ | .runScript _ _ _ _ | .dialect _ _ => []

/-- The label of the function that a statement defines. -/
def scopeLabels : Statement → List Text
  | .scope exported => [exported.label]
  | .interpret _ | .list _ | .exitInsteadOfReturn _ | .call _ _ | .switch _ _ | .findPid _ | .kill
  | .forget _ _ _ | .runScript _ _ _ _ | .capture _ _ | .dialect _ _ => []

/-- The labels of the places that the own lines of a statement mark. -/
def ownLabels (s : Statement) : List Text := s.frameLabels ++ s.scopeLabels

/-- Whether a text has the index of what is shown of some statements and of what they call. -/
abbrev HasIndex (nodes : List Statement) (called : List Text) (t : Text) : Prop :=
  Label.IsIndex (nodes.flatMap ownLabels) called (nodes.flatMap givenLines) t

end Statement

theorem Variable.exportSection_eq {assignments : Variables}
    (h : ∀ entry ∈ assignments.entries, '{' ∉ entry.2) :
    exportSection assignments .windows = .ok (Family.windows.block
      (assignments.entries.map fun entry => exportLine entry.1 entry.2 .windows)) := by
  rw [exportSection, Text.collect, map_eq_ok, Family.block]
  refine ⟨assignments.entries.map fun entry =>
    Family.windows.line (exportLine entry.1 entry.2 .windows), ?_, ?_⟩
  · refine traverse_eq_ok_map fun entry hentry => ?_
    rw [Template.expand_eq_self (h entry hentry)]
    rfl
  · rw [List.flatMap_map, List.flatMap_def]

theorem Scope.isIndex_render {scope : Scope} {text : Text} (h : ∀ t ∈ scope.strings, t.IsInert)
    (htext : scope.render .windows = .ok text) : Label.IsIndex [scope.label] [] [] text := by
  have hentry : ∀ entry ∈ scope.assignments.entries, entry.1.IsInert ∧ entry.2.IsInert :=
    fun entry hentry => ⟨h _ (List.mem_flatMap.mpr ⟨entry, hentry, by simp⟩),
      h _ (List.mem_flatMap.mpr ⟨entry, hentry, by simp⟩)⟩
  rw [render, Variable.exportSection_eq fun entry he => (hentry entry he).2.2.1] at htext
  obtain rfl := Except.ok.inj htext
  refine isIndex_functionDefinition scope.name (isIndex_exportLines fun entry he => ⟨?_, ?_⟩)
  · exact Variable.lf_not_mem_exportedName (hentry entry he).1.2.2
  · exact (hentry entry he).2.2.2

theorem isIndex_functionCall {name text : Text} {arguments : List Text}
    (h : ∀ t ∈ arguments, t.IsInert) (htext : functionCall name arguments .windows = .ok text) :
    Label.IsIndex [] [Label.ofName name] [] text := by
  rw [functionCall, Template.expandAll_eq_self fun t ht => (h t ht).2.1] at htext
  obtain rfl := Except.ok.inj htext
  exact isIndex_invocationLine (not_mem_ofName (by decide) name) (not_mem_ofName (by decide) name)
    fun t ht => (h t ht).2.2

theorem isIndex_libraryCall {function : LibraryFunction} {text : Text} {arguments : List Text}
    (h : ∀ t ∈ arguments, t.IsInert)
    (htext : libraryCall function arguments .windows = .ok text) :
    Label.IsIndex [] [function.name] [] text := by
  rw [libraryCall, Template.expandAll_eq_self fun t ht => (h t ht).2.1] at htext
  obtain rfl := Except.ok.inj htext
  refine isIndex_invocationLine (by cases function <;> decide) (by cases function <;> decide) ?_
  rw [List.forall_mem_map]
  intro t ht
  simpa using (h t ht).2.2

theorem isIndex_killCommands : Label.IsIndex [] [] [] (killCommands .windows) :=
  Label.IsIndex.quiet (by decide)

theorem RunScript.exists_key_of_mem_exportedNames {keys : List Text} {name : Text}
    (h : name ∈ exportedNames keys) : ∃ key ∈ keys, Variable.exportedName key = name := by
  have hmem := (List.mem_filter.mp h).1
  rw [mem_distinct] at hmem
  exact List.mem_map.mp hmem

namespace Statement

/-- The arms of a table keep the values of its cases, and their bodies are written in order. -/
theorem renderCases_eq_ok {family : Family} {cases : List (Text × Statement)}
    {arms : List Dispatch.Arm} (h : renderCases family cases = .ok arms) :
    arms.map Prod.fst = cases.map Prod.fst ∧
      traverse (fun c => render family c.2) cases = .ok (arms.map Prod.snd) := by
  rw [renderCases_eq] at h
  induction cases generalizing arms with
  | nil =>
    obtain rfl := Except.ok.inj h
    exact ⟨rfl, rfl⟩
  | cons c rest ih =>
    obtain ⟨arm, others, harm, hothers, rfl⟩ := traverse_cons_eq_ok.mp h
    obtain ⟨body, hbody, rfl⟩ := map_eq_ok.mp harm
    obtain ⟨hvalues, hbodies⟩ := ih hothers
    refine ⟨?_, traverse_cons_eq_ok.mpr ⟨body, _, hbody, hbodies, rfl⟩⟩
    rw [List.map_cons, List.map_cons, hvalues]

theorem hasIndex_interpret {lines : List Text} {text : Text} (hinert : ∀ t ∈ lines, t.IsInert)
    (h : render .windows (.interpret lines) = .ok text) : HasIndex [.interpret lines] [] text := by
  have hexpand : Template.expandAll .windows lines = .ok lines :=
    Template.expandAll_eq_self fun t ht => (hinert t ht).2.1
  obtain ⟨contents, hcontents, rfl⟩ := map_eq_ok.mp h
  obtain rfl := Except.ok.inj (hexpand.symm.trans hcontents)
  refine Label.IsIndex.block (fun line hline => (hinert line hline).2.2)
    (fun line hline => Label.marked?_eq_none (hinert line hline).1) fun line hline name _ => ?_
  exact Or.inr (by simpa [givenLines] using hline)

/-- A pass over statements puts the indices of what it writes together. -/
theorem hasIndex_of_collect {α : Type} {items : List α} {statement : α → Statement} {text : Text}
    (h : ∀ a ∈ items, ∀ written, render .windows (statement a) = .ok written →
      HasIndex (statement a).shown (callees .windows (statement a)) written)
    (htext : Text.collect (fun a => render .windows (statement a)) items = .ok text) :
    HasIndex (items.flatMap fun a => (statement a).shown)
      (items.flatMap fun a => callees .windows (statement a)) text := by
  have hindex := Label.IsIndex.collect h htext
  rwa [← List.flatMap_assoc, ← List.flatMap_assoc] at hindex

theorem hasIndex_switch {subject : Text} {cases : List (Text × Statement)} {text : Text}
    (hinert : ∀ t ∈ subject :: cases.map Prod.fst, t.IsInert)
    (hbodies : ∀ c ∈ cases, ∀ written, render .windows c.2 = .ok written →
      HasIndex c.2.shown (callees .windows c.2) written)
    (h : render .windows (.switch subject cases) = .ok text) :
    HasIndex (shown (.switch subject cases)) (callees .windows (.switch subject cases)) text := by
  obtain ⟨arms, harms, rfl⟩ := map_eq_ok.mp h
  obtain ⟨hvalues, hwritten⟩ := renderCases_eq_ok harms
  obtain ⟨hsubject, hcases⟩ := List.forall_mem_cons.mp hinert
  have hlined : Dispatch.IsLined subject arms := by
    refine ⟨hsubject.2.2, fun arm harm => ⟨?_, ?_⟩⟩
    · exact (hcases arm.1 (hvalues ▸ List.mem_map_of_mem harm)).2.2
    · obtain ⟨c, -, hc⟩ := (mem_of_traverse_eq_ok hwritten).mp (List.mem_map_of_mem harm)
      exact isEnded_of_render hc
  have hcollect : Text.collect (fun c => render .windows c.2) cases =
      .ok (arms.flatMap Prod.snd) := by
    rw [Text.collect, hwritten, List.flatMap_def]
    rfl
  have hlength : arms.length = cases.length := by simpa using congrArg List.length hvalues
  have hindex := isIndex_windowsTable hlined (hasIndex_of_collect hbodies hcollect)
  rw [hlength] at hindex
  simpa [HasIndex, shown, shownOfCases_eq, ownLabels, frameLabels, scopeLabels, givenLines, callees,
    calleesOfCases_eq, Dispatch.table] using hindex

theorem hasIndex_runScript {instanceName workingDirectory : Text} {exports : List Text}
    {body : Statement} {text : Text}
    (hinert : ∀ t ∈ instanceName :: workingDirectory :: exports, t.IsInert)
    (h : render .windows (.runScript instanceName exports workingDirectory body) = .ok text) :
    HasIndex [.runScript instanceName exports workingDirectory body] [] text := by
  obtain ⟨directory, written, library, hdirectory, -, -, rfl⟩ := render_runScript_eq_ok.mp h
  obtain ⟨hname, hothers⟩ := List.forall_mem_cons.mp hinert
  obtain ⟨hworking, hexports⟩ := List.forall_mem_cons.mp hothers
  obtain rfl := Except.ok.inj ((Template.expand_eq_self hworking.2.1).symm.trans hdirectory)
  refine isIndex_windowsCommands hname.2.2 hworking.2.2 fun name hmem => ?_
  obtain ⟨key, hkey, rfl⟩ := RunScript.exists_key_of_mem_exportedNames hmem
  exact Variable.lf_not_mem_exportedName (hexports key hkey).2.2

theorem hasIndex_capture {logDirectory text : Text} {body : Statement} (hinert : logDirectory.IsInert)
    (hbody : ∀ written, render .windows body = .ok written →
      HasIndex body.shown (callees .windows body) written)
    (h : render .windows (.capture logDirectory body) = .ok text) :
    HasIndex (.capture logDirectory body :: body.shown) (callees .windows body) text := by
  simp only [render, bind_eq_ok, pure_eq_ok] at h
  obtain ⟨directory, hdirectory, written, hwritten, rfl⟩ := h
  obtain rfl := Except.ok.inj ((Template.expand_eq_self hinert.2.1).symm.trans hdirectory)
  exact isIndex_captureCommands hinert.2.2 (hbody written hwritten)

/-- With inert texts, what is written of a statement has the index of what is shown of it. -/
theorem hasIndex_of_render {s : Statement} {text : Text}
    (hinert : ∀ node ∈ s.shown, ∀ t ∈ node.strings, t.IsInert)
    (h : render .windows s = .ok text) : HasIndex s.shown (callees .windows s) text := by
  induction s generalizing text with
  | interpret lines => exact hasIndex_interpret (hinert _ (List.mem_singleton_self _)) h
  | list items ih =>
    rw [shown, shownOfItems_eq] at hinert ⊢
    rw [render, renderItems_eq] at h
    rw [callees, calleesOfItems_eq]
    refine hasIndex_of_collect (fun s hs written hwritten => ih s hs ?_ hwritten) h
    exact fun node hnode => hinert node (List.mem_flatMap.mpr ⟨s, hs, hnode⟩)
  | exitInsteadOfReturn body ih =>
    obtain ⟨written, hwritten, rfl⟩ := map_eq_ok.mp h
    rw [exitForReturn_windows]
    exact ih hinert hwritten
  | scope exported => exact exported.isIndex_render (hinert _ (List.mem_singleton_self _)) h
  | call function arguments =>
    exact isIndex_functionCall (hinert _ (List.mem_singleton_self _)) h
  | switch subject cases ih =>
    have hown := hinert _ List.mem_cons_self
    rw [shown, shownOfCases_eq] at hinert
    refine hasIndex_switch hown (fun c hc written hwritten => ih c hc ?_ hwritten) h
    exact fun node hnode => hinert node
      (List.mem_cons_of_mem _ (List.mem_flatMap.mpr ⟨c, hc, hnode⟩))
  | findPid pattern => exact isIndex_libraryCall (hinert _ (List.mem_singleton_self _)) h
  | kill =>
    obtain rfl := Except.ok.inj h
    exact isIndex_killCommands
  | forget instanceName script logDirectory =>
    exact isIndex_libraryCall (hinert _ (List.mem_singleton_self _)) h
  | runScript instanceName exports workingDirectory body ih =>
    exact hasIndex_runScript (hinert _ (List.mem_singleton_self _)) h
  | capture logDirectory body ih =>
    obtain ⟨hown, hbody⟩ := List.forall_mem_cons.mp hinert
    exact hasIndex_capture (hown _ (List.mem_singleton_self _)) (fun _ => ih hbody) h
  | dialect unix windows ihu ihw => exact ihw hinert h

end Statement

end DualShell
