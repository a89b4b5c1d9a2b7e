import DualShell.Proofs.EchoedLines
import DualShell.Proofs.LabelLines

/-!
Indices of batch texts: which places a text marks, and which places it jumps to. Whole texts have the
indices of their parts put together, so each thing that a script is written from is indexed once: calls,
functions, dispatch tables, captured bodies, and the commands that write run scripts.
-/

namespace DualShell

namespace Label

/-- Whether a text ends its lines, marks the places with these labels, and jumps to no other places than
those that it marks or calls, given lines apart. -/
structure IsIndex (labels called given : List Text) (t : Text) : Prop where
  ended : Text.IsEnded t
  marked : (markedIn t).Perm labels
  jumps : ∀ line ∈ Text.lines t, ∀ name, jumpTarget? line = some name →
    name ∈ labels ∨ name ∈ called ∨ line ∈ given

namespace IsIndex

variable {labels called given labels' called' given' : List Text} {s t : Text}

theorem nil : IsIndex [] [] [] [] := ⟨Or.inl rfl, .nil, by simp [Text.lines]⟩

theorem append (hs : IsIndex labels called given s) (ht : IsIndex labels' called' given' t) :
    IsIndex (labels ++ labels') (called ++ called') (given ++ given') (s ++ t) := by
  have hlines := Text.lines_append hs.ended t
  refine ⟨hs.ended.append ht.ended, ?_, ?_⟩
  · rw [markedIn, hlines, List.filterMap_append]
    exact hs.marked.append ht.marked
  · intro line hline name hname
    simp only [List.mem_append]
    rw [hlines] at hline
    rcases List.mem_append.mp hline with hline | hline
    · grind [hs.jumps line hline name hname]
    · grind [ht.jumps line hline name hname]

theorem flatMap {α : Type} {items : List α} {write : α → Text} {labels called given : α → List Text}
    (h : ∀ a ∈ items, IsIndex (labels a) (called a) (given a) (write a)) :
    IsIndex (items.flatMap labels) (items.flatMap called) (items.flatMap given)
      (items.flatMap write) := by
  induction items with
  | nil => exact nil
  | cons a rest ih =>
    obtain ⟨ha, hrest⟩ := List.forall_mem_cons.mp h
    exact ha.append (ih hrest)

/-- The texts that a pass writes have their indices put together in its order. -/
theorem collect {α ε : Type} {items : List α} {write : α → Except ε Text}
    {labels called given : α → List Text}
    (h : ∀ a ∈ items, ∀ written, write a = .ok written →
      IsIndex (labels a) (called a) (given a) written)
    (ht : Text.collect write items = .ok t) :
    IsIndex (items.flatMap labels) (items.flatMap called) (items.flatMap given) t := by
  obtain ⟨texts, htexts, hflatten⟩ := Passes.map_eq_ok.mp ht
  clear ht
  induction items generalizing texts t with
  | nil =>
    obtain rfl : [] = texts := by simpa [traverse] using htexts
    subst hflatten
    exact nil
  | cons a rest ih =>
    obtain ⟨first, others, hfirst, hothers, rfl⟩ := traverse_cons_eq_ok.mp htexts
    subst hflatten
    obtain ⟨ha, hrest⟩ := List.forall_mem_cons.mp h
    exact (ha first hfirst).append (ih hrest others hothers rfl)

/-- What is called may be any larger list, or one that only lacks places that the text marks. -/
theorem weaken (h : IsIndex labels called given t)
    (hcalled : ∀ name ∈ called, name ∈ labels ∨ name ∈ called') : IsIndex labels called' given t := by
  refine ⟨h.ended, h.marked, fun line hline name hname => ?_⟩
  rcases h.jumps line hline name hname with hlabel | hcall | hgiven
  · exact Or.inl hlabel
  · exact (hcalled name hcall).imp_right Or.inl
  · exact Or.inr (Or.inr hgiven)

theorem line {content : Text} (hlf : '\n' ∉ content) (hmarked : (marked? content).toList = labels)
    (hjump : ∀ name, jumpTarget? content = some name → name ∈ called ∨ content ∈ given) :
    IsIndex labels called given (Family.windows.line content) := by
  have hlines := Text.lines_line hlf
  refine ⟨Text.isEnded_line .windows content, ?_, ?_⟩
  · rw [markedIn, hlines, ← hmarked]
    cases hplace : marked? content <;> simp [hplace]
  · intro line hline name hname
    rw [hlines, List.mem_singleton] at hline
    subst hline
    exact Or.inr (hjump name hname)

/-- Lines that mark nothing. -/
theorem block {contents : List Text} (hlf : ∀ line ∈ contents, '\n' ∉ line)
    (hmarked : ∀ line ∈ contents, marked? line = none)
    (hjumps : ∀ line ∈ contents, ∀ name, jumpTarget? line = some name →
      name ∈ called ∨ line ∈ given) :
    IsIndex [] called given (Family.windows.block contents) := by
  have hlines := Text.lines_windows_block hlf
  refine ⟨Text.isEnded_block .windows contents, ?_, ?_⟩
  · rw [markedIn, hlines, List.filterMap_eq_nil_iff.mpr hmarked]
  · rw [hlines]
    exact fun line hline name hname => Or.inr (hjumps line hline name hname)

theorem quiet {contents : List Text} (h : ∀ line ∈ contents, '\n' ∉ line ∧ IsQuiet line) :
    IsIndex [] [] [] (Family.windows.block contents) := by
  refine block (fun line hline => (h line hline).1) (fun line hline => (h line hline).2.1) ?_
  intro line hline name hname
  rw [(h line hline).2.2] at hname
  cases hname

theorem quiet_line {content : Text} (hlf : '\n' ∉ content) (h : IsQuiet content) :
    IsIndex [] [] [] (Family.windows.line content) := by
  refine line hlf (by rw [h.1]; rfl) fun name hname => ?_
  rw [h.2] at hname
  cases hname

/-- A line that only jumps. -/
theorem jump {content target : Text} (hlf : '\n' ∉ content) (hmarked : marked? content = none)
    (hjump : jumpTarget? content = some target) :
    IsIndex [] [target] [] (Family.windows.line content) := by
  refine line hlf (by rw [hmarked]; rfl) fun name hname => Or.inl ?_
  obtain rfl : target = name := Option.some.inj (hjump.symm.trans hname)
  exact List.mem_singleton_self _

/-- The line that marks a place. -/
theorem place {label : Text} (h : '\n' ∉ label) :
    IsIndex [label] [] [] (Family.windows.line (':' :: label)) := by
  refine line ?_ rfl fun name hname => ?_
  · rw [List.mem_cons, not_or]
    exact ⟨by decide, h⟩
  · rw [jumpTarget?_cons_eq_none (by decide) (by decide)] at hname
    cases hname

end IsIndex

end Label

open Label

theorem not_mem_ofName {c : Char} (hc : isWordChar c = false) (name : Text) : c ∉ Label.ofName name :=
  (isIdentifier_ofName name).notMem hc

/-! ### Calls and functions -/

theorem isIndex_invocationLine {label : Text} {arguments : List Text} (hlf : '\n' ∉ label)
    (hspace : ' ' ∉ label) (harguments : ∀ argument ∈ arguments, '\n' ∉ argument) :
    IsIndex [] [label] [] (invocationLine label arguments .windows) := by
  have hwritten : '\n' ∉ invocation label .windows ++ arguments.flatMap (' ' :: ·) := by
    show '\n' ∉ ("call :" : Text) ++ label ++ arguments.flatMap (' ' :: ·)
    simp only [List.mem_append, List.mem_flatMap, List.mem_cons, not_or, not_exists, not_and]
    exact ⟨⟨by decide, hlf⟩, fun argument h => ⟨by decide, harguments argument h⟩⟩
  have hmarked : marked? (invocation label .windows ++ arguments.flatMap (' ' :: ·)) = none :=
    marked?_of_head? 'c' rfl (by decide)
  exact IsIndex.jump hwritten hmarked (jumpTarget?_invocation hspace arguments)

/-- Assignments jump nowhere. -/
theorem isIndex_exportLines {entries : List (Text × Text)}
    (h : ∀ entry ∈ entries, '\n' ∉ Variable.exportedName entry.1 ∧ '\n' ∉ entry.2) :
    IsIndex [] [] [] (Family.windows.block
      (entries.map fun entry => Variable.exportLine entry.1 entry.2 .windows)) := by
  apply IsIndex.quiet
  rw [List.forall_mem_map]
  intro entry hentry
  have hcontent : Variable.exportLine entry.1 entry.2 .windows =
      "set " ++ Variable.exportedName entry.1 ++ "=" ++ entry.2 := rfl
  rw [hcontent]
  simp only [List.mem_append, not_or]
  refine ⟨⟨⟨⟨by decide, (h entry hentry).1⟩, by decide⟩, (h entry hentry).2⟩, ?_⟩
  exact isQuiet_of_head? 's' rfl (by decide)

theorem isIndex_functionDefinition (name : Text) {labels called given : List Text} {body : Text}
    (h : IsIndex labels called given body) :
    IsIndex (Label.ofName name :: labels) called given (functionDefinition name body .windows) := by
  have hplace := IsIndex.place (not_mem_ofName (c := '\n') (by decide) name)
  have hlast : IsIndex [] [] [] (Family.windows.line "   exit /b 0") :=
    IsIndex.quiet_line (by decide) (by decide)
  simpa [functionDefinition] using (hplace.append h).append hlast

/-- A library function marks its own place only, and it jumps to the functions that it calls. -/
theorem windowsLines_spec (f : LibraryFunction) : (∀ line ∈ f.windowsLines, '\n' ∉ line) ∧
    f.windowsLines.filterMap marked? = [f.name] ∧
    f.windowsLines.filterMap jumpTarget? = f.dependencies.map LibraryFunction.name := by
  cases f <;> decide +kernel

theorem isIndex_definition (f : LibraryFunction) :
    IsIndex [f.name] (f.dependencies.map LibraryFunction.name) [] (f.definition .windows) := by
  obtain ⟨hlf, hmarked, hjumps⟩ := windowsLines_spec f
  have hlines : Text.lines (f.definition .windows) = f.windowsLines := Text.lines_windows_block hlf
  refine ⟨Text.isEnded_block .windows _, ?_, ?_⟩
  · rw [markedIn, hlines, hmarked]
  · intro line hline name hname
    rw [hlines] at hline
    rw [← hjumps]
    exact Or.inr (Or.inl (List.mem_filterMap.mpr ⟨line, hline, hname⟩))

/-! ### Dispatch tables -/

/-- A table adds its own labels to the index of the bodies of its arms. -/
theorem isIndex_windowsTable {subject : Text} {arms : List Dispatch.Arm}
    {labels called given : List Text} (h : Dispatch.IsLined subject arms)
    (hbodies : IsIndex labels called given (arms.flatMap Prod.snd)) :
    IsIndex (Dispatch.labels arms.length ++ labels) called given
      (Dispatch.windowsTable subject arms) := by
  have hlines : Text.lines (arms.flatMap Prod.snd) = arms.flatMap fun arm => Text.lines arm.2 :=
    Text.lines_flatMap fun arm harm => (h.2 arm harm).2
  refine ⟨(Dispatch.endsLine_table subject arms .windows).isEnded, ?_, ?_⟩
  · refine (Dispatch.perm_markedIn_windowsTable h).trans (List.Perm.append_left _ ?_)
    have hmarked := hbodies.marked
    rwa [markedIn, hlines, List.filterMap_flatMap] at hmarked
  · intro line hline name hname
    rcases Dispatch.jump_of_mem_lines_windowsTable h hline hname with hown | ⟨arm, harm, hbody⟩
    · exact Or.inl (List.mem_append_left _ hown)
    · have hmem : line ∈ Text.lines (arms.flatMap Prod.snd) := by
        rw [hlines]
        exact List.mem_flatMap.mpr ⟨arm, harm, hbody⟩
      exact (hbodies.jumps line hmem name hname).imp_left (List.mem_append_right _)

/-! ### Captured bodies and run scripts -/

theorem isQuiet_makeDirectory (directory : Text) :
    IsQuiet ("if not exist \"" ++ directory ++ "\" md \"" ++ directory ++ "\"") := by
  have hsplit : ("if not exist \"" : Text) ++ directory ++ "\" md \"" ++ directory ++ "\"" =
      "if not " ++ (("exist \"" : Text) ++ directory ++ "\" md \"" ++ directory ++ "\"") := by simp
  rw [hsplit]
  exact isQuiet_if_not _

/-- The commands that clear the status of an earlier run. -/
theorem isIndex_clearStatus {directory file : Text} (hdirectory : '\n' ∉ directory)
    (hfile : '\n' ∉ file) :
    IsIndex [] [] [] (Family.windows.block [
      "if not exist \"" ++ directory ++ "\" md \"" ++ directory ++ "\"",
      "del /F /Q \"" ++ file ++ "\" 2>NUL"]) := by
  apply IsIndex.quiet
  rw [List.forall_mem_cons, List.forall_mem_singleton]
  simp only [List.mem_append, not_or]
  constructor
  · exact ⟨⟨⟨⟨⟨by decide, hdirectory⟩, by decide⟩, hdirectory⟩, by decide⟩,
      isQuiet_makeDirectory directory⟩
  · exact ⟨⟨⟨by decide, hfile⟩, by decide⟩, isQuiet_of_head? 'd' rfl (by decide)⟩

/-- The commands that record the status of a captured body. -/
theorem isIndex_recordStatus {file : Text} (hfile : '\n' ∉ file) :
    IsIndex [] [] [] (Family.windows.block [
      ">\"" ++ file ++ "\" echo %ERRORLEVEL%", "exit /b %ERRORLEVEL%"]) := by
  apply IsIndex.quiet
  rw [List.forall_mem_cons, List.forall_mem_singleton]
  simp only [List.mem_append, not_or]
  constructor
  · exact ⟨⟨⟨by decide, hfile⟩, by decide⟩, isQuiet_of_head? '>' rfl (by decide)⟩
  · decide

/-- A captured body is called at its own place. -/
theorem isIndex_captureCommands {directory body : Text} {labels called given : List Text}
    (hdirectory : '\n' ∉ directory) (h : IsIndex labels called given body) :
    IsIndex (capturedBody :: labels) called given (Capture.commands directory body .windows) := by
  have hfile : '\n' ∉ Capture.statusFile directory .windows := by
    simp only [Capture.statusFile, List.mem_append, not_or]
    exact ⟨⟨hdirectory, by decide⟩, by decide⟩
  have harguments : ∀ argument ∈ [("%*" : Text)], '\n' ∉ argument := by decide
  have hcall : IsIndex [] [capturedBody] [] (Family.windows.line ("call :" ++ capturedBody ++ " %*")) :=
    isIndex_invocationLine (by decide) (by decide) harguments
  have hplace : IsIndex [capturedBody] [] [] (Family.windows.line (':' :: capturedBody)) :=
    IsIndex.place (by decide)
  have hlast : IsIndex [] [] [] (Family.windows.line "exit /b 0") :=
    IsIndex.quiet_line (by decide) (by decide)
  have hall := (((((isIndex_clearStatus hdirectory hfile).append hcall).append
    (isIndex_recordStatus hfile)).append hplace).append h).append hlast
  simp only [List.nil_append, List.append_nil, List.singleton_append] at hall
  have htext : Capture.commands directory body .windows = Family.windows.block [
      "if not exist \"" ++ directory ++ "\" md \"" ++ directory ++ "\"",
      "del /F /Q \"" ++ Capture.statusFile directory .windows ++ "\" 2>NUL"] ++
      Family.windows.line ("call :" ++ capturedBody ++ " %*") ++ Family.windows.block [
      ">\"" ++ Capture.statusFile directory .windows ++ "\" echo %ERRORLEVEL%",
      "exit /b %ERRORLEVEL%"] ++ Family.windows.line (':' :: capturedBody) ++ body ++
      Family.windows.line "exit /b 0" := by
    simp only [Capture.commands, Family.block_cons, List.append_assoc]
    rfl
  rw [htext]
  refine hall.weaken (List.forall_mem_cons.mpr ⟨Or.inl List.mem_cons_self, ?_⟩)
  exact fun name hname => Or.inr hname

theorem isQuiet_echoOpening (path argument : Text) :
    IsQuiet (RunScript.echoOpening path ++ argument) :=
  isQuiet_of_head? '>' (RunScript.head?_echoOpening path argument) (by decide)

/-- The commands that write a run script only add to its file. -/
theorem isQuiet_of_mem_windowsCommandLines {script : RunScript} {line : Text}
    (h : line ∈ script.windowsCommandLines) : IsQuiet line := by
  have hexports {names : List Text} {path : Text}
      (hline : line ∈ RunScript.exportCommands path names) : IsQuiet line := by
    rw [RunScript.exportCommands] at hline
    split at hline
    · cases hline
    · simp only [List.mem_append, List.mem_cons, List.mem_map, List.not_mem_nil, or_false] at hline
      rcases hline with (rfl | ⟨name, -, rfl⟩) | rfl
      · exact isQuiet_of_head? 's' RunScript.head?_delayExpansion (by decide)
      · exact isQuiet_echoOpening _ _
      · exact isQuiet_of_head? 'e' RunScript.head?_endDelay (by decide)
  simp only [RunScript.windowsCommandLines, List.mem_append, List.mem_cons, List.mem_map,
    List.not_mem_nil, or_false] at h
  rcases h with (rfl | rfl) | ⟨content, -, rfl⟩ | hline | ⟨content, -, rfl⟩
  · exact isQuiet_makeDirectory script.directory
  · exact isQuiet_of_head? 'd' rfl (by decide)
  · exact isQuiet_echoOpening _ _
  · exact hexports hline
  · exact isQuiet_echoOpening _ _

theorem isIndex_windowsCommands {script : RunScript} (hname : '\n' ∉ script.instanceName)
    (hdirectory : '\n' ∉ script.directory)
    (hexports : ∀ name ∈ RunScript.exportedNames script.exports, '\n' ∉ name) :
    IsIndex [] [] [] script.windowsCommands := by
  rw [RunScript.windowsCommands_eq_block]
  have hlf := RunScript.lf_not_mem_windowsCommandLines hname hdirectory hexports
  refine IsIndex.quiet fun line hline => ⟨hlf line hline, ?_⟩
  exact isQuiet_of_mem_windowsCommandLines hline

end DualShell
