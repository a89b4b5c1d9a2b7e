import DualShell.Proofs.ShellReading

/-!
The here documents that a Unix run script is written from. A shell reads them as they are meant
exactly when the commands around them keep their quotes and no line of a document is the line that
ends it. A body that writes a run script of its own has such a line, and the second document ends
there.
-/

namespace DualShell

open Passes ShellReading

namespace RunScript

def exportItems (path name : Text) : List Item :=
  [⟨valueVariable ++ "=$(printf '%s' \"$" ++ name ++ "\" | sed \"s/'/'\\\\\\\\''/g\")", []⟩,
    ⟨"printf \"export " ++ name ++ "='%s'\\n\" \"$" ++ valueVariable ++ "\" >> \"" ++ path ++ "\"",
      []⟩]

def documentCommand (redirection path : Text) : Text :=
  "cat " ++ redirection ++ " \"" ++ path ++ "\" <<'" ++ documentEnd ++ "'"

/-- The commands that write a file from two here documents, with the exports between them. -/
def documentItems (directory path : Text) (names : List Text) (opening closing : Text) : List Item :=
  [⟨"mkdir -p \"" ++ directory ++ "\"", []⟩, ⟨documentCommand ">" path, [opening]⟩] ++
    names.flatMap (exportItems path) ++
    [⟨documentCommand ">>" path, [closing]⟩, ⟨"chmod u+x \"" ++ path ++ "\"", []⟩]

/-- What the commands of a run script on Unix are meant to be read as. -/
def unixItems (script : RunScript) : List Item :=
  documentItems script.directory (script.path .unix) (exportedNames script.exports)
    (script.unixOpening Quoting.shellWord) script.unixClosing

theorem source_plain (command : Text) : Item.source ⟨command, []⟩ = Family.unix.line command :=
  List.append_nil _

theorem source_document (redirection path content : Text) :
    Item.source ⟨documentCommand redirection path, [content]⟩ =
      hereDocument redirection path content := by
  rw [Item.source, hereDocument, List.flatMap_singleton, closing, List.append_assoc]
  rfl

theorem flatMap_source_exportItems (path name : Text) :
    (exportItems path name).flatMap Item.source = unixExport path name := by
  unfold exportItems unixExport
  simp only [List.flatMap_cons, List.flatMap_nil, source_plain, Family.block]

theorem unixCommands_eq_source (script : RunScript) :
    (script.unixCommands Quoting.shellWord) = script.unixItems.flatMap Item.source := by
  have hexports : ((exportedNames script.exports).flatMap (exportItems (script.path .unix))).flatMap
      Item.source = (exportedNames script.exports).flatMap (unixExport (script.path .unix)) := by
    simp only [List.flatMap_assoc, flatMap_source_exportItems]
  unfold unixItems documentItems
  rw [List.flatMap_append, List.flatMap_append, hexports]
  simp only [List.flatMap_cons, List.flatMap_nil, source_plain, source_document, List.append_nil,
    unixCommands, List.append_assoc]

theorem isEnded_endingLine (t : Text) : Text.IsEnded (endingLine t) := by
  rw [endingLine]
  split
  · next h =>
    rcases h with hnone | hlast
    · exact Or.inl (List.getLast?_eq_none_iff.mp hnone)
    · exact Or.inr hlast
  · exact Or.inr (by simp)

theorem endingLine_of_isEnded {t : Text} (h : Text.IsEnded t) : endingLine t = t :=
  if_pos (h.imp_left (congrArg List.getLast?))

theorem isEnded_unixOpening (script : RunScript) (word : Text → Text) :
    Text.IsEnded (script.unixOpening word) :=
  Text.isEnded_append_line _ .unix _

theorem isEnded_unixClosing (script : RunScript) : Text.IsEnded script.unixClosing :=
  (Text.isEnded_append_line _ .unix _).append (isEnded_endingLine script.body)

theorem unixItems_eq {script : RunScript} (h : Text.IsEnded script.body) :
    script.unixItems =
      documentItems script.directory (script.path .unix) (exportedNames script.exports)
        (Token.beginScript.literal .unix ++ Variable.resetPath .unix ++
          Family.unix.line ("export " ++ instanceNameVariable ++ "=" ++
            Quoting.shellWord script.instanceName))
        (LibraryFunction.definitions script.library .unix ++
          Family.unix.line ("cd \"" ++ script.directory ++ "\"") ++ script.body) := by
  rw [unixItems, unixClosing, endingLine_of_isEnded h]
  rfl

theorem flatMap_documents_unixItems (script : RunScript) :
    script.unixItems.flatMap Item.documents =
      [script.unixOpening Quoting.shellWord, script.unixClosing] := by
  have hexports (names : List Text) :
      (names.flatMap (exportItems (script.path .unix))).flatMap Item.documents = [] := by
    rw [List.flatMap_assoc, List.flatMap_eq_nil_iff]
    exact fun name _ => rfl
  rw [unixItems, documentItems, List.flatMap_append, List.flatMap_append, hexports]
  rfl

/-- The commands of a run script are read as they are meant exactly when each of them is a whole
command and no document has the line that ends it. -/
theorem reads_unixItems_iff (script : RunScript) :
    Reads (script.unixCommands Quoting.shellWord) script.unixItems ↔
      (∀ item ∈ script.unixItems, IsCommand item.documents.length item.command) ∧
        documentEnd ∉ Text.split '\n' (script.unixOpening Quoting.shellWord) ∧
        documentEnd ∉ Text.split '\n' script.unixClosing := by
  have hsource : Reads (script.unixCommands Quoting.shellWord) script.unixItems ↔
      ∀ item ∈ script.unixItems, item.IsReadable := by
    rw [reads_iff, and_iff_right (unixCommands_eq_source script)]
  have hdocuments : (∀ item ∈ script.unixItems, ∀ content ∈ item.documents, IsContent content) ↔
      ∀ content ∈ [script.unixOpening Quoting.shellWord, script.unixClosing],
        IsContent content := by
    rw [← flatMap_documents_unixItems]
    simp only [List.mem_flatMap, forall_exists_index, and_imp]
    exact ⟨fun h content item hitem => h item hitem content,
      fun h item hitem content => h content item hitem⟩
  have hcontents : (∀ content ∈ [script.unixOpening Quoting.shellWord, script.unixClosing],
      IsContent content) ↔
      documentEnd ∉ Text.split '\n' (script.unixOpening Quoting.shellWord) ∧
        documentEnd ∉ Text.split '\n' script.unixClosing := by
    rw [List.forall_mem_cons, List.forall_mem_singleton, IsContent, IsContent]
    simp only [isEnded_unixOpening, isEnded_unixClosing, true_and]
  calc
    Reads (script.unixCommands Quoting.shellWord) script.unixItems ↔
        ∀ item ∈ script.unixItems, item.IsReadable :=
      hsource
    _ ↔ (∀ item ∈ script.unixItems, IsCommand item.documents.length item.command) ∧
          ∀ item ∈ script.unixItems, ∀ content ∈ item.documents, IsContent content := forall₂_and
    _ ↔ _ := and_congr_right' (hdocuments.trans hcontents)

theorem moves_path {script : RunScript} (hdirectory : IsPlain script.directory)
    (hname : IsPlain script.instanceName) : Moves .double .double (script.path .unix) := by
  have hseparator : IsPlain (Token.fileSeparator.literal .unix) := by decide
  have hdot : IsPlain "." := by decide
  have hsuffix : IsPlain (Token.scriptSuffix.literal .unix) := by decide
  exact (((hdirectory.moves.append hseparator.moves).append hname.moves).append
    hdot.moves).append hsuffix.moves

theorem isCommand_quoted {before value : Text} (hbefore : Moves .bare .double before)
    (hvalue : Moves .double .double value) : IsCommand 0 (before ++ value ++ "\"") :=
  (hbefore.append hvalue).isCommand (by decide) (by decide)

theorem isCommand_documentCommand {redirection path : Text}
    (hredirection : Moves .bare .bare redirection) (hpath : Moves .double .double path) :
    IsCommand 1 (documentCommand redirection path) := by
  have hcat : Moves .bare .bare "cat " := moves_of_scan (by decide) (by decide)
  have hquote : Moves .bare .double " \"" := moves_of_scan (by decide) (by decide)
  have hopen : Moves .bare .double ("cat " ++ redirection ++ " \"" ++ path) :=
    ((hcat.append hredirection).append hquote).append hpath
  have hsplit : documentCommand redirection path =
      ("cat " ++ redirection ++ " \"" ++ path) ++ ("\" <<'" ++ documentEnd ++ "'") := by
    unfold documentCommand
    simp only [List.append_assoc]
  rw [hsplit]
  exact hopen.isCommand (by decide) (by decide)

theorem isCommand_exportItems {path name : Text} (hpath : Moves .double .double path)
    (hname : IsPlain name) :
    ∀ item ∈ exportItems path name, IsCommand item.documents.length item.command := by
  have hvalue : Moves .bare .double (valueVariable ++ "=$(printf '%s' \"$") :=
    moves_of_scan (by decide) (by decide)
  have hprintf : Moves .bare .double "printf \"export " := moves_of_scan (by decide) (by decide)
  have hformat : Moves .double .double "='%s'\\n\" \"$" := moves_of_scan (by decide) (by decide)
  have hvariable : Moves .double .double valueVariable := moves_of_scan (by decide) (by decide)
  have happend : Moves .double .double "\" >> \"" := moves_of_scan (by decide) (by decide)
  unfold exportItems
  refine List.forall_mem_cons.mpr ⟨?_, List.forall_mem_singleton.mpr ?_⟩
  · change IsCommand 0 _
    exact (hvalue.append hname.moves).isCommand (by decide) (by decide)
  · exact isCommand_quoted
      ((((hprintf.append hname.moves).append hformat).append hvariable).append happend) hpath

/-- Commands keep their quotes when what is written into them is plain. -/
theorem isCommand_unixItems {script : RunScript} (hdirectory : IsPlain script.directory)
    (hname : IsPlain script.instanceName)
    (hexports : ∀ name ∈ exportedNames script.exports, IsPlain name) :
    ∀ item ∈ script.unixItems, IsCommand item.documents.length item.command := by
  have hpath := moves_path hdirectory hname
  have hitems : ∀ item ∈ (exportedNames script.exports).flatMap (exportItems (script.path .unix)),
      IsCommand item.documents.length item.command := by
    intro item hitem
    obtain ⟨name, hmem, hitem⟩ := List.mem_flatMap.mp hitem
    exact isCommand_exportItems hpath (hexports name hmem) item hitem
  unfold unixItems documentItems
  refine List.forall_mem_append.mpr ⟨List.forall_mem_append.mpr ⟨?_, hitems⟩, ?_⟩
  · refine List.forall_mem_cons.mpr ⟨?_, List.forall_mem_singleton.mpr ?_⟩
    · exact isCommand_quoted (moves_of_scan (by decide) (by decide)) hdirectory.moves
    · exact isCommand_documentCommand (moves_of_scan (by decide) (by decide)) hpath
  · refine List.forall_mem_cons.mpr ⟨?_, List.forall_mem_singleton.mpr ?_⟩
    · exact isCommand_documentCommand (moves_of_scan (by decide) (by decide)) hpath
    · exact isCommand_quoted (moves_of_scan (by decide) (by decide)) hpath

/-! ### Documents without the line that ends them -/

theorem isContent_endingLine (t : Text) :
    IsContent (endingLine t) ↔ documentEnd ∉ Text.split '\n' t := by
  have hended := isEnded_endingLine t
  rw [IsContent, and_iff_right hended, endingLine]
  split
  · exact Iff.rfl
  · have hne : documentEnd ≠ [] := by decide
    rw [Text.split_append_cons, List.mem_append]
    simp [Text.split, hne]

theorem mem_shellWord {t : Text} {c : Char} (h : c ∈ Quoting.shellWord t) :
    c = '\'' ∨ c = '\\' ∨ c ∈ t := by
  rw [Quoting.shellWord] at h
  split at h
  · exact Or.inr (Or.inr h)
  · simp only [List.cons_append, List.mem_cons, List.mem_append, List.mem_flatMap,
      List.not_mem_nil, or_false] at h
    grind

theorem isContent_line_of_head {line : Text} (first : Char) (hhead : line.head? = some first)
    (hfirst : first ≠ 'E') (hlf : '\n' ∉ line) : IsContent (Family.unix.line line) := by
  refine (isContent_line hlf).mpr ⟨?_, isContent_nil⟩
  rintro rfl
  exact hfirst (Option.some.inj hhead).symm

theorem lf_not_mem_shellWord {t : Text} (ht : '\n' ∉ t) : '\n' ∉ Quoting.shellWord t := by
  intro h
  rcases mem_shellWord h with hquote | hbackslash | hmem
  · exact absurd hquote (by decide)
  · exact absurd hbackslash (by decide)
  · exact ht hmem

/-- The first document is kept however the name is written, if that takes no further line. -/
theorem isContent_unixOpening {script : RunScript} {word : Text → Text}
    (hword : '\n' ∉ word script.instanceName) : IsContent (script.unixOpening word) := by
  have hbegin : IsContent (Token.beginScript.literal .unix ++ Variable.resetPath .unix) := by
    decide
  refine (isContent_append hbegin.1).mpr ⟨hbegin, isContent_line_of_head 'e' rfl (by decide) ?_⟩
  simp only [List.mem_append, not_or]
  exact ⟨⟨⟨by decide, by decide⟩, by decide⟩, hword⟩

theorem isContent_definitions (library : List LibraryFunction) :
    IsContent (LibraryFunction.definitions library .unix) := by
  refine isContent_flatMap fun f _ => ?_
  cases f <;> decide +kernel

/-- The second document holds the line that ends it exactly when the body does. -/
theorem isContent_unixClosing {script : RunScript} (hdirectory : '\n' ∉ script.directory) :
    IsContent script.unixClosing ↔ documentEnd ∉ Text.split '\n' script.body := by
  have hlibrary := isContent_definitions script.library
  have hchange : IsContent (Family.unix.line ("cd \"" ++ script.directory ++ "\"")) := by
    refine isContent_line_of_head 'c' rfl (by decide) ?_
    simp only [List.mem_append, not_or]
    exact ⟨⟨by decide, hdirectory⟩, by decide⟩
  have hboth := (isContent_append hlibrary.1).mpr ⟨hlibrary, hchange⟩
  rw [unixClosing, isContent_append hboth.1, and_iff_right hboth, isContent_endingLine]

/-- With names that are plain and on one line, all depends on the lines of the body. -/
theorem reads_unixItems_iff_of_plain {script : RunScript} (hdirectory : IsPlain script.directory)
    (hname : IsPlain script.instanceName)
    (hexports : ∀ name ∈ exportedNames script.exports, IsPlain name)
    (hdirectoryLine : '\n' ∉ script.directory) (hnameLine : '\n' ∉ script.instanceName) :
    Reads (script.unixCommands Quoting.shellWord) script.unixItems ↔
      documentEnd ∉ Text.split '\n' script.body := by
  have hcommands := isCommand_unixItems hdirectory hname hexports
  have hclosing : documentEnd ∉ Text.split '\n' script.unixClosing ↔ IsContent script.unixClosing :=
    (and_iff_right (isEnded_unixClosing script)).symm
  rw [reads_unixItems_iff, and_iff_right hcommands,
    and_iff_right (isContent_unixOpening (lf_not_mem_shellWord hnameLine)).2, hclosing,
    isContent_unixClosing hdirectoryLine]

end RunScript

/-! ### Run scripts within run scripts -/

/-- Whether a line of a text is the line that ends a here document. -/
def HoldsEnd (t : Text) : Prop := ∃ before after, Text.IsEnded before ∧ t = before ++ closing ++ after

theorem HoldsEnd.prepend {s t : Text} (hs : Text.IsEnded s) (ht : HoldsEnd t) : HoldsEnd (s ++ t) := by
  obtain ⟨before, after, hbefore, rfl⟩ := ht
  exact ⟨s ++ before, after, hs.append hbefore, by simp⟩

theorem HoldsEnd.append {s : Text} (hs : HoldsEnd s) (t : Text) : HoldsEnd (s ++ t) := by
  obtain ⟨before, after, hbefore, rfl⟩ := hs
  exact ⟨before, after ++ t, hbefore, by simp⟩

theorem HoldsEnd.cases {t : Text} (h : HoldsEnd t) :
    (∃ after, t = RunScript.documentEnd ++ '\n' :: after) ∨
      ∃ lines after, t = lines ++ '\n' :: (RunScript.documentEnd ++ '\n' :: after) := by
  obtain ⟨before, after, hbefore, rfl⟩ := h
  rcases hbefore with rfl | hlast
  · exact Or.inl ⟨after, by simp [closing_eq]⟩
  · obtain ⟨lines, rfl⟩ := List.getLast?_eq_some_iff.mp hlast
    exact Or.inr ⟨lines, after, by simp [closing_eq]⟩

theorem HoldsEnd.mem_split {t : Text} (h : HoldsEnd t) :
    RunScript.documentEnd ∈ Text.split '\n' t := by
  have hmem (after : Text) :
      RunScript.documentEnd ∈ Text.split '\n' (RunScript.documentEnd ++ '\n' :: after) := by
    rw [Text.split_append_cons, Text.split_of_not_mem lf_not_mem_documentEnd]
    exact List.mem_cons_self
  rcases h.cases with ⟨after, rfl⟩ | ⟨lines, after, rfl⟩
  · exact hmem after
  · rw [Text.split_append_cons]
    exact List.mem_append_right _ (hmem after)

theorem HoldsEnd.exitForReturn {t : Text} (h : HoldsEnd t) :
    HoldsEnd (Statement.exitForReturn .unix t) := by
  have hkept : Statement.exitForReturn .unix RunScript.documentEnd = RunScript.documentEnd := by
    decide
  rcases h.cases with ⟨after, rfl⟩ | ⟨lines, after, rfl⟩
  · rw [Statement.exitForReturn_append_lf, hkept]
    exact ⟨[], Statement.exitForReturn .unix after, Or.inl rfl, by simp [closing_eq]⟩
  · rw [Statement.exitForReturn_append_lf, Statement.exitForReturn_append_lf, hkept]
    exact ⟨Statement.exitForReturn .unix lines ++ ['\n'], Statement.exitForReturn .unix after,
      Or.inr (by simp), by simp [closing_eq]⟩

theorem holdsEnd_flatMap {α : Type} {items : List α} {write : α → Text}
    (hended : ∀ a ∈ items, Text.IsEnded (write a)) {a : α} (ha : a ∈ items)
    (h : HoldsEnd (write a)) : HoldsEnd (items.flatMap write) := by
  obtain ⟨before, after, rfl⟩ := List.append_of_mem ha
  rw [List.flatMap_append, List.flatMap_cons]
  refine HoldsEnd.prepend (Text.isEnded_flatMap fun b hb => ?_) (h.append _)
  exact hended b (List.mem_append_left _ hb)

theorem holdsEnd_hereDocument (redirection path : Text) {content : Text}
    (hcontent : Text.IsEnded content) : HoldsEnd (RunScript.hereDocument redirection path content) :=
  ⟨_, [], (Text.isEnded_line .unix _).append hcontent, (List.append_nil _).symm⟩

theorem RunScript.holdsEnd_unixCommands (script : RunScript) (word : Text → Text) :
    HoldsEnd (script.unixCommands word) := by
  have hfirst := holdsEnd_hereDocument ">" (script.path .unix) (script.isEnded_unixOpening word)
  exact (((hfirst.prepend (Text.isEnded_line .unix _)).append _).append _).append _

namespace Statement

/-- A part that holds the end of a here document passes it on to the whole. -/
theorem exists_holdsEnd_of_part {s part : Statement} (hpart : part ∈ s.parts .unix) {text : Text}
    (h : render .unix s = .ok text) :
    ∃ t, render .unix part = .ok t ∧ (HoldsEnd t → HoldsEnd text) := by
  cases s with
  | interpret | scope | call | findPid | kill | forget => simp [parts] at hpart
  | list items =>
    obtain ⟨texts, htexts, rfl⟩ := render_list_eq_ok.mp h
    obtain ⟨t, ht⟩ := exists_traverse_eq_ok.mp ⟨texts, htexts⟩ part hpart
    have hmem (written : Text) : written ∈ texts ↔ ∃ s ∈ items, render .unix s = .ok written :=
      mem_of_traverse_eq_ok htexts
    refine ⟨t, ht, fun hend => ?_⟩
    rw [← List.flatMap_id]
    refine holdsEnd_flatMap (fun written hwritten => ?_) ((hmem t).mpr ⟨part, hpart, ht⟩) hend
    obtain ⟨s, -, hs⟩ := (hmem written).mp hwritten
    exact isEnded_of_render hs
  | exitInsteadOfReturn body =>
    obtain rfl := List.mem_singleton.mp hpart
    obtain ⟨written, hwritten, rfl⟩ := map_eq_ok.mp h
    exact ⟨written, hwritten, HoldsEnd.exitForReturn⟩
  | switch subject cases =>
    obtain ⟨c, hc, rfl⟩ := List.mem_map.mp hpart
    obtain ⟨arms, harms, rfl⟩ := map_eq_ok.mp h
    rw [renderCases_eq] at harms
    have hmem (arm : Dispatch.Arm) : arm ∈ arms ↔
        ∃ c ∈ cases, ∃ t, render .unix c.2 = .ok t ∧ (c.1, t) = arm := by
      simp only [mem_of_traverse_eq_ok harms, map_eq_ok]
    obtain ⟨t, ht⟩ := exists_renderCases_eq_ok.mp ⟨arms, (renderCases_eq .unix cases).trans harms⟩ c hc
    refine ⟨t, ht, fun hend => ?_⟩
    -- what stands before the body of an arm ends a line, so the body's lines stay lines
    have harm : HoldsEnd (Dispatch.unixArm Quoting.shellWord (c.1, t)) :=
      (hend.prepend (Text.isEnded_line .unix _)).append _
    have hended : ∀ arm ∈ arms, Text.IsEnded (Dispatch.unixArm Quoting.shellWord arm) :=
      fun arm _ => Text.isEnded_append_line _ .unix _
    have hmemArm : (c.1, t) ∈ arms := (hmem _).mpr ⟨c, hc, t, ht, rfl⟩
    exact ((holdsEnd_flatMap hended hmemArm harm).prepend (Text.isEnded_line .unix _)).append _
  | runScript instanceName exports workingDirectory body =>
    obtain rfl := List.mem_singleton.mp hpart
    obtain ⟨directory, _, library, -, hwritten, -, rfl⟩ := render_runScript_eq_ok.mp h
    obtain ⟨written, hbody, -⟩ := map_eq_ok.mp hwritten
    exact ⟨written, hbody, fun _ => RunScript.holdsEnd_unixCommands _ _⟩
  | capture logDirectory body =>
    obtain rfl := List.mem_singleton.mp hpart
    simp only [render, bind_eq_ok, pure_eq_ok] at h
    obtain ⟨directory, -, written, hwritten, rfl⟩ := h
    exact ⟨written, hwritten, HoldsEnd.prepend (Text.isEnded_block .unix _)⟩
  | dialect unix windows =>
    obtain rfl := List.mem_singleton.mp hpart
    exact ⟨text, h, id⟩

/-- What writes a run script at any depth has the line that ends a here document. -/
theorem holdsEnd_of_reaches {s node : Statement} (hreaches : Reaches .unix s node)
    {instanceName workingDirectory : Text} {exports : List Text} {body : Statement}
    (hnode : node = .runScript instanceName exports workingDirectory body) {text : Text}
    (h : render .unix s = .ok text) : HoldsEnd text := by
  induction hreaches generalizing text with
  | self s =>
    subst hnode
    obtain ⟨directory, written, library, -, -, -, rfl⟩ := render_runScript_eq_ok.mp h
    exact RunScript.holdsEnd_unixCommands _ _
  | part hpart _ ih =>
    obtain ⟨t, ht, hpasses⟩ := exists_holdsEnd_of_part hpart h
    exact hpasses (ih hnode ht)

end Statement

/-- A body that holds the line that ends a here document ends the second one too early. -/
theorem RunScript.not_reads_of_holdsEnd {script : RunScript} (h : HoldsEnd script.body) :
    ¬Reads (script.unixCommands Quoting.shellWord) script.unixItems := by
  rw [reads_unixItems_iff]
  rintro ⟨-, -, hclosing⟩
  have hending : HoldsEnd (endingLine script.body) := by
    rw [endingLine]
    split
    · exact h
    · exact h.append _
  exact hclosing (hending.prepend (Text.isEnded_append_line _ .unix _)).mem_split

namespace Statement

/-- The commands written for a run script on Unix are read as two here documents with the exports
between them and the change of the file's mode after them exactly when each command is a whole one and
no line of the opening or the closing is the line that ends a document. With plain names on one line,
that is when no line of the body is. It never is the case when the body writes a run script. -/
theorem reads_of_render_runScript {instanceName workingDirectory text : Text} {exports : List Text}
    {body : Statement}
    (h : render .unix (.runScript instanceName exports workingDirectory body) = .ok text) :
    ∃ directory written library,
      Template.expand .unix workingDirectory = .ok directory ∧
      render .unix (.exitInsteadOfReturn body) = .ok written ∧
      LibraryFunction.resolve .unix [] (body.dependencies .unix).names = .ok library ∧
      let names := RunScript.exportedNames exports
      let opening := Token.beginScript.literal .unix ++ Variable.resetPath .unix ++
        Family.unix.line ("export " ++ instanceNameVariable ++ "=" ++ Quoting.shellWord instanceName)
      let closing := LibraryFunction.definitions library .unix ++
        Family.unix.line ("cd \"" ++ directory ++ "\"") ++ written
      let items := RunScript.documentItems directory (RunScript.pathIn directory instanceName .unix)
        names opening closing
      (Reads text items ↔
        (∀ item ∈ items, IsCommand item.documents.length item.command) ∧
          RunScript.documentEnd ∉ Text.split '\n' opening ∧
          RunScript.documentEnd ∉ Text.split '\n' closing) ∧
      ((∀ t ∈ directory :: instanceName :: names, IsPlain t ∧ '\n' ∉ t) →
        (Reads text items ↔ RunScript.documentEnd ∉ Text.split '\n' written)) ∧
      ∀ innerName innerExports innerDirectory innerBody,
        Reaches .unix body (.runScript innerName innerExports innerDirectory innerBody) →
          ¬Reads text items := by
  obtain ⟨directory, written, library, hdirectory, hwritten, hlibrary, rfl⟩ :=
    render_runScript_eq_ok.mp h
  let script : RunScript := ⟨instanceName, exports, directory, library, written⟩
  have hended : Text.IsEnded script.body := isEnded_of_render hwritten
  refine ⟨directory, written, library, hdirectory, hwritten, hlibrary, ?_⟩
  intro names opening closing items
  have hclosing : script.unixClosing = closing := by
    rw [RunScript.unixClosing, RunScript.endingLine_of_isEnded hended]
  have hitems : script.unixItems = items := RunScript.unixItems_eq hended
  rw [← hitems, ← hclosing]
  refine ⟨script.reads_unixItems_iff, fun hnames => ?_, ?_⟩
  · obtain ⟨⟨hplain, hline⟩, ⟨hnamePlain, hnameLine⟩, hexports⟩ :
        (IsPlain directory ∧ '\n' ∉ directory) ∧ (IsPlain instanceName ∧ '\n' ∉ instanceName) ∧
          ∀ name ∈ names, IsPlain name ∧ '\n' ∉ name := by
      simpa only [List.forall_mem_cons] using hnames
    exact RunScript.reads_unixItems_iff_of_plain hplain hnamePlain
      (fun name hname => (hexports name hname).1) hline hnameLine
  · intro innerName innerExports innerDirectory innerBody hreaches
    have hwhole : Reaches .unix (.exitInsteadOfReturn body)
        (.runScript innerName innerExports innerDirectory innerBody) :=
      .part List.mem_cons_self hreaches
    exact RunScript.not_reads_of_holdsEnd (holdsEnd_of_reaches hwhole rfl hwritten)

/-- A run script that names the line that ends a document within other lines only. -/
def quotingBody : Statement :=
  .list [.interpret ["echo \"it's END_OF_RUN_SCRIPT <<'END_OF_RUN_SCRIPT'\"", "return 1"],
    .findPid "worker"]

theorem reads_of_render_quotingBody :
    ∃ text written library,
      render .unix (.runScript "web" ["logDir"] "/srv/web" quotingBody) = .ok text ∧
      render .unix (.exitInsteadOfReturn quotingBody) = .ok written ∧
      LibraryFunction.resolve .unix [] (quotingBody.dependencies .unix).names = .ok library ∧
      Reads text
        (RunScript.documentItems "/srv/web" (RunScript.pathIn "/srv/web" "web" .unix)
          (RunScript.exportedNames ["logDir"])
          (Token.beginScript.literal .unix ++ Variable.resetPath .unix ++
            Family.unix.line ("export " ++ instanceNameVariable ++ "=" ++ Quoting.shellWord "web"))
          (LibraryFunction.definitions library .unix ++
            Family.unix.line ("cd \"" ++ "/srv/web" ++ "\"") ++ written)) := by
  have hrenders : ((render .unix (.runScript "web" ["logDir"] "/srv/web" quotingBody)).map
      fun _ => true) = .ok true := by decide
  obtain ⟨text, htext, -⟩ := map_eq_ok.mp hrenders
  have hexpand : Template.expand .unix "/srv/web" = .ok "/srv/web" := by decide
  have hlines : (render .unix (.exitInsteadOfReturn quotingBody)).map
      (fun written => decide (RunScript.documentEnd ∉ Text.split '\n' written)) = .ok true := by
    decide
  obtain ⟨directory, written, library, hdirectory, hwritten, hlibrary, -, hplain, -⟩ :=
    reads_of_render_runScript htext
  obtain rfl := Except.ok.inj (hexpand.symm.trans hdirectory)
  obtain ⟨_, hrender, hmem⟩ := map_eq_ok.mp hlines
  obtain rfl := Except.ok.inj (hrender.symm.trans hwritten)
  exact ⟨text, _, library, htext, hwritten, hlibrary,
    (hplain (by decide)).mpr (of_decide_eq_true hmem)⟩

def innerScript : Statement := .runScript "inner" [] "/srv" (.interpret ["echo hi"])

/-- A run script that writes a run script: the end of the inner one's first document ends the outer
one's second document. -/
theorem not_reads_of_render_innerScript :
    ∃ text written library,
      render .unix (.runScript "outer" [] "/srv" innerScript) = .ok text ∧
      render .unix (.exitInsteadOfReturn innerScript) = .ok written ∧
      LibraryFunction.resolve .unix [] (innerScript.dependencies .unix).names = .ok library ∧
      ¬Reads text
        (RunScript.documentItems "/srv" (RunScript.pathIn "/srv" "outer" .unix)
          (RunScript.exportedNames [])
          (Token.beginScript.literal .unix ++ Variable.resetPath .unix ++
            Family.unix.line ("export " ++ instanceNameVariable ++ "=" ++ Quoting.shellWord "outer"))
          (LibraryFunction.definitions library .unix ++
            Family.unix.line ("cd \"" ++ "/srv" ++ "\"") ++ written)) := by
  have hrenders : ((render .unix (.runScript "outer" [] "/srv" innerScript)).map
      fun _ => true) = .ok true := by decide
  have hexpand : Template.expand .unix "/srv" = .ok "/srv" := by decide
  obtain ⟨text, htext, -⟩ := map_eq_ok.mp hrenders
  obtain ⟨directory, written, library, hdirectory, hwritten, hlibrary, rfl⟩ :=
    render_runScript_eq_ok.mp htext
  obtain rfl := Except.ok.inj (hexpand.symm.trans hdirectory)
  refine ⟨_, written, library, htext, hwritten, hlibrary, ?_⟩
  let script : RunScript := ⟨"outer", [], "/srv", library, written⟩
  have hended : Text.IsEnded script.body := isEnded_of_render hwritten
  have hreaches : Reaches .unix (.exitInsteadOfReturn innerScript) innerScript :=
    .part List.mem_cons_self (.self innerScript)
  have hheld : HoldsEnd script.body := holdsEnd_of_reaches hreaches rfl hwritten
  have hnot := RunScript.not_reads_of_holdsEnd hheld
  rw [RunScript.unixItems_eq hended] at hnot
  exact hnot

end Statement

end DualShell
