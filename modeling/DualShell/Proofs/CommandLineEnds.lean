import DualShell.Proofs.OwnLineEnds

/-!
The line ends of commands. The definitions, calls, tables and frames of which scripts consist, and the
commands that write a run script, bring only the family's own line ends to the texts that they are
written around.
-/

namespace DualShell

open Passes Text

variable {family : Family}

theorem lined_functionDefinition (name : Text) {body : Text} (hbody : Lined family body) :
    Lined family (functionDefinition name body family) := by
  have hlabel {family : Family} : Lined family (Label.ofName name) :=
    lined_of_isIdentifier (Label.isIdentifier_ofName name)
  cases family with
  | unix =>
    exact ((hlabel.before (by decide)).line.append hbody).before (by decide)
  | windows =>
    refine ((hlabel.char (by decide)).line.append hbody).append ?_
    exact (lined_of_notMem (by decide)).line

theorem Scope.forall_mem_strings {P : Text → Prop} {scope : Scope} :
    (∀ t ∈ scope.strings, P t) ↔ ∀ entry ∈ scope.assignments.entries, P entry.1 ∧ P entry.2 := by
  simp only [strings, List.mem_flatMap, List.mem_cons, List.not_mem_nil, or_false]
  constructor
  · intro h entry hentry
    exact ⟨h _ ⟨entry, hentry, Or.inl rfl⟩, h _ ⟨entry, hentry, Or.inr rfl⟩⟩
  · rintro h t ⟨entry, hentry, rfl | rfl⟩
    · exact (h entry hentry).1
    · exact (h entry hentry).2

theorem Scope.lined_render {scope : Scope} {text : Text}
    (hstrings : ∀ t ∈ scope.strings, Lined family t) (h : scope.render family = .ok text) :
    Lined family text := by
  obtain ⟨body, hbody, rfl⟩ := map_eq_ok.mp h
  obtain ⟨written, hwritten, rfl⟩ := map_eq_ok.mp hbody
  refine lined_functionDefinition scope.name
    (lined_flatten (forall_mem_of_traverse_eq_ok (fun entry hentry line hline => ?_) hwritten))
  obtain ⟨value, hvalue, rfl⟩ := map_eq_ok.mp hline
  obtain ⟨hkey, hassigned⟩ := forall_mem_strings.mp hstrings entry hentry
  replace hkey := Variable.lined_exportedName hkey
  have hexpanded := Template.lined_expand hassigned hvalue
  refine Lined.line ?_
  cases family with
  | unix =>
    exact (((hkey.after (by decide)).before (by decide)).append
      (Quoting.lined_doubleQuoted hexpanded)).before (by decide)
  | windows =>
    exact ((hkey.after (by decide)).before (by decide)).append hexpanded

theorem lined_invocationLine {label : Text} (hlabel : Lined family label)
    {arguments : List Text} (h : ∀ argument ∈ arguments, Lined family argument) :
    Lined family (invocationLine label arguments family) := by
  have hinvocation : Lined family (invocation label family) := by
    cases family with
    | unix => exact hlabel
    | windows => exact hlabel.after (by decide)
  refine (hinvocation.append (lined_flatMap fun argument hargument => ?_)).line
  exact (h argument hargument).char (by cases family <;> decide)

theorem lined_functionCall {name : Text} {arguments : List Text} {text : Text}
    (h : ∀ argument ∈ arguments, Lined family argument)
    (htext : functionCall name arguments family = .ok text) : Lined family text := by
  obtain ⟨written, hwritten, rfl⟩ := map_eq_ok.mp htext
  exact lined_invocationLine (lined_of_isIdentifier (Label.isIdentifier_ofName name))
    (Template.lined_expandAll h hwritten)

theorem lined_libraryCall {function : LibraryFunction} {arguments : List Text} {text : Text}
    (h : ∀ argument ∈ arguments, Lined family argument)
    (htext : libraryCall function arguments family = .ok text) : Lined family text := by
  obtain ⟨written, hwritten, rfl⟩ := map_eq_ok.mp htext
  have hquote : Lined family ['"'] := lined_of_notMem (by cases family <;> decide)
  have hname : Lined family function.name :=
    lined_of_notMem (by cases function <;> cases family <;> decide)
  refine lined_invocationLine hname (List.forall_mem_map.mpr fun t ht => ?_)
  exact (hquote.append (Template.lined_expandAll h hwritten t ht)).append hquote

theorem lined_killCommands (family : Family) : Lined family (killCommands family) := by
  cases family with
  | unix => exact lined_of_notMem (by decide +kernel)
  | windows => exact lined_of_windows_block_lines (by decide +kernel)

theorem Dispatch.lined_table {subject : Text} {arms : List Dispatch.Arm}
    (hsubject : Lined family subject)
    (harms : ∀ arm ∈ arms, Lined family arm.1 ∧ Lined family arm.2) :
    Lined family (Dispatch.table subject arms family) := by
  have hreference := Variable.lined_reference hsubject
  cases family with
  | unix =>
    have harm : ∀ arm ∈ arms, Lined .unix (unixArm Quoting.shellWord arm) := fun arm harm =>
      (((Quoting.lined_shellWord (harms arm harm).1).before (by decide)).line.append
        (harms arm harm).2).before (by decide)
    exact (((hreference.after (by decide)).before (by decide)).line.append
      (lined_flatMap harm)).before (by decide)
  | windows =>
    have hlabel (index : Nat) : Lined .windows (Label.arm index) :=
      lined_of_notMem (not_mem_arm (by decide) (by decide) index)
    have hend : Lined .windows (Family.windows.line (gotoLine Label.endSwitch)) :=
      (lined_of_notMem (by decide)).line
    have htest : ∀ arm ∈ arms.zipIdx, Lined .windows (windowsTest subject arm.1.1 arm.2) := by
      intro arm harm
      have hvalue := (harms arm.1 (List.fst_mem_of_mem_zipIdx harm)).1
      exact (((((hreference.after (by decide)).before (by decide)).append hvalue).before
        (by decide)).append ((hlabel arm.2).after (by decide))).line
    have hbody : ∀ arm ∈ arms.zipIdx, Lined .windows (windowsArm arm.1.2 arm.2) := fun arm harm =>
      (((hlabel arm.2).char (by decide)).line.append
        (harms arm.1 (List.fst_mem_of_mem_zipIdx harm)).2).append hend
    exact (((lined_flatMap htest).append hend).append (lined_flatMap hbody)).append
      (lined_of_notMem (by decide)).line

theorem Capture.lined_commands {directory body : Text} (hdirectory : Lined family directory)
    (hbody : Lined family body) : Lined family (Capture.commands directory body family) := by
  have hfile : Lined family (statusFile directory family) :=
    (hdirectory.append (Token.fileSeparator.lined_literal family)).before
      (by cases family <;> decide)
  cases family with
  | unix =>
    refine (lined_block ?_).append hbody
    simp only [List.cons_append, List.nil_append, List.forall_mem_cons, List.forall_mem_map]
    refine ⟨?_, ?_, ?_, ?_⟩
    · exact (hdirectory.after (by decide)).before (by decide)
    · exact (hfile.after (by decide)).before (by decide)
    · exact (((hfile.after (by decide)).before (by decide)).after (by decide)).before (by decide)
        |>.before (by decide)
    · intro signal hsignal
      have h : ∀ signal ∈ signals, '\r' ∉ trapLine ("exit " ++ Text.ofNat signal.2) signal.1 := by
        decide
      exact lined_of_notMem (h signal hsignal)
  | windows =>
    refine ((lined_block ?_).append hbody).append (lined_of_notMem (by decide)).line
    simp only [List.forall_mem_cons]
    refine ⟨?_, ?_, lined_of_notMem (by decide), ?_, lined_of_notMem (by decide),
      lined_of_notMem (by decide), List.forall_mem_nil _⟩
    · exact (((hdirectory.after (by decide)).before (by decide)).append hdirectory).before (by decide)
    · exact (hfile.after (by decide)).before (by decide)
    · exact (hfile.after (by decide)).before (by decide)

namespace RunScript

variable {script : RunScript}

theorem lined_path (hname : Lined family script.instanceName)
    (hdirectory : Lined family script.directory) : Lined family (script.path family) :=
  (((hdirectory.append (Token.fileSeparator.lined_literal family)).append hname).before
    (by cases family <;> decide)).append (Token.scriptSuffix.lined_literal family)

theorem lined_exportedNames {keys : List Text} (h : ∀ key ∈ keys, Lined family key) :
    ∀ name ∈ exportedNames keys, Lined family name := by
  intro name hname
  obtain ⟨key, hkey, rfl⟩ := exists_key_of_mem_exportedNames hname
  exact Variable.lined_exportedName (h key hkey)

theorem lined_endingLine {t : Text} (h : Lined .unix t) : Lined .unix (endingLine t) := by
  rw [endingLine]
  split
  · exact h
  · exact h.before (by decide)

theorem lined_hereDocument {redirection path content : Text} (hredirection : '\r' ∉ redirection)
    (hpath : Lined .unix path) (hcontent : Lined .unix content) :
    Lined .unix (hereDocument redirection path content) := by
  have hopening : Lined .unix ("cat " ++ redirection ++ " \"") :=
    ((lined_of_notMem hredirection).after (by decide)).before (by decide)
  refine (Lined.line ?_).append hcontent |>.before (by decide)
  exact (((hopening.append hpath).before (by decide)).before (by decide)).before (by decide)

theorem lined_unixCommands (hname : Lined .unix script.instanceName)
    (hexports : ∀ key ∈ script.exports, Lined .unix key)
    (hdirectory : Lined .unix script.directory) (hbody : Lined .unix script.body) :
    Lined .unix (script.unixCommands Quoting.shellWord) := by
  have hpath := lined_path hname hdirectory
  have hopening : Lined .unix (script.unixOpening Quoting.shellWord) := by
    refine Lined.append ?_ ((Quoting.lined_shellWord hname).after (by decide)).line
    exact lined_of_notMem (by decide)
  have hclosing : Lined .unix script.unixClosing :=
    ((LibraryFunction.lined_definitions script.library .unix).append
      ((hdirectory.after (by decide)).before (by decide)).line).append (lined_endingLine hbody)
  have hexport : ∀ name ∈ exportedNames script.exports,
      Lined .unix (unixExport (script.path .unix) name) := by
    intro name hmem
    have hvariable := lined_exportedNames hexports name hmem
    refine lined_block (List.forall_mem_cons.mpr ⟨?_, List.forall_mem_singleton.mpr ?_⟩)
    · exact (hvariable.after (by decide)).before (by decide)
    · exact (((((hvariable.after (by decide)).before (by decide)).before (by decide)).before
        (by decide)).append hpath).before (by decide)
  exact ((((hdirectory.after (by decide)).before (by decide)).line.append
    (lined_hereDocument (by decide) hpath hopening)).append (lined_flatMap hexport)).append
      (lined_hereDocument (by decide) hpath hclosing) |>.append
        ((hpath.after (by decide)).before (by decide)).line

theorem lined_appendLine {path content : Text} (hpath : Lined .windows path)
    (hcontent : Lined .windows content) : Lined .windows (appendLine path content) :=
  (((hpath.after (by decide)).before (by decide)).append
    (Quoting.lined_batchEchoFrom hcontent false)).line

theorem lined_of_mem_lines {t line : Text} (h : line ∈ lines t) : Lined .windows line :=
  lined_of_notMem (not_mem_lines t line h)

theorem lined_windowsExports {path : Text} {names : List Text} (hpath : Lined .windows path)
    (hnames : ∀ name ∈ names, Lined .windows name) : Lined .windows (windowsExports path names) := by
  rw [windowsExports]
  split
  · exact .nil
  · have hexport : ∀ name ∈ names, Lined .windows (windowsExport path name) := by
      intro name hname
      have hassignment : Lined .windows ("set \"" ++ name ++ "=!" ++ name ++ "!\"") :=
        (((hnames name hname).after (by decide)).before (by decide)).append (hnames name hname)
          |>.before (by decide)
      exact (((hpath.after (by decide)).before (by decide)).append hassignment).line
    exact ((lined_of_notMem (by decide)).line.append (lined_flatMap hexport)).append
      (lined_of_notMem (by decide)).line

theorem lined_windowsCommands (hname : Lined .windows script.instanceName)
    (hexports : ∀ key ∈ script.exports, Lined .windows key)
    (hdirectory : Lined .windows script.directory) : Lined .windows script.windowsCommands := by
  have hpath := lined_path hname hdirectory
  have happend {contents : List Text} (h : ∀ content ∈ contents, Lined .windows content) :
      Lined .windows (contents.flatMap (appendLine (script.path .windows))) :=
    lined_flatMap fun content hcontent => lined_appendLine hpath (h content hcontent)
  have hopening : ∀ content ∈ script.windowsOpening, Lined .windows content := by
    refine List.forall_mem_append.mpr
      ⟨fun _ => lined_of_mem_lines, List.forall_mem_singleton.mpr ?_⟩
    exact hname.after (by decide)
  have hclosing : ∀ content ∈ script.windowsClosing, Lined .windows content := by
    refine List.forall_mem_append.mpr ⟨List.forall_mem_append.mpr
      ⟨List.forall_mem_append.mpr ⟨List.forall_mem_singleton.mpr ?_, fun _ => lined_of_mem_lines⟩,
        fun _ => lined_of_mem_lines⟩, fun _ => lined_of_mem_lines⟩
    exact (hdirectory.after (by decide)).before (by decide)
  refine ((Lined.append ?_ (happend hopening)).append
    (lined_windowsExports hpath (lined_exportedNames hexports))).append (happend hclosing)
  refine lined_block (List.forall_mem_cons.mpr ⟨?_, List.forall_mem_singleton.mpr ?_⟩)
  · exact (((hdirectory.after (by decide)).before (by decide)).append hdirectory).before (by decide)
  · exact (hpath.after (by decide)).before (by decide)

theorem lined_commands {instanceName directory body : Text} {exports : List Text}
    {library : List LibraryFunction} (hname : Lined family instanceName)
    (hexports : ∀ key ∈ exports, Lined family key) (hdirectory : Lined family directory)
    (hbody : Lined family body) :
    Lined family (commands ⟨instanceName, exports, directory, library, body⟩ family) := by
  cases family with
  | unix => exact lined_unixCommands hname hexports hdirectory hbody
  | windows => exact lined_windowsCommands hname hexports hdirectory

end RunScript


end DualShell
