import DualShell.Proofs.DistinctLists
import DualShell.Proofs.LineEnds

/-!
The file that a Windows run script becomes. The commands that write it are read as the command
interpreter reads them: pairs of percent signs first, then quotes and carets. Every line is read back
as it was given, whatever characters it holds, so that the file holds the body of the run script as it
was written, even where that body writes a run script of its own.
-/

namespace DualShell

open Passes

namespace Quoting

/-- The text with each pair of percent signs read as one; there is no reading where a percent sign
stands alone. -/
def readPercent : Text → Option Text
  | [] => some []
  | '%' :: '%' :: rest => (readPercent rest).map ('%' :: ·)
  | c :: rest => if c = '%' then none else (readPercent rest).map (c :: ·)

/-- Where a line is read with regard to carets: outside double quotes, inside them, or just after a
caret that keeps the next character from its meaning. -/
inductive CaretState where
  | bare
  | quoted
  | kept

/-- The text with its carets read. There is no reading where an operator stands outside double quotes
without a caret, or where a caret stands last. -/
def readCarets : CaretState → Text → Option Text
  | .kept, [] => none
  | .bare, [] => some []
  | .quoted, [] => some []
  | .kept, c :: rest => (readCarets .bare rest).map (c :: ·)
  | .quoted, c :: rest => (readCarets (if c = '"' then .bare else .quoted) rest).map (c :: ·)
  | .bare, c :: rest =>
    if c = '^' then readCarets .kept rest
    else if isBatchOperator c then none
    else (readCarets (if c = '"' then .quoted else .bare) rest).map (c :: ·)

/-- What `echo` prints when a batch file gives it this argument. -/
def readEcho (argument : Text) : Option Text := do
  let line ← readPercent argument
  readCarets .bare line

/-- A line with carets but with its percent signs as they are. -/
def careted : Bool → Text → Text
  | _, [] => []
  | quoted, c :: rest =>
    if c = '"' then c :: careted (!quoted) rest
    else if isBatchOperator c && !quoted then '^' :: c :: careted quoted rest
    else c :: careted quoted rest

theorem readPercent_cons {c : Char} (hc : c ≠ '%') (rest : Text) :
    readPercent (c :: rest) = (readPercent rest).map (c :: ·) := by
  rw [readPercent, if_neg hc]
  intro others h
  exact absurd h hc

theorem readPercent_batchEchoFrom (quoted : Bool) (line : Text) :
    readPercent (batchEchoFrom quoted line) = some (careted quoted line) := by
  induction line generalizing quoted with
  | nil => rfl
  | cons c rest ih =>
    rw [batchEchoFrom, careted]
    by_cases hquote : c = '"'
    · rw [if_pos hquote, if_pos hquote, readPercent_cons (by simp [hquote]), ih]
      rfl
    · rw [if_neg hquote, if_neg hquote]
      by_cases hpercent : c = '%'
      · subst hpercent
        simp [readPercent, ih, isBatchOperator]
      · rw [if_neg hpercent]
        split
        · rw [readPercent_cons (by simp), readPercent_cons hpercent, ih]
          rfl
        · rw [readPercent_cons hpercent, ih]
          rfl

theorem readCarets_careted (quoted : Bool) (line : Text) :
    readCarets (if quoted then .quoted else .bare) (careted quoted line) = some line := by
  induction line generalizing quoted with
  | nil => cases quoted <;> rfl
  | cons c rest ih =>
    have hbare := ih false
    have hquoted := ih true
    simp only [Bool.false_eq_true, if_true, if_false] at hbare hquoted
    by_cases hquote : c = '"'
    · subst hquote
      have hplain : isBatchOperator '"' = false := by decide
      cases quoted <;> simp [careted, readCarets, hplain, hbare, hquoted]
    · cases quoted with
      | true => simp [careted, readCarets, hquote, hquoted]
      | false =>
        by_cases hoperator : isBatchOperator c = true
        · simp [careted, readCarets, hquote, hoperator, hbare]
        · have hcaret : c ≠ '^' := by
            rintro rfl
            exact hoperator (by decide)
          simp [careted, readCarets, hoperator, hquote, hcaret, hbare]

/-- The argument that is written for a line prints that line. -/
theorem readEcho_batchEcho (line : Text) : readEcho (batchEcho line) = some line := by
  rw [readEcho, batchEcho, readPercent_batchEchoFrom]
  exact readCarets_careted false line

theorem mem_batchEchoFrom {quoted : Bool} {line : Text} {c : Char}
    (h : c ∈ batchEchoFrom quoted line) : c = '%' ∨ c = '^' ∨ c ∈ line := by
  induction line generalizing quoted with
  | nil => simp [batchEchoFrom] at h
  | cons d rest ih =>
    rw [batchEchoFrom] at h
    grind

theorem lf_not_mem_batchEcho {line : Text} (h : '\n' ∉ line) : '\n' ∉ batchEcho line := by
  intro hmem
  rcases mem_batchEchoFrom hmem with hpercent | hcaret | hline
  · exact absurd hpercent (by decide)
  · exact absurd hcaret (by decide)
  · exact h hline

end Quoting

namespace RunScript

def echoOpening (path : Text) : Text := ">>\"" ++ path ++ "\" echo("

def delayExpansion : Text := "setlocal EnableDelayedExpansion"

def endDelay : Text := "endlocal"

/-- The lines that commands add to the file at a path. While expansion is delayed a line stands as it
is written, with its references to be replaced; otherwise it is what `echo` prints. -/
def addedLines (path : Text) : Bool → List Text → Option (List Text)
  | _, [] => some []
  | delayed, command :: rest =>
    if command = delayExpansion then addedLines path true rest
    else if command = endDelay then addedLines path false rest
    else if (echoOpening path).isPrefixOf command then do
      let argument := command.drop (echoOpening path).length
      let line ← if delayed then some argument else Quoting.readEcho argument
      let others ← addedLines path delayed rest
      return line :: others
    else addedLines path delayed rest

/-- Whether names are those under which keys are exported, without the instance's name: each once, and in
the order in which they first occur. -/
def IsExportList (keys names : List Text) : Prop :=
  (∀ name, name ∈ names ↔
    name ≠ instanceNameVariable ∧ ∃ key ∈ keys, Variable.exportedName key = name) ∧
  names.Nodup ∧
  names.Pairwise fun first second =>
    (keys.map Variable.exportedName).idxOf first < (keys.map Variable.exportedName).idxOf second

theorem isExportList_exportedNames (keys : List Text) : IsExportList keys (exportedNames keys) := by
  refine ⟨fun name => ?_, (nodup_distinct _).filter _, (pairwise_idxOf_distinct _).filter _⟩
  simp only [exportedNames, List.mem_filter, mem_distinct, List.mem_map, decide_eq_true_eq]
  exact And.comm

def exportAssignment (name : Text) : Text := "set \"" ++ name ++ "=!" ++ name ++ "!\""

section AddedLines

variable {path : Text} {delayed : Bool}

theorem head?_echoOpening (path argument : Text) :
    (echoOpening path ++ argument).head? = some '>' := rfl

theorem head?_delayExpansion : delayExpansion.head? = some 's' := rfl

theorem head?_endDelay : endDelay.head? = some 'e' := rfl

theorem addedLines_echo (argument : Text) (rest : List Text) :
    addedLines path delayed ((echoOpening path ++ argument) :: rest) = (do
      let line ← if delayed then some argument else Quoting.readEcho argument
      let others ← addedLines path delayed rest
      return line :: others) := by
  have hdelay : echoOpening path ++ argument ≠ delayExpansion :=
    mt (congrArg List.head?) (by rw [head?_echoOpening, head?_delayExpansion]; decide)
  have hend : echoOpening path ++ argument ≠ endDelay :=
    mt (congrArg List.head?) (by rw [head?_echoOpening, head?_endDelay]; decide)
  have hstarts : (echoOpening path).isPrefixOf (echoOpening path ++ argument) = true :=
    List.isPrefixOf_iff_prefix.mpr (List.prefix_append _ _)
  rw [addedLines, if_neg hdelay, if_neg hend, if_pos hstarts, List.drop_left]

theorem addedLines_echoed (contents rest : List Text) :
    addedLines path false
        (contents.map (fun line => echoOpening path ++ Quoting.batchEcho line) ++ rest) =
      (addedLines path false rest).map (contents ++ ·) := by
  induction contents with
  | nil => simp
  | cons line others ih =>
    rw [List.map_cons, List.cons_append, addedLines_echo, ih]
    simp only [Bool.false_eq_true, if_false, Quoting.readEcho_batchEcho]
    cases addedLines path false rest <;> rfl

theorem addedLines_delayed (contents rest : List Text) :
    addedLines path true (contents.map (fun line => echoOpening path ++ line) ++ rest) =
      (addedLines path true rest).map (contents ++ ·) := by
  induction contents with
  | nil => simp
  | cons line others ih =>
    rw [List.map_cons, List.cons_append, addedLines_echo, ih]
    cases addedLines path true rest <;> rfl

theorem addedLines_other {command : Text} (first : Char) (rest : List Text)
    (hhead : command.head? = some first) (hfirst : first ∉ ['>', 's', 'e']) :
    addedLines path delayed (command :: rest) = addedLines path delayed rest := by
  have hdelay : command ≠ delayExpansion := by
    rintro rfl
    obtain rfl := Option.some.inj (head?_delayExpansion.symm.trans hhead)
    exact hfirst (by decide)
  have hend : command ≠ endDelay := by
    rintro rfl
    obtain rfl := Option.some.inj (head?_endDelay.symm.trans hhead)
    exact hfirst (by decide)
  have hecho : ¬(echoOpening path).isPrefixOf command = true := by
    rw [List.isPrefixOf_iff_prefix]
    rintro ⟨argument, rfl⟩
    obtain rfl := Option.some.inj ((head?_echoOpening path argument).symm.trans hhead)
    exact hfirst (by decide)
  rw [addedLines, if_neg hdelay, if_neg hend, if_neg hecho]

end AddedLines

def exportCommands (path : Text) (names : List Text) : List Text :=
  if names = [] then []
  else
    delayExpansion :: names.map (fun name => echoOpening path ++ exportAssignment name) ++ [endDelay]

def windowsCommandLines (script : RunScript) : List Text :=
  let path := script.path .windows
  ["if not exist \"" ++ script.directory ++ "\" md \"" ++ script.directory ++ "\"",
    "del /F /Q \"" ++ path ++ "\" 2>NUL"] ++
    (script.windowsOpening.map (fun line => echoOpening path ++ Quoting.batchEcho line) ++
      (exportCommands path (exportedNames script.exports) ++
        script.windowsClosing.map (fun line => echoOpening path ++ Quoting.batchEcho line)))

theorem flatMap_appendLine (path : Text) (contents : List Text) :
    contents.flatMap (appendLine path) =
      Family.windows.block (contents.map fun line => echoOpening path ++ Quoting.batchEcho line) := by
  rw [Family.block, List.flatMap_map]
  rfl

theorem windowsExports_eq_block (path : Text) (names : List Text) :
    windowsExports path names = Family.windows.block (exportCommands path names) := by
  rw [windowsExports, exportCommands]
  split
  · rfl
  · have hnames : names.flatMap (windowsExport path) =
        Family.windows.block (names.map fun name => echoOpening path ++ exportAssignment name) := by
      rw [Family.block, List.flatMap_map]
      rfl
    rw [Family.block_append, Family.block_cons, hnames]
    rfl

theorem windowsCommands_eq_block (script : RunScript) :
    script.windowsCommands = Family.windows.block script.windowsCommandLines := by
  simp only [windowsCommands, windowsCommandLines, flatMap_appendLine, windowsExports_eq_block,
    Family.block_append, List.append_assoc]

theorem addedLines_exportCommands (path : Text) (names rest : List Text) :
    addedLines path false (exportCommands path names ++ rest) =
      (addedLines path false rest).map (names.map exportAssignment ++ ·) := by
  rw [exportCommands]
  split
  · next hnames => simp [hnames]
  · have hsplit : names.map (fun name => echoOpening path ++ exportAssignment name) =
        (names.map exportAssignment).map (echoOpening path ++ ·) := by
      rw [List.map_map]
      rfl
    have hend : addedLines path true (endDelay :: rest) = addedLines path false rest := by
      rw [addedLines, if_neg (mt (congrArg List.head?) (by decide)), if_pos rfl]
    rw [List.append_assoc, List.cons_append, addedLines, if_pos rfl, hsplit, addedLines_delayed,
      List.singleton_append, hend]

/-- The commands add the lines of the opening, the exports and the closing, as they are. -/
theorem addedLines_windowsCommandLines (script : RunScript) :
    addedLines (script.path .windows) false script.windowsCommandLines =
      some (script.windowsOpening ++
        ((exportedNames script.exports).map exportAssignment ++ script.windowsClosing)) := by
  have hclosing : addedLines (script.path .windows) false
      (script.windowsClosing.map fun line =>
        echoOpening (script.path .windows) ++ Quoting.batchEcho line) =
      some script.windowsClosing := by
    rw [← List.append_nil (script.windowsClosing.map _), addedLines_echoed]
    simp [addedLines]
  simp only [windowsCommandLines, List.cons_append, List.nil_append]
  rw [addedLines_other 'i' _ rfl (by decide), addedLines_other 'd' _ rfl (by decide),
    addedLines_echoed, addedLines_exportCommands, hclosing]
  rfl

/-! ### The file -/

theorem lf_not_mem_pathIn {directory instanceName : Text} (hdirectory : '\n' ∉ directory)
    (hname : '\n' ∉ instanceName) : '\n' ∉ pathIn directory instanceName .windows := by
  unfold pathIn
  simp only [List.mem_append, not_or]
  exact ⟨⟨⟨⟨hdirectory, by decide⟩, hname⟩, by decide⟩, by decide⟩

theorem lf_not_mem_windowsOpening {script : RunScript} (hname : '\n' ∉ script.instanceName) :
    ∀ line ∈ script.windowsOpening, '\n' ∉ line := by
  refine List.forall_mem_append.mpr ⟨Text.not_mem_lines _, ?_⟩
  simp only [List.forall_mem_singleton, List.mem_append, not_or]
  exact ⟨⟨⟨by decide, by decide⟩, by decide⟩, hname⟩

theorem lf_not_mem_windowsClosing {script : RunScript} (hdirectory : '\n' ∉ script.directory) :
    ∀ line ∈ script.windowsClosing, '\n' ∉ line := by
  simp only [windowsClosing, List.forall_mem_append]
  refine ⟨⟨⟨?_, Text.not_mem_lines _⟩, Text.not_mem_lines _⟩, Text.not_mem_lines _⟩
  simp only [List.forall_mem_singleton, List.mem_append, not_or]
  exact ⟨⟨by decide, hdirectory⟩, by decide⟩

theorem lf_not_mem_echoOpening {path : Text} (hpath : '\n' ∉ path) : '\n' ∉ echoOpening path := by
  unfold echoOpening
  simp only [List.mem_append, not_or]
  exact ⟨⟨by decide, hpath⟩, by decide⟩

theorem lf_not_mem_exportAssignment {name : Text} (hname : '\n' ∉ name) :
    '\n' ∉ exportAssignment name := by
  unfold exportAssignment
  simp only [List.mem_append, not_or]
  exact ⟨⟨⟨⟨by decide, hname⟩, by decide⟩, hname⟩, by decide⟩

theorem lf_not_mem_exportCommands {path : Text} {names : List Text} (hpath : '\n' ∉ path)
    (hnames : ∀ name ∈ names, '\n' ∉ name) : ∀ line ∈ exportCommands path names, '\n' ∉ line := by
  by_cases hempty : names = []
  · rw [exportCommands, if_pos hempty]
    exact List.forall_mem_nil _
  · rw [exportCommands, if_neg hempty]
    refine List.forall_mem_append.mpr ⟨List.forall_mem_cons.mpr ⟨by decide, ?_⟩,
      List.forall_mem_singleton.mpr (by decide)⟩
    refine List.forall_mem_map.mpr fun name hname => ?_
    rw [List.mem_append, not_or]
    exact ⟨lf_not_mem_echoOpening hpath, lf_not_mem_exportAssignment (hnames name hname)⟩

theorem lf_not_mem_windowsCommandLines {script : RunScript} (hname : '\n' ∉ script.instanceName)
    (hdirectory : '\n' ∉ script.directory)
    (hexports : ∀ name ∈ exportedNames script.exports, '\n' ∉ name) :
    ∀ line ∈ script.windowsCommandLines, '\n' ∉ line := by
  have hpath : '\n' ∉ script.path .windows := lf_not_mem_pathIn hdirectory hname
  have hechoed {line : Text} (hline : '\n' ∉ line) :
      '\n' ∉ echoOpening (script.path .windows) ++ Quoting.batchEcho line := by
    rw [List.mem_append, not_or]
    exact ⟨lf_not_mem_echoOpening hpath, Quoting.lf_not_mem_batchEcho hline⟩
  simp only [windowsCommandLines, List.forall_mem_append, List.forall_mem_map]
  refine ⟨?_, fun line hline => hechoed (lf_not_mem_windowsOpening hname line hline),
    lf_not_mem_exportCommands hpath hexports,
    fun line hline => hechoed (lf_not_mem_windowsClosing hdirectory line hline)⟩
  simp only [List.forall_mem_cons, List.mem_append, not_or]
  exact ⟨⟨⟨⟨⟨by decide, hdirectory⟩, by decide⟩, hdirectory⟩, by decide⟩,
    ⟨⟨by decide, hpath⟩, by decide⟩, List.forall_mem_nil _⟩

theorem definitions_windows (library : List LibraryFunction) :
    LibraryFunction.definitions library .windows =
      Family.windows.block (library.flatMap LibraryFunction.windowsLines) := by
  rw [Family.block, List.flatMap_assoc]
  rfl

theorem windows_block_lines_definitions (library : List LibraryFunction) :
    Family.windows.block (Text.lines (LibraryFunction.definitions library .windows)) =
      LibraryFunction.definitions library .windows := by
  have hlines : ∀ f : LibraryFunction, ∀ line ∈ f.windowsLines, '\n' ∉ line := by
    intro f
    cases f <;> decide +kernel
  rw [definitions_windows, Text.lines_windows_block]
  intro line hline
  obtain ⟨f, -, hmem⟩ := List.mem_flatMap.mp hline
  exact hlines f line hmem

/-- The lines that the commands add are those of a script that starts on its own, names its instance,
takes the exports over, changes the directory and runs the body. -/
theorem windows_block_file (script : RunScript) (hended : Text.IsEnded script.body)
    (hcrlf : Text.HasCrlfOnly script.body) :
    Family.windows.block (script.windowsOpening ++
        ((exportedNames script.exports).map exportAssignment ++ script.windowsClosing)) =
      Token.beginScript.literal .windows ++ Variable.resetPath .windows ++
        Family.windows.line ("set " ++ instanceNameVariable ++ "=" ++ script.instanceName) ++
        Family.windows.block ((exportedNames script.exports).map exportAssignment) ++
        Family.windows.line ("cd /d \"" ++ script.directory ++ "\"") ++ script.body ++
        Token.endScript.literal .windows ++ LibraryFunction.definitions script.library .windows := by
  have hbegin : Family.windows.block
      (Text.lines (Token.beginScript.literal .windows ++ Variable.resetPath .windows)) =
      Token.beginScript.literal .windows ++ Variable.resetPath .windows := by decide +kernel
  have hend : Family.windows.block (Text.lines (Token.endScript.literal .windows)) =
      Token.endScript.literal .windows := by decide +kernel
  simp only [windowsOpening, windowsClosing, Family.block_append, Family.block_cons, hbegin, hend,
    Text.windows_block_lines hended hcrlf, windows_block_lines_definitions, List.append_assoc]
  rfl

end RunScript

namespace Statement

/-- The commands written for a run script on Windows add lines that are read back in full, and these
lines are the script's opening, an assignment for each variable that it takes over, the change of the
directory, the body as it was written, the script's end and the library functions that the body
calls. -/
theorem addedLines_of_render_runScript {instanceName workingDirectory text : Text}
    {exports : List Text} {body : Statement}
    (h : render .windows (.runScript instanceName exports workingDirectory body) = .ok text)
    (hname : '\n' ∉ instanceName)
    (hdirectory : ∀ directory, Template.expand .windows workingDirectory = .ok directory →
      '\n' ∉ directory)
    (hexports : ∀ key ∈ exports, '\n' ∉ Variable.exportedName key)
    (hbody : ∀ written, render .windows (.exitInsteadOfReturn body) = .ok written →
      Text.HasCrlfOnly written) :
    ∃ directory written library names lines,
      Template.expand .windows workingDirectory = .ok directory ∧
      render .windows (.exitInsteadOfReturn body) = .ok written ∧
      LibraryFunction.resolve .windows [] (body.dependencies .windows).names = .ok library ∧
      RunScript.IsExportList exports names ∧
      RunScript.addedLines (RunScript.pathIn directory instanceName .windows) false
        (Text.lines text) = some lines ∧
      Family.windows.block lines =
        Token.beginScript.literal .windows ++ Variable.resetPath .windows ++
          Family.windows.line ("set " ++ instanceNameVariable ++ "=" ++ instanceName) ++
          Family.windows.block (names.map RunScript.exportAssignment) ++
          Family.windows.line ("cd /d \"" ++ directory ++ "\"") ++ written ++
          Token.endScript.literal .windows ++
          Family.windows.block (library.flatMap LibraryFunction.windowsLines) := by
  obtain ⟨directory, written, library, hexpand, hwritten, hlibrary, rfl⟩ :=
    render_runScript_eq_ok.mp h
  let script : RunScript := ⟨instanceName, exports, directory, library, written⟩
  have hlist := RunScript.isExportList_exportedNames exports
  have hnames : ∀ name ∈ RunScript.exportedNames exports, '\n' ∉ name := by
    intro name hmem
    obtain ⟨-, key, hkey, rfl⟩ := (hlist.1 name).mp hmem
    exact hexports key hkey
  have hlines : Text.lines (script.commands .windows) = script.windowsCommandLines := by
    rw [RunScript.commands, RunScript.windowsCommands_eq_block, Text.lines_windows_block]
    exact RunScript.lf_not_mem_windowsCommandLines hname (hdirectory directory hexpand) hnames
  have hadded := RunScript.addedLines_windowsCommandLines script
  have hfile := RunScript.windows_block_file script (isEnded_of_render hwritten)
    (hbody written hwritten)
  rw [← hlines] at hadded
  rw [RunScript.definitions_windows] at hfile
  exact ⟨directory, written, library, _, _, hexpand, hwritten, hlibrary, hlist, hadded, hfile⟩

/-- A body that holds every character with a meaning, an open quote, a call, and the writing of
another run script. -/
def nestedBody : Statement :=
  .list [.interpret ["echo 100% \"^<a", "(b & c | d) ^> e"], .call "abort" ["down"],
    .runScript "inner" [] "{temp}" (.interpret ["echo %1 ^& \"x"])]

def nestedLines : List Text := [
  "@echo off",
  "set PATH=c:\\windows\\;C:\\windows\\system32;c:\\windows\\system32\\wbem",
  "set INSTANCE_NAME=web",
  "set \"LOG_DIR=!LOG_DIR!\"",
  "set \"X=!X!\"",
  "cd /d \"%TEMP%\"",
  "echo 100% \"^<a",
  "(b & c | d) ^> e",
  "call :abort down",
  "if not exist \"%TEMP%\" md \"%TEMP%\"",
  "del /F /Q \"%TEMP%\\inner.cmd\" 2>NUL",
  ">>\"%TEMP%\\inner.cmd\" echo(@echo off",
  (">>\"%TEMP%\\inner.cmd\" echo(set PATH=c:\\windows\\;C:\\windows\\system32;" : Text) ++
    "c:\\windows\\system32\\wbem",
  ">>\"%TEMP%\\inner.cmd\" echo(set INSTANCE_NAME=inner",
  ">>\"%TEMP%\\inner.cmd\" echo(cd /d \"%%TEMP%%\"",
  ">>\"%TEMP%\\inner.cmd\" echo(echo %%1 ^^^& \"x",
  ">>\"%TEMP%\\inner.cmd\" echo(exit /b %%ERRORLEVEL%%",
  "exit /b %ERRORLEVEL%",
  ":abort",
  "   >&2 echo aborting: %~1",
  "   exit /b 1"]

theorem addedLines_of_render_nestedBody :
    ∃ text written library names,
      render .windows (.runScript "web" ["logDir", "x", "LOG_DIR"] "{temp}" nestedBody) = .ok text ∧
      render .windows (.exitInsteadOfReturn nestedBody) = .ok written ∧
      LibraryFunction.resolve .windows [] (nestedBody.dependencies .windows).names = .ok library ∧
      RunScript.IsExportList ["logDir", "x", "LOG_DIR"] names ∧
      RunScript.addedLines (RunScript.pathIn "%TEMP%" "web" .windows) false (Text.lines text) =
        some nestedLines ∧
      Family.windows.block nestedLines =
        Token.beginScript.literal .windows ++ Variable.resetPath .windows ++
          Family.windows.line ("set " ++ instanceNameVariable ++ "=" ++ "web") ++
          Family.windows.block (names.map RunScript.exportAssignment) ++
          Family.windows.line ("cd /d \"" ++ "%TEMP%" ++ "\"") ++ written ++
          Token.endScript.literal .windows ++
          Family.windows.block (library.flatMap LibraryFunction.windowsLines) := by
  have hrenders : (render .windows
      (.runScript "web" ["logDir", "x", "LOG_DIR"] "{temp}" nestedBody)).map (fun text =>
        decide (RunScript.addedLines (RunScript.pathIn "%TEMP%" "web" .windows) false
          (Text.lines text) = some nestedLines)) = .ok true := by decide +kernel
  obtain ⟨text, htext, hread⟩ := map_eq_ok.mp hrenders
  have hexpand : Template.expand .windows "{temp}" = .ok "%TEMP%" := by decide +kernel
  have hblock : (render .windows (.exitInsteadOfReturn nestedBody)).map
      (fun written => decide (Family.windows.block (Text.lines written) = written)) = .ok true := by
    decide +kernel
  obtain ⟨directory, written, library, names, lines, hdirectory, hwritten, hlibrary, hnames, hadded,
      hfile⟩ :=
    addedLines_of_render_runScript htext (by decide)
      (by
        intro directory hdirectory
        obtain rfl := Except.ok.inj (hexpand.symm.trans hdirectory)
        decide)
      (by decide)
      (by
        intro written hwritten
        obtain ⟨_, hrender, hsame⟩ := map_eq_ok.mp hblock
        obtain rfl := Except.ok.inj (hrender.symm.trans hwritten)
        exact (Text.windows_block_lines_iff.mp (of_decide_eq_true hsame)).2)
  obtain rfl := Except.ok.inj (hexpand.symm.trans hdirectory)
  obtain rfl := Option.some.inj (hadded.symm.trans (of_decide_eq_true hread))
  exact ⟨text, written, library, names, htext, hwritten, hlibrary, hnames, hadded, hfile⟩

end Statement

end DualShell
