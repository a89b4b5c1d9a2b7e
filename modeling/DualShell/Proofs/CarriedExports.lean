import DualShell.Proofs.EchoedLines
import DualShell.Proofs.RunScriptDocuments
import DualShell.Proofs.RunScriptPath

/-!
The variables that a run script takes over from the script that writes it, read off the commands that
write it. On Unix a value is taken into a variable of its own and added from there; on Windows a line adds
an assignment while expansion is delayed. Keys that stand for one variable are taken over once, and for an
instance every variable that is taken over is one that a scope called before has assigned.
-/

namespace DualShell

open Passes ShellReading

/-- What stands between an opening and a closing. -/
def Text.between? (opening closing t : Text) : Option Text :=
  (t.dropPrefix? opening).bind fun rest => rest.dropSuffix? closing

theorem Text.between?_eq_some {opening closing t inner : Text} :
    between? opening closing t = some inner ↔ t = opening ++ (inner ++ closing) := by
  simp only [between?, Option.bind_eq_some_iff, List.dropPrefix?_eq_some_iff,
    List.dropSuffix?_eq_some_iff, beq_iff_eq]
  constructor
  · rintro ⟨_, ⟨_, rfl, rfl⟩, _, rfl, rfl⟩
    rfl
  · rintro rfl
    exact ⟨_, ⟨_, rfl, rfl⟩, _, rfl, rfl⟩

theorem Text.between?_eq_none {opening closing t : Text} {c d : Char} (hopening : opening.head? = some c)
    (ht : t.head? = some d) (hne : d ≠ c) : between? opening closing t = none := by
  cases h : between? opening closing t with
  | none => rfl
  | some inner =>
    rw [between?_eq_some.mp h, List.head?_append, hopening] at ht
    exact absurd (Option.some.inj ht).symm hne

namespace RunScript

/-- The commands that write a run script, each with the text that it takes up. -/
def commandTexts (script : RunScript) : Family → List Text
  | .unix => script.unixItems.map Item.source
  | .windows => script.windowsCommandLines.map Family.windows.line

theorem commands_eq_flatten (script : RunScript) (family : Family) :
    script.commands family = (script.commandTexts family).flatten := by
  cases family with
  | unix => exact (unixCommands_eq_source script).trans List.flatMap_def
  | windows => exact (windowsCommands_eq_block script).trans List.flatMap_def

/-! ### Unix -/

def holdOpening : Text := valueVariable ++ "=$(printf '%s' \"$"

def holdClosing : Text := "\" | sed \"s/'/'\\\\\\\\''/g\")\n"

def addOpening : Text := "printf \"export "

def addClosing (path : Text) : Text :=
  "='%s'\\n\" \"$" ++ valueVariable ++ "\" >> \"" ++ path ++ "\"\n"

/-- The names of the variables that commands take over into the file at a path. A command that adds an
assignment takes the variable over if the value held at that moment is the one of this variable. -/
def unixCarried (path : Text) : Option Text → List Text → List Text
  | _, [] => []
  | held, command :: rest =>
    match Text.between? holdOpening holdClosing command with
    | some name => unixCarried path (some name) rest
    | none =>
      match Text.between? addOpening (addClosing path) command with
      | some name => (if held = some name then [name] else []) ++ unixCarried path held rest
      | none => unixCarried path held rest

section UnixCarried

variable {path : Text} {held : Option Text}

theorem head?_holdOpening : holdOpening.head? = some 'S' := rfl

theorem head?_addOpening : addOpening.head? = some 'p' := rfl

theorem unixCarried_other {command : Text} {first : Char} (rest : List Text)
    (hhead : command.head? = some first) (hfirst : first ∉ ['S', 'p']) :
    unixCarried path held (command :: rest) = unixCarried path held rest := by
  have hhold : Text.between? holdOpening holdClosing command = none :=
    Text.between?_eq_none head?_holdOpening hhead (by grind)
  have hadd : Text.between? addOpening (addClosing path) command = none :=
    Text.between?_eq_none head?_addOpening hhead (by grind)
  rw [unixCarried, hhold, hadd]

/-- The two commands for a variable take it over, whatever is held before. -/
theorem unixCarried_exportItems (name : Text) (rest : List Text) :
    unixCarried path held ((exportItems path name).map Item.source ++ rest) =
      name :: unixCarried path (some name) rest := by
  have hhold : Text.between? holdOpening holdClosing (holdOpening ++ (name ++ holdClosing)) =
      some name := Text.between?_eq_some.mpr rfl
  have hother : Text.between? holdOpening holdClosing (addOpening ++ (name ++ addClosing path)) =
      none := Text.between?_eq_none head?_holdOpening rfl (by decide)
  have hadd : Text.between? addOpening (addClosing path) (addOpening ++ (name ++ addClosing path)) =
      some name := Text.between?_eq_some.mpr rfl
  have hitems : (exportItems path name).map Item.source =
      [holdOpening ++ (name ++ holdClosing), addOpening ++ (name ++ addClosing path)] := by
    have hfirst : Family.unix.line (valueVariable ++ "=$(printf '%s' \"$" ++ name ++
        "\" | sed \"s/'/'\\\\\\\\''/g\")") = holdOpening ++ (name ++ holdClosing) := by
      unfold holdOpening
      simp only [Family.line, List.append_assoc]
      rfl
    have hsecond : Family.unix.line ("printf \"export " ++ name ++ "='%s'\\n\" \"$" ++
        valueVariable ++ "\" >> \"" ++ path ++ "\"") = addOpening ++ (name ++ addClosing path) := by
      unfold addClosing
      simp only [Family.line, List.append_assoc]
      rfl
    unfold exportItems
    rw [List.map_cons, List.map_singleton, source_plain, source_plain, hfirst, hsecond]
  calc
    unixCarried path held ((exportItems path name).map Item.source ++ rest)
      = unixCarried path held
          ((holdOpening ++ (name ++ holdClosing)) :: (addOpening ++ (name ++ addClosing path)) ::
            rest) := by rw [hitems]; rfl
    _ = unixCarried path (some name) ((addOpening ++ (name ++ addClosing path)) :: rest) := by
        rw [unixCarried, hhold]
    _ = name :: unixCarried path (some name) rest := by
        rw [unixCarried, hother, hadd]
        simp

theorem unixCarried_exports (names rest : List Text) (hrest : ∀ held, unixCarried path held rest = []) :
    unixCarried path held ((names.flatMap (exportItems path)).map Item.source ++ rest) = names := by
  induction names generalizing held with
  | nil => exact hrest held
  | cons name others ih =>
    rw [List.flatMap_cons, List.map_append, List.append_assoc, unixCarried_exportItems, ih]

end UnixCarried

theorem unixCarried_unixItems (script : RunScript) :
    unixCarried (script.path .unix) none (script.unixItems.map Item.source) =
      exportedNames script.exports := by
  have hlast : ∀ held, unixCarried (script.path .unix) held
      ([⟨documentCommand ">>" (script.path .unix), [script.unixClosing]⟩,
        ⟨"chmod u+x \"" ++ script.path .unix ++ "\"", []⟩].map Item.source) = [] := by
    intro held
    rw [List.map_cons, unixCarried_other _ rfl (by decide), List.map_singleton,
      unixCarried_other _ rfl (by decide), unixCarried]
  unfold unixItems documentItems
  rw [List.map_append, List.map_append, List.append_assoc, List.map_cons, List.map_singleton,
    List.cons_append, unixCarried_other _ rfl (by decide), List.singleton_append,
    unixCarried_other _ rfl (by decide), unixCarried_exports _ _ hlast]

/-! ### Windows -/

/-- The name of the variable that a command adds an assignment of to the file at a path, the value being
that of the variable itself. -/
def carriedName? (path command : Text) : Option Text := do
  let assignment ← Text.between? (echoOpening path ++ "set \"") "!\"\r\n" command
  let name := assignment.take ((assignment.length - 2) / 2)
  if assignment = name ++ "=!" ++ name then some name else none

/-- The names of the variables that commands take over into the file at a path; `delayed` says whether a
reference is replaced after its command is read. -/
def windowsCarried (path : Text) : Bool → List Text → List Text
  | _, [] => []
  | delayed, command :: rest =>
    if command = Family.windows.line delayExpansion then windowsCarried path true rest
    else if command = Family.windows.line endDelay then windowsCarried path false rest
    else (if delayed then carriedName? path command else none).toList ++
      windowsCarried path delayed rest

section WindowsCarried

variable {path : Text} {delayed : Bool}

theorem carriedName?_exportAssignment (path name : Text) :
    carriedName? path (Family.windows.line (echoOpening path ++ exportAssignment name)) =
      some name := by
  have hbetween : Text.between? (echoOpening path ++ "set \"") "!\"\r\n"
      (Family.windows.line (echoOpening path ++ exportAssignment name)) =
        some (name ++ "=!" ++ name) := by
    rw [Text.between?_eq_some]
    unfold exportAssignment
    simp only [Family.line, List.append_assoc]
    rfl
  -- the name stands on both sides of two characters, so it is half of what is left without them
  have hlength : (name ++ ("=!" : Text) ++ name).length = name.length + 2 + name.length := by
    rw [List.length_append, List.length_append]
    rfl
  have htake : (name ++ ("=!" : Text) ++ name).take (((name ++ ("=!" : Text) ++ name).length - 2) / 2) =
      name := by
    have hhalf : ((name ++ ("=!" : Text) ++ name).length - 2) / 2 = name.length := by
      rw [hlength]
      omega
    rw [hhalf, List.append_assoc, List.take_left]
  rw [carriedName?, hbetween]
  simp only [Option.bind_eq_bind, Option.bind_some, htake, if_true]

/-- A command that is none of those around the exports changes nothing about how the rest is read. -/
theorem windowsCarried_cons {command : Text} {first : Char} (rest : List Text)
    (hhead : command.head? = some first) (hfirst : first ∉ ['s', 'e']) :
    windowsCarried path delayed (command :: rest) =
      (if delayed then carriedName? path command else none).toList ++
        windowsCarried path delayed rest := by
  have hdelay : command ≠ Family.windows.line delayExpansion := by
    rintro rfl
    cases hhead
    exact hfirst (by decide)
  have hend : command ≠ Family.windows.line endDelay := by
    rintro rfl
    cases hhead
    exact hfirst (by decide)
  rw [windowsCarried, if_neg hdelay, if_neg hend]

theorem windowsCarried_echoed (contents rest : List Text) :
    windowsCarried path false
        ((contents.map fun line => echoOpening path ++ Quoting.batchEcho line).map
          Family.windows.line ++ rest) =
      windowsCarried path false rest := by
  induction contents with
  | nil => rfl
  | cons line others ih =>
    rw [List.map_cons, List.map_cons, List.cons_append, windowsCarried_cons _ rfl (by decide), ih]
    rfl

theorem windowsCarried_assignments (names rest : List Text) :
    windowsCarried path true
        ((names.map fun name => echoOpening path ++ exportAssignment name).map
          Family.windows.line ++ rest) =
      names ++ windowsCarried path true rest := by
  induction names with
  | nil => rfl
  | cons name others ih =>
    rw [List.map_cons, List.map_cons, List.cons_append, windowsCarried_cons _ rfl (by decide),
      if_pos rfl, carriedName?_exportAssignment, ih]
    rfl

theorem windowsCarried_exportCommands (names rest : List Text) :
    windowsCarried path false ((exportCommands path names).map Family.windows.line ++ rest) =
      names ++ windowsCarried path false rest := by
  rw [exportCommands]
  split
  · next hnames => rw [hnames]; rfl
  · have hend : windowsCarried path true (Family.windows.line endDelay :: rest) =
        windowsCarried path false rest := by
      rw [windowsCarried, if_neg (by decide), if_pos rfl]
    rw [List.cons_append, List.map_cons, List.map_append, List.cons_append, List.append_assoc,
      windowsCarried, if_pos rfl, windowsCarried_assignments, List.map_singleton,
      List.singleton_append, hend]

end WindowsCarried

theorem windowsCarried_windowsCommandLines (script : RunScript) :
    windowsCarried (script.path .windows) false
        (script.windowsCommandLines.map Family.windows.line) =
      exportedNames script.exports := by
  have hclosing := @windowsCarried_echoed (script.path .windows) script.windowsClosing []
  rw [List.append_nil] at hclosing
  unfold windowsCommandLines
  simp only [List.map_append, List.cons_append, List.nil_append, List.map_cons]
  rw [windowsCarried_cons _ rfl (by decide), windowsCarried_cons _ rfl (by decide),
    windowsCarried_echoed, windowsCarried_exportCommands, hclosing, windowsCarried]
  simp

/-- The names of the variables that the commands of a run script take over. -/
def carried (script : RunScript) : Family → List Text
  | .unix => unixCarried (script.path .unix) none (script.commandTexts .unix)
  | .windows => windowsCarried (script.path .windows) false (script.commandTexts .windows)

theorem carried_eq (script : RunScript) (family : Family) :
    script.carried family = exportedNames script.exports := by
  cases family with
  | unix => exact unixCarried_unixItems script
  | windows => exact windowsCarried_windowsCommandLines script

end RunScript

/-- Whether a statement writes a run script with these parts. -/
inductive Statement.WritesFile (family : Family) : Statement → RunScript → Prop
  | runScript {script : RunScript} {workingDirectory : Text} {body : Statement} :
    Template.expand family workingDirectory = .ok script.directory →
    render family (.exitInsteadOfReturn body) = .ok script.body →
    LibraryFunction.resolve family [] (body.dependencies family).names = .ok script.library →
    WritesFile family (.runScript script.instanceName script.exports workingDirectory body) script

/-- A statement for a run script is written exactly when there is a run script for it to write. -/
theorem Statement.render_runScript_iff {family : Family} {instanceName workingDirectory text : Text}
    {exports : List Text} {body : Statement} :
    render family (.runScript instanceName exports workingDirectory body) = .ok text ↔
      ∃ script, WritesFile family (.runScript instanceName exports workingDirectory body) script ∧
        script.commands family = text := by
  rw [render_runScript_eq_ok]
  constructor
  · rintro ⟨directory, written, library, hdirectory, hwritten, hlibrary, rfl⟩
    let script : RunScript := ⟨instanceName, exports, directory, library, written⟩
    exact ⟨script, @WritesFile.runScript family script _ _ hdirectory hwritten hlibrary, rfl⟩
  · rintro ⟨script, ⟨hdirectory, hwritten, hlibrary⟩, rfl⟩
    exact ⟨_, _, _, hdirectory, hwritten, hlibrary, rfl⟩

theorem Statement.WritesFile.exports_eq {family : Family} {instanceName workingDirectory : Text}
    {exports : List Text} {body : Statement} {script : RunScript}
    (h : WritesFile family (.runScript instanceName exports workingDirectory body) script) :
    script.exports = exports := by
  cases h
  rfl

/-! ### Instances -/

/-- How the assignment of a variable begins. -/
def Variable.assignmentOpening (name : Text) : Family → Text
  | .unix => "export " ++ name ++ "=\""
  | .windows => "set " ++ name ++ "="

theorem Variable.assignmentOpening_prefix (key value : Text) (family : Family) :
    assignmentOpening (exportedName key) family <+: exportLine key value family := by
  cases family with
  | unix =>
    refine ⟨Quoting.doubleQuoted value ++ "\"", ?_⟩
    exact (List.append_assoc _ _ _).symm
  | windows => exact ⟨value, rfl⟩

/-- Whether the function of a scope, when it can be written, assigns the variable with this name. -/
def Scope.AssignsVariable (family : Family) (scope : Scope) (name : Text) : Prop :=
  ∀ definition, scope.render family = .ok definition →
    ∃ lines, definition = functionDefinition scope.name (family.block lines) family ∧
      ∃ line ∈ lines, Variable.assignmentOpening name family <+: line

theorem Scope.assignsVariable_of_mem_keys {scope : Scope} {key : Text} (h : key ∈ scope.assignments.keys)
    (family : Family) : scope.AssignsVariable family (Variable.exportedName key) := by
  intro definition hdefinition
  rw [render_eq_written, map_eq_ok] at hdefinition
  obtain ⟨written, hwritten, rfl⟩ := hdefinition
  rw [← map_fst_written hwritten, List.mem_map] at h
  obtain ⟨a, ha, rfl⟩ := h
  exact ⟨_, rfl, Variable.exportLine a.1 a.2 family, List.mem_map_of_mem ha,
    Variable.assignmentOpening_prefix a.1 a.2 family⟩

namespace Instance

variable {family : Family}

def logDirectoryVariable : Text := "LOG_DIR"

theorem exportedName_defaultKeys :
    defaultKeys.map Variable.exportedName =
      [instanceNameVariable, homeVariable, logDirectoryVariable] := by
  decide

/-- A key of the run script belongs to the scope of the exports or to the default scope. -/
theorem exists_scope_of_mem_keys {i : Instance} {key : Text} (h : key ∈ i.exports.keys ++ defaultKeys) :
    ∃ scope ∈ [i.defaultScope, i.ownScope], key ∈ scope.assignments.keys := by
  rcases List.mem_append.mp h with hown | hdefault
  · exact ⟨i.ownScope, by simp, hown⟩
  · refine ⟨i.defaultScope, by simp, ?_⟩
    have hkeys : i.defaultVariables.keys = defaultKeys := by
      rw [Table.keys, entries_defaultVariables]
      rfl
    exact hkeys ▸ hdefault

/-- What `init` runs: the calls of both scopes, then its statements, then the commands of the run
script. -/
theorem exists_parts_of_render_init {i : Instance} {arm : Text}
    (h : Statement.render family (i.actionCase .init).2 = .ok arm) :
    ∃ initial written, Statement.renderItems family i.init = .ok initial ∧
      Statement.render family i.runScript = .ok written ∧
      arm = invocationLine i.defaultScope.label [] family ++
        (invocationLine i.ownScope.label [] family ++ (initial ++ written)) := by
  have hitems : Statement.renderItems family
      ([.call InstanceDraft.defaultScopeName [], .call i.name []] ++ (i.init ++ [i.runScript])) =
        .ok arm := h
  obtain ⟨calls, others, hcalls, hothers, rfl⟩ := Statement.renderItems_append_eq_ok.mp hitems
  obtain ⟨initial, last, hinitial, hlast, rfl⟩ := Statement.renderItems_append_eq_ok.mp hothers
  have hwritten : calls = invocationLine i.defaultScope.label [] family ++
      (invocationLine i.ownScope.label [] family ++ []) := (Except.ok.inj hcalls).symm
  simp only [Statement.renderItems, bind_eq_ok, pure_eq_ok] at hlast
  obtain ⟨written, hrunScript, _, hnone, rfl⟩ := hlast
  obtain rfl := Except.ok.inj hnone
  exact ⟨initial, written, hinitial, hrunScript, by simp [hwritten]⟩

/-- What the keys of the run script of an instance stand for, apart from the instance's name. -/
theorem exists_key_iff {i : Instance} {name : Text} (h : name ≠ instanceNameVariable) :
    (∃ key ∈ i.exports.keys ++ defaultKeys, Variable.exportedName key = name) ↔
      (∃ key ∈ i.exports.keys, Variable.exportedName key = name) ∨
        name = homeVariable ∨ name = logDirectoryVariable := by
  have hdefault : (∃ key ∈ defaultKeys, Variable.exportedName key = name) ↔
      name = homeVariable ∨ name = logDirectoryVariable := by
    rw [← List.mem_map, exportedName_defaultKeys]
    simp [h]
  simp only [List.mem_append, or_and_right, exists_or, hdefault]

end Instance

/-- The variables that a run script takes over are those that its keys stand for, without the instance's
name: each once, in the order in which they first occur. The run script of an instance takes over what its
exports stand for and the variables of the default scope but that name; the scopes that assign them are
called before the run script is written. -/
theorem RunScript.exports_carried (family : Family) :
    (∀ script : RunScript, script.commands family = (script.commandTexts family).flatten ∧
      IsExportList script.exports (script.carried family)) ∧
    (∀ instanceName exports workingDirectory body text,
      Statement.render family (.runScript instanceName exports workingDirectory body) = .ok text ↔
        ∃ script,
          Statement.WritesFile family (.runScript instanceName exports workingDirectory body) script ∧
          script.commands family = text) ∧
    ∀ i : Instance,
      (∃ plan, i.plan = .ok plan ∧ plan.scopes.scopes = [i.defaultScope, i.ownScope] ∧
        plan.switch = some i.dispatch ∧ i.actionCase .init ∈ i.dispatch.cases.entries) ∧
      (∀ arm, Statement.render family (i.actionCase .init).2 = .ok arm →
        ∃ initial written, Statement.render family i.runScript = .ok written ∧
          arm = invocationLine i.defaultScope.label [] family ++
            (invocationLine i.ownScope.label [] family ++ (initial ++ written))) ∧
      ∀ script, Statement.WritesFile family i.runScript script →
        (∀ name, name ∈ script.carried family ↔ name ≠ instanceNameVariable ∧
          ((∃ key ∈ i.exports.keys, Variable.exportedName key = name) ∨
            name = Instance.homeVariable ∨ name = Instance.logDirectoryVariable)) ∧
        ∀ name ∈ script.carried family, ∃ scope ∈ [i.defaultScope, i.ownScope],
          (∃ key ∈ scope.assignments.keys, Variable.exportedName key = name) ∧
            scope.AssignsVariable family name := by
  have hcarried : ∀ script : RunScript, IsExportList script.exports (script.carried family) := by
    intro script
    rw [carried_eq]
    exact isExportList_exportedNames script.exports
  refine ⟨fun script => ⟨script.commands_eq_flatten family, hcarried script⟩,
    fun _ _ _ _ _ => Statement.render_runScript_iff,
    fun i => ⟨?_, fun arm harm => ?_, fun script hscript => ?_⟩⟩
  · obtain ⟨plan, hplan, hscopes, -, -, hswitch⟩ := i.exists_plan
    refine ⟨plan, hplan, hscopes, hswitch, ?_⟩
    rw [Instance.entries_dispatch]
    exact List.mem_map_of_mem (by decide)
  · obtain ⟨initial, written, -, hparts⟩ := i.exists_parts_of_render_init harm
    exact ⟨initial, written, hparts⟩
  · have hnames := (hcarried script).1
    rw [hscript.exports_eq] at hnames
    refine ⟨fun name => ?_, fun name hname => ?_⟩
    · rw [hnames]
      exact and_congr_right Instance.exists_key_iff
    · obtain ⟨-, key, hkey, rfl⟩ := (hnames name).mp hname
      obtain ⟨scope, hscope, hmem⟩ := Instance.exists_scope_of_mem_keys hkey
      exact ⟨scope, hscope, ⟨key, hmem, rfl⟩, Scope.assignsVariable_of_mem_keys hmem family⟩

/-- An instance whose exports stand for fewer variables than they have keys, two of them for variables of
the default scope. -/
def Instance.collidingInstance : Instance :=
  ⟨{ InstanceDraft.new "web" with
      home := "/srv/a"
      exports := Table.ofList
        [("javaHome", "/jdk"), ("JAVA_HOME", "/jre"), ("instanceHome", "/srv/b"), ("instanceName", "x")]
      run := [.interpret ["echo hi"]] }, by decide⟩

theorem RunScript.exports_carried_collidingInstance :
    ∃ arm script initial written,
      Statement.render .windows (Instance.collidingInstance.actionCase .init).2 = .ok arm ∧
      Statement.render .windows Instance.collidingInstance.runScript = .ok written ∧
      arm = invocationLine "default" [] .windows ++
        (invocationLine "web" [] .windows ++ (initial ++ written)) ∧
      Statement.WritesFile .windows Instance.collidingInstance.runScript script ∧
      IsExportList (Instance.collidingInstance.exports.keys ++ Instance.defaultKeys)
        (script.carried .windows) ∧
      ("JAVA_HOME" : Text) ∈ script.carried .windows ∧
      ∃ scope ∈ [Instance.collidingInstance.defaultScope, Instance.collidingInstance.ownScope],
        (∃ definition, scope.render .windows = .ok definition) ∧
        scope.AssignsVariable .windows "JAVA_HOME" := by
  obtain ⟨hcarried, hstatement, hinstance⟩ := exports_carried .windows
  obtain ⟨-, hinit, hscopes⟩ := hinstance Instance.collidingInstance
  obtain ⟨arm, harm⟩ : ∃ arm,
      Statement.render .windows (Instance.collidingInstance.actionCase .init).2 = .ok arm :=
    exists_eq_ok_iff.mpr (by decide)
  obtain ⟨initial, written, hwritten, hparts⟩ := hinit arm harm
  obtain ⟨script, hscript, -⟩ := (hstatement _ _ _ _ written).mp hwritten
  have hlist := (hcarried script).2
  rw [hscript.exports_eq] at hlist
  obtain ⟨hmem, hassigns⟩ := hscopes script hscript
  have hjava : ("JAVA_HOME" : Text) ∈ script.carried .windows :=
    (hmem "JAVA_HOME").mpr ⟨by decide, Or.inl ⟨"javaHome", by decide, by decide⟩⟩
  have hrenders : ∀ scope ∈ [Instance.collidingInstance.defaultScope,
      Instance.collidingInstance.ownScope], ∃ definition, scope.render .windows = .ok definition := by
    simp only [exists_eq_ok_iff]
    decide
  obtain ⟨scope, hscope, -, hassigned⟩ := hassigns "JAVA_HOME" hjava
  exact ⟨arm, script, initial, written, harm, hwritten, hparts, hscript, hlist, hjava, scope, hscope,
    hrenders scope hscope, hassigned⟩

end DualShell
