import DualShell.Proofs.CarriedExports
import DualShell.Proofs.ExitForReturn
import DualShell.Proofs.SelfSufficiency

/-!
What the control script of an instance consists of on Unix, from its first line to its last: lines of the
frame, which are the same for all instances but for the name and the exports, the functions, the call of
the instance's own scope, and the lines that its statements are written as.
-/

namespace DualShell

open Passes

namespace Statement

/-- On Unix the commands that capture an exit status all stand in front of the body. -/
theorem render_exitInsteadOfReturn_capture {logDirectory text : Text} {body : Statement}
    (h : render .unix (.exitInsteadOfReturn (.capture logDirectory body)) = .ok text) :
    ∃ directory written, Template.expand .unix logDirectory = .ok directory ∧
      render .unix (.exitInsteadOfReturn body) = .ok written ∧
      text = exitForReturn .unix (Capture.commands directory [] .unix) ++ written := by
  simp only [render, map_eq_ok, bind_eq_ok, pure_eq_ok] at h
  obtain ⟨_, ⟨directory, hdirectory, written, hwritten, rfl⟩, rfl⟩ := h
  refine ⟨directory, _, hdirectory, map_eq_ok.mpr ⟨written, hwritten, rfl⟩, ?_⟩
  have hcommands : Capture.commands directory written .unix =
      Capture.commands directory [] .unix ++ written := by
    simp only [Capture.commands, List.append_nil]
  have hended : Text.IsEnded (Capture.commands directory [] .unix) := by
    rw [Capture.commands, List.append_nil]
    exact Text.isEnded_block .unix _
  rw [hcommands, exitForReturn_append .unix hended]

end Statement

namespace Instance

/-- What the lines of a control script stem from. -/
inductive Origin where
  | frame
  | functions
  | ownCall
  | statements
  deriving DecidableEq

structure Block where
  origin : Origin
  text : Text

/-- What is written for an instance on Unix before its control script is put together. -/
structure Parts where
  scopes : List Definition
  embedded : List LibraryFunction
  initial : Text
  library : List LibraryFunction
  run : Text
  others : List Dispatch.Arm

def homePath : Text := Variable.reference homeVariable .unix

def logPath : Text := Variable.reference logDirectoryVariable .unix

/-- Where the run script is written to. -/
def scriptPath (i : Instance) : Text := RunScript.pathIn homePath i.name .unix

/-- The lines ahead of the functions. -/
def header : Text :=
  Token.beginScript.literal .unix ++ Variable.unsetSection ScriptPlan.defaultUnset .unix

/-- The lines between the functions and the call of the instance's own scope. -/
def initOpening : Text :=
  Variable.resetPath .unix ++
    Family.unix.block ["case $1 in", "init)", InstanceDraft.defaultScopeName]

/-- The lines from the statements of `init` to the body of the run script. -/
def fileOpening (i : Instance) (library : List LibraryFunction) : Text :=
  RunScript.openingCommands i.name homePath (i.exports.keys ++ defaultKeys) .unix ++
    (Family.unix.line (RunScript.documentCommand ">>" i.scriptPath) ++
      (LibraryFunction.definitions library .unix ++
        (Family.unix.line ("cd \"" ++ homePath ++ "\"") ++ Capture.commands logPath [] .unix)))

/-- The lines that follow the body of the run script. -/
def fileClosing (i : Instance) : Text :=
  Family.unix.line RunScript.documentEnd ++
    Family.unix.line ("chmod u+x \"" ++ i.scriptPath ++ "\"")

/-- The lines from the end of the run script on. -/
def closing (i : Instance) (others : List Dispatch.Arm) : Text :=
  i.fileClosing ++ (Family.unix.line "   ;;" ++ (others.flatMap (Dispatch.unixArm Quoting.shellWord) ++
    (Family.unix.line "esac" ++ Token.endScript.literal .unix)))

def blocks (i : Instance) (parts : Parts) : List Block := [
  ⟨.frame, header⟩,
  ⟨.functions, (ScriptPlan.definitions .unix parts.scopes parts.embedded).flatMap (·.text)⟩,
  ⟨.frame, initOpening⟩,
  ⟨.ownCall, invocationLine i.ownScope.label [] .unix⟩,
  ⟨.statements, parts.initial⟩,
  ⟨.frame, i.fileOpening parts.library⟩,
  ⟨.statements, parts.run⟩,
  ⟨.frame, i.closing parts.others⟩]

theorem isEnded_header : Text.IsEnded header :=
  (Text.isEnded_block .unix _).append (Text.isEnded_block .unix _)

theorem isEnded_initOpening : Text.IsEnded initOpening :=
  (Text.isEnded_line .unix _).append (Text.isEnded_block .unix _)

theorem isEnded_definitions {scopes : List Scope} {definitions : List Definition}
    (h : traverse (Scope.toDefinition .unix) scopes = .ok definitions)
    (embedded : List LibraryFunction) :
    Text.IsEnded ((ScriptPlan.definitions .unix definitions embedded).flatMap (·.text)) := by
  have hlibrary (f : LibraryFunction) : Text.IsEnded (f.toDefinition .unix).text :=
    Text.isEnded_block .unix f.unixLines
  have hscopes : ∀ d ∈ definitions, Text.IsEnded d.text := by
    intro d hd
    obtain ⟨scope, -, hscope⟩ := (mem_of_traverse_eq_ok h).mp hd
    obtain ⟨body, -, rfl⟩ := Scope.toDefinition_eq_ok.mp hscope
    exact (endsLine_functionDefinition scope.name body .unix).isEnded
  refine Text.isEnded_flatMap fun d hd => ?_
  rcases List.mem_append.mp hd with hd | hd
  · rcases List.mem_cons.mp hd with rfl | hd
    · exact hlibrary .abort
    · exact hscopes d hd
  · obtain ⟨f, -, rfl⟩ := List.mem_map.mp hd
    exact hlibrary f

theorem isEnded_openingCommands (instanceName directory : Text) (exports : List Text) :
    Text.IsEnded (RunScript.openingCommands instanceName directory exports .unix) := by
  have hexport (name : Text) :
      Text.IsEnded (RunScript.unixExport (RunScript.pathIn directory instanceName .unix) name) :=
    Text.isEnded_block .unix _
  exact ((Text.isEnded_line .unix _).append (Text.isEnded_append_line _ .unix _)).append
    (Text.isEnded_flatMap fun name _ => hexport name)

theorem isEnded_libraryDefinitions (library : List LibraryFunction) :
    Text.IsEnded (LibraryFunction.definitions library .unix) :=
  Text.isEnded_flatMap fun f _ => Text.isEnded_block .unix f.unixLines

theorem isEnded_fileOpening (i : Instance) (library : List LibraryFunction) :
    Text.IsEnded (i.fileOpening library) := by
  have hcapture : Text.IsEnded (Capture.commands logPath [] .unix) :=
    (Capture.endsLine_commands logPath (Or.inl rfl)).isEnded
  exact (isEnded_openingCommands i.name homePath _).append ((Text.isEnded_line .unix _).append
    ((isEnded_libraryDefinitions library).append ((Text.isEnded_line .unix _).append hcapture)))

theorem isEnded_closing (i : Instance) (others : List Dispatch.Arm) :
    Text.IsEnded (i.closing others) := by
  have hothers : Text.IsEnded (others.flatMap (Dispatch.unixArm Quoting.shellWord)) :=
    Text.isEnded_flatMap fun _ _ => Text.isEnded_append_line _ .unix _
  exact ((Text.isEnded_line .unix _).append (Text.isEnded_line .unix _)).append
    ((Text.isEnded_line .unix _).append (hothers.append
      ((Text.isEnded_line .unix _).append (Text.isEnded_line .unix _))))

/-- Whether the control script of an instance is put together from these parts, which are all written as
the instance has them, and no line runs from one block into the next. -/
structure Consists (i : Instance) (script : Script) (parts : Parts) : Prop where
  scopes : traverse (Scope.toDefinition .unix) [i.defaultScope, i.ownScope] = .ok parts.scopes
  functions :
    script.functions = (ScriptPlan.definitions .unix parts.scopes parts.embedded).map (·.label)
  initial : Statement.renderItems .unix i.init = .ok parts.initial
  library :
    LibraryFunction.resolve .unix [] (Statement.dependencies .unix (.list i.run)).names =
      .ok parts.library
  run : Statement.render .unix (.exitInsteadOfReturn (.list i.run)) = .ok parts.run
  others : Statement.renderCases .unix (Action.all.tail.map i.actionCase) = .ok parts.others
  text : script.text = (i.blocks parts).flatMap (·.text)
  ended : ∀ block ∈ i.blocks parts, Text.IsEnded block.text

/-- The commands for the run script of an instance, around its body. -/
theorem render_runScript_eq {i : Instance} {text : Text}
    (h : Statement.render .unix i.runScript = .ok text) :
    ∃ library run,
      LibraryFunction.resolve .unix [] (Statement.dependencies .unix (.list i.run)).names =
        .ok library ∧
      Statement.render .unix (.exitInsteadOfReturn (.list i.run)) = .ok run ∧
      text = i.fileOpening library ++ (run ++ i.fileClosing) := by
  obtain ⟨directory, written, library, hdirectory, hwritten, hlibrary, rfl⟩ :=
    Statement.render_runScript_eq_ok.mp h
  have hhome : Template.expand .unix homeReference = .ok homePath := expand_homeReference .unix
  obtain rfl : homePath = directory := Except.ok.inj (hhome.symm.trans hdirectory)
  obtain ⟨log, run, hlog, hrun, rfl⟩ := Statement.render_exitInsteadOfReturn_capture hwritten
  have hlogPath : Template.expand .unix logDirectoryReference = .ok logPath := by decide
  obtain rfl : logPath = log := Except.ok.inj (hlogPath.symm.trans hlog)
  have hpreamble : Statement.exitForReturn .unix (Capture.commands logPath [] .unix) =
      Capture.commands logPath [] .unix := by decide
  refine ⟨library, run, hlibrary, hrun, ?_⟩
  have hregroup (opening command library directory preamble body last mode : Text) :
      opening ++ (command ++ (library ++ directory ++ (preamble ++ body)) ++ last ++ mode) =
        opening ++ (command ++ (library ++ (directory ++ preamble))) ++ (body ++ (last ++ mode)) := by
    simp only [List.append_assoc]
  rw [RunScript.commands_eq (Statement.isEnded_of_render hwritten), RunScript.closingCommands,
    RunScript.hereDocument, hpreamble]
  exact hregroup _ _ _ _ _ _ _ _

/-- What the arm of `init` holds. -/
theorem render_init_eq {i : Instance} {arm : Text}
    (h : Statement.render .unix (i.actionCase .init).2 = .ok arm) :
    ∃ initial library run, Statement.renderItems .unix i.init = .ok initial ∧
      LibraryFunction.resolve .unix [] (Statement.dependencies .unix (.list i.run)).names =
        .ok library ∧
      Statement.render .unix (.exitInsteadOfReturn (.list i.run)) = .ok run ∧
      arm = Family.unix.line InstanceDraft.defaultScopeName ++
        (invocationLine i.ownScope.label [] .unix ++
          (initial ++ (i.fileOpening library ++ (run ++ i.fileClosing)))) := by
  obtain ⟨initial, written, hinitial, hwritten, rfl⟩ := i.exists_parts_of_render_init h
  obtain ⟨library, run, hlibrary, hrun, rfl⟩ := render_runScript_eq hwritten
  exact ⟨initial, library, run, hinitial, hlibrary, hrun, rfl⟩

theorem exists_consists {i : Instance} {script : Script} (h : i.build .unix = .ok script) :
    ∃ parts, i.Consists script parts := by
  obtain ⟨plan, hplan, hscopes, hunset, hstatements, hswitch⟩ := i.exists_plan
  rw [build_eq_build_plan hplan, ScriptPlan.build_eq_ok, ScriptPlan.write_eq_ok] at h
  obtain ⟨embedded, scopes, body, -, hdefinitions, hbody, rfl⟩ := h
  rw [hscopes] at hdefinitions
  have hplanBody : plan.body = [.switch Switch.defaultSubject (Action.all.map i.actionCase)] := by
    rw [ScriptPlan.body, hstatements, hswitch, ← entries_dispatch]
    rfl
  rw [hplanBody, Statement.renderItems_eq, Text.collect] at hbody
  simp only [map_eq_ok, traverse_cons_eq_ok] at hbody
  obtain ⟨_, ⟨table, _, htable, hnone, rfl⟩, rfl⟩ := hbody
  obtain rfl := Except.ok.inj hnone
  obtain ⟨arms, harms, rfl⟩ := map_eq_ok.mp htable
  have hcases : Action.all.map i.actionCase =
      i.actionCase .init :: Action.all.tail.map i.actionCase := rfl
  rw [hcases, Statement.renderCases_eq, traverse_cons_eq_ok] at harms
  obtain ⟨first, others, hfirst, hothers, rfl⟩ := harms
  obtain ⟨arm, harm, rfl⟩ := map_eq_ok.mp hfirst
  obtain ⟨initial, library, run, hinitial, hlibrary, hrun, rfl⟩ := render_init_eq harm
  rw [← Statement.renderCases_eq] at hothers
  refine ⟨⟨scopes, embedded, initial, library, run, others⟩, hdefinitions, rfl, hinitial, hlibrary,
    hrun, hothers, ?_, ?_⟩
  · have hregroup (shebang unset functions path subject arm call own initial opening run closing stop
        others esac exit : Text) :
        shebang ++ unset ++ [] ++ functions ++ [] ++ path ++
            (subject ++ (arm ++ (call ++ (own ++ (initial ++ (opening ++ (run ++ closing))))) ++ stop ++
              others) ++ esac ++ []) ++ exit =
          shebang ++ unset ++ (functions ++ (path ++ (subject ++ (arm ++ (call ++ []))) ++ (own ++
            (initial ++ (opening ++ (run ++ (closing ++ (stop ++ (others ++ (esac ++ exit))) ++
              []))))))) := by
      simp only [List.append_assoc, List.append_nil]
    rw [ScriptPlan.assemble, hunset]
    exact hregroup _ _ _ _ _ _ _ _ _ _ _ _ _ _ _ _
  · simp only [blocks, List.forall_mem_cons, List.not_mem_nil, IsEmpty.forall_iff, implies_true,
      and_true]
    exact ⟨isEnded_header, isEnded_definitions hdefinitions embedded, isEnded_initOpening,
      Text.isEnded_line .unix _, Statement.isEnded_of_render (s := .list i.init) hinitial,
      i.isEnded_fileOpening library, Statement.isEnded_of_render hrun, i.isEnded_closing others⟩

end Instance

end DualShell
