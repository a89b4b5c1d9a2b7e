import DualShell.Proofs.ControlScript
import DualShell.Proofs.FirstWords
import DualShell.Proofs.FunctionLabels

/-!
Which commands of a control script the scope of an instance is called in place of. A shell looks a
function up under the first word of a command, and the checks of names keep away the words of the library
and of the default scope only, so that the other words that the frame starts its lines with remain.
-/

namespace DualShell

open Text

variable {word : Text}

/-! ### Words of lines -/

namespace Text

theorem mem_firstWords_block (hword : word ≠ []) (contents : List Text) :
    word ∈ firstWords (Family.unix.block contents) ↔
      ∃ content ∈ contents, word ∈ firstWords content := by
  rw [Family.block, mem_firstWords_flatMap (fun _ _ => isEnded_line .unix _) hword]
  simp only [mem_firstWords_line hword]

/-- Whether a line that starts with a text has a command as its first word, whatever follows. -/
def Opens (command opening : Text) : Prop :=
  command ≠ [] ∧ ' ' ∉ command ∧ '\n' ∉ opening ∧ command ++ [' '] <+: opening

instance (command opening : Text) : Decidable (Opens command opening) :=
  inferInstanceAs (Decidable (_ ∧ _))

theorem Opens.mem_firstWords_iff {command opening : Text} (h : Opens command opening) (t : Text) :
    word ∈ firstWords (opening ++ t) ↔ word = command ∨ word ∈ (firstWords t).tail := by
  obtain ⟨hne, hspace, hlf, rest, rfl⟩ := h
  obtain ⟨hcommand, hrest⟩ := not_or.mp (mt List.mem_append.mpr hlf)
  have hwords : firstWords (command ++ [' '] ++ rest ++ t) = command :: (firstWords (rest ++ t)).tail := by
    rw [List.append_assoc, List.append_assoc]
    exact firstWords_append_space hne hspace (fun hmem => hcommand (List.mem_append_left _ hmem)) _
  rw [hwords, List.mem_cons, tail_firstWords_append hrest]

end Text

theorem Label.length_le_length_ofName (name : Text) : name.length ≤ (ofName name).length := by
  have hlength : (name.map identifierChar).length = name.length := List.length_map identifierChar
  rw [← hlength, ofName]
  split
  · next hmap =>
    rw [hmap]
    exact Nat.zero_le 1
  · next c rest hmap =>
    rw [hmap]
    split
    · exact Nat.le_succ (c :: rest).length
    · exact le_rfl

/-- The words, other than those that the checks of names keep away, that lines of the definition on Unix
start with. -/
def LibraryFunction.commandWords : LibraryFunction → List Text
  | .abort => ["echo", "exit"]
  | .findPid => ["unset", "return", "export"]
  | .forget => ["unset", "return", "mkdir", "echo", "nohup"]

namespace Instance

/-- Whether the checks of names let an instance have this word as its label. -/
def isOpenWord (word : Text) : Bool :=
  Label.ofName word = word && !Scope.isReservedName word &&
    !Label.same word InstanceDraft.defaultScopeName

/-- The open words that lines of a text start with, in the order of their first lines. -/
def openWords (t : Text) : List Text := (distinct (firstWords t)).filter isOpenWord

section Label

variable (i : Instance)

theorem isOpenWord_label : isOpenWord i.ownScope.label = true := by
  have hreserved := i.isUsableName_name.2
  have hdefault := i.upper_label_name_ne
  simp only [isOpenWord, Label.same, Scope.isReservedName_ofName, Label.ofName_ofName, Scope.label,
    ownScope, defaultScope, Bool.and_eq_true, decide_eq_true_eq, Bool.not_eq_true',
    decide_eq_false_iff_not] at hdefault ⊢
  exact ⟨⟨trivial, hreserved⟩, hdefault⟩

theorem isIdentifier_label : Label.IsIdentifier i.ownScope.label := Label.isIdentifier_ofName i.name

theorem label_ne_nil : i.ownScope.label ≠ [] := by
  obtain ⟨-, c, rest, hlabel, -⟩ := i.isIdentifier_label
  rw [hlabel]
  exact List.cons_ne_nil c rest

variable {i}

theorem label_mem_iff {t : Text} {words : List Text} (h : openWords t = words) :
    i.ownScope.label ∈ firstWords t ↔ i.ownScope.label ∈ words := by
  rw [← h, openWords, List.mem_filter, mem_distinct, and_iff_left i.isOpenWord_label]

/-- The label is too long to start a line inside the name. -/
theorem notMem_tail_scriptPath {after : Text} (hafter : '\n' ∉ after) :
    i.ownScope.label ∉ (firstWords (i.scriptPath ++ after)).tail := by
  have hpath : i.scriptPath ++ after = (homePath ++ "/") ++ (i.name ++ '.' :: ("sh" ++ after)) := by
    rw [scriptPath, RunScript.pathIn]
    simp only [List.append_assoc]
    rfl
  have hhome : '\n' ∉ homePath ++ "/" := by decide
  have hrest : '\n' ∉ ("sh" : Text) ++ after := by simpa using hafter
  rw [hpath, tail_firstWords_append hhome,
    mem_tail_firstWords_iff i.isIdentifier_label (by decide) (by decide) (by decide),
    tail_firstWords_of_notMem hrest]
  exact not_or.mpr ⟨notMem_laterWords i.isIdentifier_label (Label.length_le_length_ofName i.name),
    List.not_mem_nil⟩

end Label

/-! ### Blocks of the frame -/

section Frame

variable {i : Instance}

theorem label_mem_append {s : Text} (hs : IsEnded s) (t : Text) :
    i.ownScope.label ∈ firstWords (s ++ t) ↔
      i.ownScope.label ∈ firstWords s ∨ i.ownScope.label ∈ firstWords t :=
  mem_firstWords_append hs i.label_ne_nil t

theorem mem_iff_of_subsets {words others : List Text} (h : ∀ word ∈ words, word ∈ others)
    (hothers : ∀ word ∈ others, word ∈ words) : word ∈ words ↔ word ∈ others :=
  ⟨h word, hothers word⟩

theorem openWords_header : openWords header = ["set", "unset"] := by decide

theorem openWords_initOpening : openWords initOpening = ["export", "case"] := by decide

theorem openWords_documentEnd :
    openWords (Family.unix.line RunScript.documentEnd) = [RunScript.documentEnd] := by
  decide

theorem openWords_definition (f : LibraryFunction) :
    openWords (f.definition .unix) = f.commandWords := by
  cases f <;> decide +kernel

theorem openWords_capture :
    openWords (Family.unix.line ("cd \"" ++ homePath ++ "\"") ++ Capture.commands logPath [] .unix) =
      ["cd", "mkdir", "rm", "trap"] := by
  decide

theorem label_mem_line_path {command opening closing : Text} (hopening : Opens command opening)
    (hclosing : '\n' ∉ closing) :
    i.ownScope.label ∈ firstWords (Family.unix.line (opening ++ (i.scriptPath ++ closing))) ↔
      i.ownScope.label ∈ [command] := by
  rw [mem_firstWords_line i.label_ne_nil, hopening.mem_firstWords_iff,
    or_iff_left (notMem_tail_scriptPath hclosing), List.mem_singleton]

theorem label_mem_documentCommand {redirection : Text}
    (h : Opens "cat" ("cat " ++ redirection ++ " \"")) :
    i.ownScope.label ∈
        firstWords (Family.unix.line (RunScript.documentCommand redirection i.scriptPath)) ↔
      i.ownScope.label ∈ [("cat" : Text)] := by
  have hcommand : RunScript.documentCommand redirection i.scriptPath =
      "cat " ++ redirection ++ " \"" ++
        (i.scriptPath ++ ("\" <<'" ++ (RunScript.documentEnd ++ "'"))) := by
    have hregroup (opening path quote mark last : Text) :
        opening ++ path ++ quote ++ mark ++ last = opening ++ (path ++ (quote ++ (mark ++ last))) := by
      simp only [List.append_assoc]
    exact hregroup _ _ _ _ _
  rw [hcommand]
  exact label_mem_line_path h (by decide)

/-- Where the name of a variable stands in a line, only a line feed in the name lets another word than the
command of the line start a line. -/
theorem label_mem_around {command opening : Text} (c : Char) (hopening : Opens command opening)
    (hc : isWordChar c = false ∧ c ≠ ' ' ∧ c ≠ '\n') (name rest : Text) :
    i.ownScope.label ∈ firstWords (opening ++ (name ++ c :: rest)) ↔
      i.ownScope.label = command ∨ i.ownScope.label ∈ laterWords name ∨
        i.ownScope.label ∈ (firstWords rest).tail := by
  rw [hopening.mem_firstWords_iff, mem_tail_firstWords_iff i.isIdentifier_label hc.1 hc.2.1 hc.2.2]

theorem label_ne_of_isOpenWord {other : Text} (h : isOpenWord other = false) :
    i.ownScope.label ≠ other := by
  rintro heq
  rw [← heq, i.isOpenWord_label] at h
  exact Bool.noConfusion h

/-- The commands that take a variable over, around its name and the path of the file. -/
theorem exists_unixExport_eq (path name : Text) :
    ∃ held added : Text, '\n' ∉ held ∧ '\n' ∉ added ∧
      RunScript.unixExport path name =
        Family.unix.block [RunScript.holdOpening ++ (name ++ '"' :: held),
          RunScript.addOpening ++ (name ++ '=' :: (added ++ (path ++ "\"")))] := by
  have hregroup (opening hole equals value append path last : Text) :
      opening ++ hole ++ equals ++ value ++ append ++ path ++ last =
        opening ++ (hole ++ ((equals ++ (value ++ append)) ++ (path ++ last))) := by
    simp only [List.append_assoc]
  refine ⟨" | sed \"s/'/'\\\\\\\\''/g\")",
    "'%s'\\n\" \"$" ++ (RunScript.valueVariable ++ "\" >> \""), by decide, by decide, ?_⟩
  rw [RunScript.unixExport, hregroup, List.append_assoc]
  rfl

theorem label_mem_unixExport {name : Text} :
    i.ownScope.label ∈ firstWords (RunScript.unixExport i.scriptPath name) ↔
      i.ownScope.label = "printf" ∨ i.ownScope.label ∈ laterWords name := by
  obtain ⟨held, added, hheld, hadded, hexport⟩ := exists_unixExport_eq i.scriptPath name
  have hholdOpening : Opens "SCRIPTGEN_VALUE=$(printf" RunScript.holdOpening := by decide
  have haddOpening : Opens "printf" RunScript.addOpening := by decide
  have hhold : i.ownScope.label ≠ "SCRIPTGEN_VALUE=$(printf" :=
    label_ne_of_isOpenWord (by decide)
  have hheldTail : (firstWords held).tail = [] := tail_firstWords_of_notMem hheld
  have haddedTail : i.ownScope.label ∉ (firstWords (added ++ (i.scriptPath ++ "\""))).tail := by
    rw [tail_firstWords_append hadded]
    exact notMem_tail_scriptPath (by decide)
  rw [hexport, mem_firstWords_block i.label_ne_nil]
  simp only [List.mem_cons, List.not_mem_nil, or_false, exists_eq_or_imp, exists_eq_left,
    label_mem_around '"' hholdOpening (by decide), label_mem_around '=' haddOpening (by decide),
    hheldTail, hhold, haddedTail, false_or, or_false]
  exact ⟨fun h => h.elim Or.inr id, Or.inr⟩

theorem label_mem_unixOpening :
    i.ownScope.label ∈
        firstWords (Token.beginScript.literal .unix ++ Variable.resetPath .unix ++
          Family.unix.line ("export " ++ instanceNameVariable ++ "=" ++ Quoting.shellWord i.name)) ↔
      i.ownScope.label ∈ [("set" : Text), "export"] := by
  have hframe : openWords (Token.beginScript.literal .unix ++ Variable.resetPath .unix) =
      ["set", "export"] := by decide
  have hopening : Opens "export" ("export " ++ instanceNameVariable ++ "=") := by decide
  have hname : i.ownScope.label ∉ (firstWords (Quoting.shellWord i.name)).tail :=
    notMem_tail_firstWords_shellWord i.isIdentifier_label (Label.length_le_length_ofName i.name)
  have hended : IsEnded (Token.beginScript.literal .unix ++ Variable.resetPath .unix) :=
    isEnded_append_line _ .unix _
  rw [label_mem_append hended, label_mem_iff hframe, mem_firstWords_line i.label_ne_nil,
    hopening.mem_firstWords_iff, or_iff_left hname]
  simp

theorem label_mem_exports {keys : List Text} :
    i.ownScope.label ∈ firstWords ((RunScript.exportedNames (keys ++ defaultKeys)).flatMap
        (RunScript.unixExport i.scriptPath)) ↔
      i.ownScope.label ∈ [("printf" : Text)] ∨
        ∃ key ∈ keys, i.ownScope.label ∈ laterWords (Variable.exportedName key) := by
  have hended (name : Text) : IsEnded (RunScript.unixExport i.scriptPath name) :=
    isEnded_block .unix _
  have hdefault : ∀ key ∈ defaultKeys, laterWords (Variable.exportedName key) = [] := by
    decide
  have hnames := (RunScript.isExportList_exportedNames (keys ++ defaultKeys)).1
  rw [mem_firstWords_flatMap (fun name _ => hended name) i.label_ne_nil]
  simp only [label_mem_unixExport, hnames, List.mem_singleton]
  constructor
  · rintro ⟨_, ⟨-, key, hkey, rfl⟩, hprintf | hlater⟩
    · exact Or.inl hprintf
    · rcases List.mem_append.mp hkey with hkey | hkey
      · exact Or.inr ⟨key, hkey, hlater⟩
      · rw [hdefault key hkey] at hlater
        exact absurd hlater List.not_mem_nil
  · rintro (hprintf | ⟨key, hkey, hlater⟩)
    · exact ⟨homeVariable, ⟨by decide, homeKey, List.mem_append_right _ (by decide),
        by decide⟩, Or.inl hprintf⟩
    · refine ⟨_, ⟨?_, key, List.mem_append_left _ hkey, rfl⟩, Or.inr hlater⟩
      intro hname
      rw [hname, laterWords_of_notMem (by decide)] at hlater
      exact List.not_mem_nil hlater

theorem label_mem_openingCommands {keys : List Text} :
    i.ownScope.label ∈
        firstWords (RunScript.openingCommands i.name homePath (keys ++ defaultKeys) .unix) ↔
      i.ownScope.label ∈ [("mkdir" : Text), "cat", "set", "export", RunScript.documentEnd, "printf"] ∨
        ∃ key ∈ keys, i.ownScope.label ∈ laterWords (Variable.exportedName key) := by
  have hmkdir : openWords (Family.unix.line ("mkdir -p \"" ++ homePath ++ "\"")) = ["mkdir"] := by
    decide
  have hwrite : RunScript.openingCommands i.name homePath (keys ++ defaultKeys) .unix =
      Family.unix.line ("mkdir -p \"" ++ homePath ++ "\"") ++
        (Family.unix.line (RunScript.documentCommand ">" i.scriptPath) ++
          (Token.beginScript.literal .unix ++ Variable.resetPath .unix ++
            Family.unix.line ("export " ++ instanceNameVariable ++ "=" ++ Quoting.shellWord i.name)) ++
          Family.unix.line RunScript.documentEnd) ++
        (RunScript.exportedNames (keys ++ defaultKeys)).flatMap
          (RunScript.unixExport i.scriptPath) := rfl
  have hcat := isEnded_line .unix (RunScript.documentCommand ">" i.scriptPath)
  rw [hwrite, label_mem_append ((isEnded_line .unix _).append (isEnded_append_line _ .unix _)),
    label_mem_append (isEnded_line .unix _),
    label_mem_append (hcat.append (isEnded_append_line _ .unix _)), label_mem_append hcat,
    label_mem_exports, label_mem_unixOpening, label_mem_documentCommand (by decide),
    label_mem_iff hmkdir, label_mem_iff openWords_documentEnd, ← or_assoc]
  simp only [← List.mem_append]
  exact Iff.rfl

theorem label_mem_fileOpening {library : List LibraryFunction} :
    i.ownScope.label ∈ firstWords (i.fileOpening library) ↔
      i.ownScope.label ∈ [("mkdir" : Text), "cat", "set", "export", RunScript.documentEnd, "printf",
          "cd", "rm", "trap"] ∨
        (∃ f ∈ library, i.ownScope.label ∈ f.commandWords) ∨
        ∃ key ∈ i.exports.keys, i.ownScope.label ∈ laterWords (Variable.exportedName key) := by
  have hlibrary : i.ownScope.label ∈ firstWords (LibraryFunction.definitions library .unix) ↔
      ∃ f ∈ library, i.ownScope.label ∈ f.commandWords := by
    have hended (f : LibraryFunction) : IsEnded (f.definition .unix) := isEnded_block .unix f.unixLines
    rw [LibraryFunction.definitions, mem_firstWords_flatMap (fun f _ => hended f) i.label_ne_nil]
    simp only [label_mem_iff (openWords_definition _)]
  have hwords : i.ownScope.label ∈ [("mkdir" : Text), "cat", "set", "export", RunScript.documentEnd,
        "printf", "cd", "rm", "trap"] ↔
      i.ownScope.label ∈ [("mkdir" : Text), "cat", "set", "export", RunScript.documentEnd, "printf"] ∨
        i.ownScope.label ∈ [("cat" : Text)] ∨
          i.ownScope.label ∈ [("cd" : Text), "mkdir", "rm", "trap"] := by
    rw [← List.mem_append, ← List.mem_append]
    exact mem_iff_of_subsets (by decide) (by decide)
  rw [hwords, fileOpening, label_mem_append (isEnded_openingCommands _ _ _),
    label_mem_append (isEnded_line .unix _), label_mem_append (isEnded_libraryDefinitions library),
    label_mem_openingCommands, label_mem_documentCommand (by decide), hlibrary,
    label_mem_iff openWords_capture]
  have hregroup (a b c d e : Prop) : (a ∨ e) ∨ b ∨ d ∨ c ↔ (a ∨ b ∨ c) ∨ d ∨ e := by grind
  exact hregroup _ _ _ _ _

/-- An instance that embeds library functions and has an export of its own. -/
def watchingInstance : Instance :=
  ⟨{ InstanceDraft.new "web" with
      exports := Table.ofList [("dataDir", "/data")]
      run := [.findPid "worker"] }, by decide⟩

/-- The arms after that of `init` are the same for all instances. -/
theorem openWords_others {others : List Dispatch.Arm}
    (h : Statement.renderCases .unix (Action.all.tail.map i.actionCase) = .ok others) :
    openWords (others.flatMap (Dispatch.unixArm Quoting.shellWord)) =
      ["echo", "kill", "for", "done", "cat", "tail"] := by
  have hcases : Action.all.tail.map i.actionCase = Action.all.tail.map watchingInstance.actionCase := rfl
  have hwords : ∀ arms ∈ (Statement.renderCases .unix
      (Action.all.tail.map watchingInstance.actionCase)).toOption,
      openWords (arms.flatMap (Dispatch.unixArm Quoting.shellWord)) =
        ["echo", "kill", "for", "done", "cat", "tail"] := by
    decide +kernel
  rw [hcases] at h
  exact hwords others (h ▸ rfl)

theorem label_mem_closing {others : List Dispatch.Arm}
    (h : Statement.renderCases .unix (Action.all.tail.map i.actionCase) = .ok others) :
    i.ownScope.label ∈ firstWords (i.closing others) ↔
      i.ownScope.label ∈ [RunScript.documentEnd, "chmod", "echo", "kill", "for", "done", "cat", "tail",
        "esac", "exit"] := by
  have hended : IsEnded (others.flatMap (Dispatch.unixArm Quoting.shellWord)) :=
    isEnded_flatMap fun _ _ => isEnded_append_line _ .unix _
  have hchmod : Opens "chmod" "chmod u+x \"" := by decide
  have hstop : openWords (Family.unix.line "   ;;") = [] := by decide
  have hexit : openWords (Family.unix.line "esac" ++ Token.endScript.literal .unix) =
      ["esac", "exit"] := by decide
  have hpath : i.ownScope.label ∈ firstWords (Family.unix.line ("chmod u+x \"" ++ i.scriptPath ++ "\"")) ↔
      i.ownScope.label ∈ [("chmod" : Text)] := by
    rw [List.append_assoc]
    exact label_mem_line_path hchmod (by decide)
  rw [closing, fileClosing, label_mem_append ((isEnded_line .unix _).append (isEnded_line .unix _)),
    label_mem_append (isEnded_line .unix _), label_mem_append (isEnded_line .unix _),
    label_mem_append hended, hpath, label_mem_iff openWords_documentEnd, label_mem_iff hstop,
    label_mem_iff (openWords_others h), label_mem_iff hexit]
  simp only [← List.mem_append]
  exact Iff.rfl

end Frame

/-! ### The whole script -/

/-- The open words that lines of every control script start with. -/
def commandWords : List Text := [
  "set", "unset", "export", "case", "mkdir", "cat", RunScript.documentEnd, "printf", "cd", "rm", "trap",
  "chmod", "echo", "kill", "for", "done", "tail", "esac", "exit"]

/-- What the blocks of the frame start lines with, as far as it is the label of the instance. -/
theorem label_mem_frame {i : Instance} {parts : Parts}
    (h : Statement.renderCases .unix (Action.all.tail.map i.actionCase) = .ok parts.others) :
    (∃ block ∈ i.blocks parts, block.origin = .frame ∧ i.ownScope.label ∈ firstWords block.text) ↔
      i.ownScope.label ∈ commandWords ∨
        (∃ f ∈ parts.library, i.ownScope.label ∈ f.commandWords) ∨
        ∃ key ∈ i.exports.keys, i.ownScope.label ∈ laterWords (Variable.exportedName key) := by
  have hwords : i.ownScope.label ∈ commandWords ↔
      i.ownScope.label ∈ [("set" : Text), "unset"] ∨ i.ownScope.label ∈ [("export" : Text), "case"] ∨
        i.ownScope.label ∈ [("mkdir" : Text), "cat", "set", "export", RunScript.documentEnd, "printf",
          "cd", "rm", "trap"] ∨
        i.ownScope.label ∈ [RunScript.documentEnd, "chmod", "echo", "kill", "for", "done", "cat",
          "tail", "esac", "exit"] := by
    rw [← List.mem_append, ← List.mem_append, ← List.mem_append]
    exact mem_iff_of_subsets (by decide) (by decide)
  have hregroup (a b c d e f : Prop) :
      a ∨ b ∨ (c ∨ e ∨ f) ∨ d ↔ (a ∨ b ∨ c ∨ d) ∨ e ∨ f := by grind
  calc
    (∃ block ∈ i.blocks parts, block.origin = .frame ∧ i.ownScope.label ∈ firstWords block.text) ↔
        i.ownScope.label ∈ firstWords header ∨ i.ownScope.label ∈ firstWords initOpening ∨
          i.ownScope.label ∈ firstWords (i.fileOpening parts.library) ∨
          i.ownScope.label ∈ firstWords (i.closing parts.others) := by
      simp [blocks]
    _ ↔ _ := by
      rw [label_mem_iff openWords_header, label_mem_iff openWords_initOpening, label_mem_fileOpening,
        label_mem_closing h, hwords]
      exact hregroup _ _ _ _ _ _

/-- The control script of an instance consists of blocks of whole lines. Besides the functions, the call of
the own scope and what is written for the statements, no line has the label of the instance as its first
word exactly when the label is none of the words that the commands of the frame and of the embedded
functions start with, and none that a line feed in the key of an export puts at the start of a line. -/
theorem label_spares_frame_iff {i : Instance} {script : Script} (h : i.build .unix = .ok script) :
    ∃ parts, i.Consists script parts ∧
      (∀ word ≠ [], word ∈ firstWords script.text ↔
        ∃ block ∈ i.blocks parts, word ∈ firstWords block.text) ∧
      ((∀ block ∈ i.blocks parts,
          i.ownScope.label ∈ firstWords block.text → block.origin ≠ .frame) ↔
        i.ownScope.label ∉ commandWords ∧
          (∀ f ∈ parts.library, i.ownScope.label ∉ f.commandWords) ∧
          ∀ key ∈ i.exports.keys, i.ownScope.label ∉ laterWords (Variable.exportedName key)) := by
  obtain ⟨parts, hparts⟩ := exists_consists h
  refine ⟨parts, hparts, fun word hword => ?_, ?_⟩
  · rw [hparts.text]
    exact mem_firstWords_flatMap hparts.ended hword
  · have hframe := not_congr (label_mem_frame hparts.others)
    simp only [not_or, not_exists, not_and] at hframe
    rw [← hframe]
    exact forall₂_congr fun block _ => imp_not_comm

/-- The function of this instance is called in place of no command of the frame. -/
theorem label_spares_frame_watchingInstance :
    ∃ script parts, watchingInstance.build .unix = .ok script ∧
      watchingInstance.Consists script parts ∧
      ∀ block ∈ watchingInstance.blocks parts,
        watchingInstance.ownScope.label ∈ firstWords block.text → block.origin ≠ .frame := by
  obtain ⟨script, hscript⟩ : ∃ script, watchingInstance.build .unix = .ok script :=
    Passes.exists_eq_ok_iff.mpr (by decide)
  obtain ⟨parts, hparts, -, hspares⟩ := label_spares_frame_iff hscript
  have hlibrary : LibraryFunction.resolve .unix []
      (Statement.dependencies .unix (.list watchingInstance.run)).names = .ok [.abort, .findPid] := by
    decide
  have hembedded : parts.library = [.abort, .findPid] :=
    Except.ok.inj (hparts.library.symm.trans hlibrary)
  refine ⟨script, parts, hscript, hparts, hspares.mpr ⟨by decide, ?_, by decide⟩⟩
  rw [hembedded]
  decide

/-- An instance with the name of a command. -/
def catInstance : Instance :=
  ⟨{ InstanceDraft.new "cat" with run := [.interpret ["echo hi"]] }, by decide⟩

/-- The function of this instance is called where its run script is to be written. -/
theorem not_label_spares_frame_catInstance :
    ∃ script parts, catInstance.build .unix = .ok script ∧ catInstance.Consists script parts ∧
      ¬∀ block ∈ catInstance.blocks parts,
        catInstance.ownScope.label ∈ firstWords block.text → block.origin ≠ .frame := by
  obtain ⟨script, hscript⟩ : ∃ script, catInstance.build .unix = .ok script :=
    Passes.exists_eq_ok_iff.mpr (by decide)
  obtain ⟨parts, hparts⟩ := exists_consists hscript
  have hcat : catInstance.ownScope.label ∈ firstWords (catInstance.fileOpening parts.library) :=
    label_mem_fileOpening.mpr (Or.inl (by decide))
  have hblock : ⟨.frame, catInstance.fileOpening parts.library⟩ ∈ catInstance.blocks parts := by
    simp [blocks]
  exact ⟨script, parts, hscript, hparts, fun hspares => hspares _ hblock hcat rfl⟩

end Instance

end DualShell
