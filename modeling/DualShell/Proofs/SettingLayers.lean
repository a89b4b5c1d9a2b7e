import DualShell.Proofs.RenderStages
import DualShell.Proofs.Tables

/-!
Which instance a command line describes. The family and the directories come from layers: a flag
goes before the environment, the environment before files, and what no layer gives has a default.
The script that comes of a command line is that of an instance with these parts, whose exports are
inserted in the order of their flags.
-/

namespace DualShell

theorem Family.parse_name (family : Family) : parse family.name = .ok family := by
  cases family <;> decide

namespace Settings

/-- The text that a source gives to a setting, if it gives one. -/
def Source.given? (source : Source) (setting : Setting) : Option Text :=
  match source setting with
  | some (.text t) => some t
  | _ => none

theorem Source.text?_orElse {first second : Source} {setting : Setting} {value : Option Text}
    (h : (first.orElse second).text? setting = some value) :
    value = (first.given? setting).or (second.given? setting) := by
  unfold text? orElse at h
  unfold given?
  cases hfirst : first setting with
  | some v => cases v <;> simp [hfirst] at h ⊢; simp [← h]
  | none =>
    cases hsecond : second setting with
    | some v => cases v <;> simp [hfirst, hsecond] at h ⊢; exact h.symm
    | none => simpa [hfirst, hsecond] using h.symm

theorem layers_of_ofSource? {environment fromFile : Source} {settings : Settings}
    (h : ofSource? (environment.orElse fromFile) = some settings) :
    settings.defaultFamily =
        ((environment.given? .defaultFamily).or (fromFile.given? .defaultFamily)).getD
          Family.unix.name ∧
      settings.defaultHome =
        (environment.given? .defaultHome).or (fromFile.given? .defaultHome) ∧
      settings.defaultLogDirectory =
        (environment.given? .defaultLogDirectory).or (fromFile.given? .defaultLogDirectory) := by
  simp only [ofSource?, Option.bind_eq_bind, Option.bind_eq_some_iff] at h
  obtain ⟨family, hfamily, home, hhome, logDirectory, hlogs, limit, -, failOnOversize, -, h⟩ := h
  obtain rfl := Option.some.inj h
  refine ⟨?_, Source.text?_orElse hhome, Source.text?_orElse hlogs⟩
  rw [← Source.text?_orElse hfamily]
  rfl

end Settings

namespace CommandLine

open Settings

/-- The text of the first layer that gives one: a flag, the environment, files, and the default. -/
def layered (occurrences : List Occurrence) (environment fromFiles : Source) (flag : Flag)
    (setting : Setting) (default : Text) : Text :=
  ((valuesOf flag occurrences).head?.or
    ((environment.given? setting).or (fromFiles.given? setting))).getD default

theorem forall₂_exports {texts : List Text} (h : ∀ text ∈ texts, IsExport text) :
    List.Forall₂ Exports texts (texts.filterMap readExport?) := by
  induction texts with
  | nil => exact .nil
  | cons text rest ih =>
    obtain ⟨htext, hrest⟩ := List.forall_mem_cons.mp h
    obtain ⟨entry, hentry⟩ := htext
    rw [List.filterMap_cons_some (readExport?_eq_some_iff.mpr hentry)]
    exact .cons hentry (ih hrest)

theorem eq_filterMap_of_forall₂ {texts : List Text} {entries : List (Text × Text)}
    (h : List.Forall₂ Exports texts entries) : entries = texts.filterMap readExport? := by
  induction h with
  | nil => rfl
  | cons hentry _ ih =>
    rw [List.filterMap_cons_some (readExport?_eq_some_iff.mpr hentry), ← ih]

theorem readExport_eq_error_iff {text : Text} :
    readExport text = .error (.invalidExport text) ↔
      '=' ∉ text ∨ Text.isBlank (text.takeWhile (· ≠ '=')) = true := by
  by_cases hequals : '=' ∈ text
  · obtain ⟨key, value, rfl, hkey⟩ := List.eq_append_cons_of_mem hequals
    rw [takeWhile_ne_equals_append hkey, readExport, readExport?_append hkey]
    by_cases hblank : Text.isBlank key = true
    · simp [hblank]
    · simp [hblank]
  · rw [readExport, readExport?, takeWhile_ne_equals hequals, List.drop_length]
    simp [hequals]

/-- The instance of a name and exports whose directories come from layers, and that does at first
and runs the lines of its flags. -/
def layeredDraft (occurrences : List Occurrence) (environment fromFiles : Source) (name : Text)
    (entries : List (Text × Text)) : InstanceDraft where
  name := name
  home := layered occurrences environment fromFiles .home .defaultHome InstanceDraft.defaultHome
  logDirectory := layered occurrences environment fromFiles .logDirectory .defaultLogDirectory
    InstanceDraft.defaultLogDirectory
  exports := Table.ofList entries
  init := (valuesOf .init occurrences).map fun line => .interpret [line]
  run := (valuesOf .run occurrences).map fun line => .interpret [line]

section

variable {request : RenderRequest} {settings : Settings} {occurrences : List Occurrence}
  {environment fromFiles : Source}

theorem head?_valuesOf {flag : Flag} {value : Option Text}
    (h : valuesOf flag occurrences = value.toList) : (valuesOf flag occurrences).head? = value := by
  rw [h]
  cases value <;> rfl

theorem parse_layered_family (hrequest : request.IsTakenFrom occurrences)
    (hsettings : settings.defaultFamily =
      ((environment.given? .defaultFamily).or (fromFiles.given? .defaultFamily)).getD
        Family.unix.name)
    {family : Family} (h : request.IsFor settings family) :
    Family.parse (layered occurrences environment fromFiles .family .defaultFamily
      Family.unix.name) = .ok family := by
  rw [layered, head?_valuesOf hrequest.family]
  rw [RenderRequest.IsFor] at h
  cases hnamed : request.family with
  | some named =>
    rw [hnamed, Option.some_or, Option.some.injEq] at h
    obtain rfl := h
    exact named.parse_name
  | none =>
    rw [hnamed, Option.none_or, Settings.family] at h
    rw [Option.map_none, Option.none_or, ← hsettings]
    cases hparse : Family.parse settings.defaultFamily with
    | ok parsed =>
      rw [hparse] at h
      rw [Option.some.inj h]
    | error e =>
      rw [hparse] at h
      cases h

theorem readableDraft_eq (hrequest : request.IsTakenFrom occurrences)
    (hhome : settings.defaultHome =
      (environment.given? .defaultHome).or (fromFiles.given? .defaultHome))
    (hlogs : settings.defaultLogDirectory =
      (environment.given? .defaultLogDirectory).or (fromFiles.given? .defaultLogDirectory)) :
    request.readableDraft settings =
      layeredDraft occurrences environment fromFiles request.name
        (request.exports.filterMap readExport?) := by
  rw [layeredDraft, layered, layered, head?_valuesOf hrequest.home,
    head?_valuesOf hrequest.logDirectory, hrequest.init, hrequest.run, ← hhome, ← hlogs]
  rfl

end

/-- What comes without a failure of words that are read as a command is the script of one instance.
Its family and its directories are those of the first layers that give them; its exports are inserted
in the order of their flags, so that a key keeps its first place and its last value; what it does at
first and what it runs are the lines of its flags. An export is refused exactly when it has no equals
sign or nothing but white space before it. -/
theorem script_of_layers (libraries : Libraries) (hreads : libraries.ReadsRequests)
    (read : Text → SettingValue) (fromFile? : Surroundings → Option Source)
    (hlayers : libraries.LoadsLayers read fromFile?) (words : List Text)
    (surroundings : Surroundings) :
    let environment := Source.ofVariables read surroundings.environment
    let result := libraries.outcome ("render" :: words) surroundings
    (∀ text, readExport text = .error (.invalidExport text) ↔
      '=' ∉ text ∨ Text.isBlank (text.takeWhile (· ≠ '=')) = true) ∧
    ∀ command, libraries.read ("render" :: words) = .command command → result.failure = none →
      ∃ (occurrences : List Occurrence) (fromFile : Source) (name : Text) (family : Family)
        (entries : List (Text × Text)) (i : Instance) (script : Script),
        Spells Flag.ofRender words occurrences ∧ fromFile? surroundings = some fromFile ∧
        valuesOf .name occurrences = [name] ∧
        Family.parse (layered occurrences environment fromFile .family .defaultFamily
          Family.unix.name) = .ok family ∧
        List.Forall₂ Exports (valuesOf .exported occurrences) entries ∧
        (layeredDraft occurrences environment fromFile name entries).accept = .ok i ∧
        i.exports.keys = (entries.map Prod.fst).eraseDups ∧
        (∀ key, i.exports.get? key = (entries.findRev? (·.1 = key)).map Prod.snd) ∧
        i.build family = .ok script ∧
        ((valuesOf .output occurrences = [] ∧ result.output = script.text ∧ result.file = none) ∨
          ∃ path file, valuesOf .output occurrences = [path] ∧ FilePath.Names path file ∧
            result.output = [] ∧ result.file = some (file, script.text)) := by
  refine ⟨fun text => readExport_eq_error_iff, fun command hcommand h => ?_⟩
  have hhelp : ∀ text, libraries.read ("render" :: words) ≠ .help text := by
    rw [hcommand]
    exact fun _ => nofun
  obtain ⟨request, settings, script, hwrites, -, hdelivered⟩ :=
    exists_delivered_of_isPassed hreads (isPassed_of_failure_eq_none hreads hhelp h)
  obtain ⟨occurrences, hspells, hrequest⟩ := hwrites.isSpelled
  obtain ⟨fromFile, hfile, hsource⟩ := hlayers surroundings settings hwrites.load
  obtain ⟨hfamily, hhome, hlogs⟩ := layers_of_ofSource? hsource
  obtain ⟨family, i, hfor, hi, hbuild⟩ := hwrites.hasScript
  rw [readableDraft_eq hrequest hhome hlogs] at hi
  have hexports : i.exports = Table.ofList (request.exports.filterMap readExport?) := by
    rw [hi]
    rfl
  refine ⟨occurrences, fromFile, request.name, family, request.exports.filterMap readExport?, i,
    script, hspells, hfile, hrequest.name, parse_layered_family hrequest hfamily hfor, ?_,
    InstanceDraft.accept_eq_ok_iff.mpr hi, ?_, ?_, hbuild, ?_⟩
  · rw [hrequest.exports]
    exact forall₂_exports hwrites.exports
  · rw [hexports, Table.keys_ofList]
  · intro key
    rw [hexports, Table.get?_ofList]
  · rw [hrequest.output]
    obtain ⟨houtput, hprinted⟩ | ⟨path, file, houtput, hfile⟩ := hdelivered
    · rw [houtput]
      exact .inl ⟨rfl, hprinted⟩
    · rw [houtput]
      exact .inr ⟨path, file, rfl, hfile⟩

/-- Flags that give the home and one export twice. -/
def webWords : List Text :=
  ["--name", "web", "--home=/srv/web", "--export", " PORT =80", "--export", "PORT=8080",
    "--run", "serve", "--output", "out/web.cmd"]

/-- The flags that occur in these words. -/
def webOccurrences : List Occurrence :=
  [(.name, "web"), (.home, "/srv/web"), (.exported, " PORT =80"), (.exported, "PORT=8080"),
    (.run, "serve"), (.output, "out/web.cmd")]

/-- A place for the settings, where a file gives the family and a log directory that the environment
goes before; the file in the working directory is not read. -/
def webSurroundings : Surroundings where
  environment :=
    [("SCRIPTGEN_CONFIG_PATH", "conf/web.toml"), ("SCRIPTGEN_DEFAULT_LOG_DIR", "/var/log/web")]
  files :=
    [("conf/web.toml", "default_family = \"windows\"\ndefault_log_dir = \"/tmp\"\n"),
      ("scriptgen.toml", "default_instance_home = \"/opt\"\n")]

def webFile? (surroundings : Surroundings) : Option Source :=
  Source.ofFiles? surroundings.files surroundings.environment

/-- What the environment and the file come to. -/
def webSettings : Settings where
  defaultFamily := "windows"
  defaultHome := none
  defaultLogDirectory := some "/var/log/web"
  payloadLimit := defaultPayloadLimit
  failOnOversize := false

/-- What the words come to. -/
def webRequest : RenderRequest where
  name := "web"
  home := some "/srv/web"
  logDirectory := none
  family := none
  exports := [" PORT =80", "PORT=8080"]
  init := []
  run := ["serve"]
  output := some "out/web.cmd"
  diagnostics := false

theorem read_webWords :
    Libraries.standard.read ("render" :: webWords) = .command (.render webRequest) := by
  decide +kernel

theorem ofText?_webOutput : FilePath.ofText? "out/web.cmd" = some ⟨false, ["out"], "web.cmd"⟩ := by
  decide +kernel

theorem failure_of_webWords :
    (Libraries.standard.outcome ("render" :: webWords) webSurroundings).failure = none := by
  have hsettings : Libraries.standard.load webSurroundings = some webSettings := by decide +kernel
  have hscript : (webRequest.script webSettings).isOk = true := by decide +kernel
  obtain ⟨script, hscript⟩ := Passes.exists_eq_ok_iff.mpr hscript
  have hsize : ¬IsRefused webSettings script := fun hrefused => Bool.false_ne_true hrefused.2
  rw [Libraries.outcome, read_webWords, hsettings]
  simp only [RenderRequest.outcome, hscript]
  rw [RenderRequest.deliver_of_ofText?_eq_some hsize rfl ofText?_webOutput, Outcome.withWarnings]

theorem script_of_layers_webWords :
    (Libraries.standard.outcome ("render" :: webWords) webSurroundings).failure = none ∧
    ∃ (i : Instance) (script : Script), i.home = "/srv/web" ∧ i.logDirectory = "/var/log/web" ∧
      i.exports.get? "PORT" = some "8080" ∧ i.build .windows = .ok script ∧
      (Libraries.standard.outcome ("render" :: webWords) webSurroundings).file =
        some (⟨false, ["out"], "web.cmd"⟩, script.text) := by
  refine ⟨failure_of_webWords, ?_⟩
  obtain ⟨occurrences, fromFile, name, family, entries, i, script, hspells, hfile, -, hfamily,
    hentries, hi, -, hget, hbuild, hemitted⟩ :=
    (script_of_layers Libraries.standard Libraries.readsRequests_standard
      SettingValue.ofEnvironment webFile? Libraries.loadsLayers_standard webWords
      webSurroundings).2 _ read_webWords failure_of_webWords
  have hread : readFlags? Flag.ofRender webWords = some webOccurrences := by decide +kernel
  obtain rfl : occurrences = webOccurrences :=
    Option.some.inj ((readFlags?_eq_some_iff.mpr hspells).symm.trans hread)
  have hgiven : (webFile? webSurroundings).map (·.given? .defaultFamily) =
      some (some ("windows" : Text)) := by decide +kernel
  rw [hfile] at hgiven
  have hfileFamily : fromFile.given? .defaultFamily = some "windows" := Option.some.inj hgiven
  have hwindows : Family.parse (layered webOccurrences
      (Source.ofVariables SettingValue.ofEnvironment webSurroundings.environment) fromFile .family
      .defaultFamily Family.unix.name) = .ok .windows := by
    rw [layered, hfileFamily]
    decide +kernel
  have hlogs : (Source.ofVariables SettingValue.ofEnvironment
      webSurroundings.environment).given? .defaultLogDirectory = some ("/var/log/web" : Text) := by
    decide +kernel
  obtain rfl : Family.windows = family := Except.ok.inj (hwindows.symm.trans hfamily)
  have hdraft := InstanceDraft.accept_eq_ok_iff.mp hi
  refine ⟨i, script, ?_, ?_, ?_, hbuild, ?_⟩
  · rw [hdraft]
    rfl
  · rw [hdraft]
    change layered webOccurrences
      (Source.ofVariables SettingValue.ofEnvironment webSurroundings.environment) fromFile
      .logDirectory .defaultLogDirectory InstanceDraft.defaultLogDirectory = _
    rw [layered, hlogs]
    rfl
  · have hread : (valuesOf .exported webOccurrences).filterMap readExport? =
        [(("PORT" : Text), ("80" : Text)), ("PORT", "8080")] := by decide +kernel
    rw [hget, eq_filterMap_of_forall₂ hentries, hread]
    decide
  · have houtput : valuesOf .output webOccurrences = [("out/web.cmd" : Text)] := by decide +kernel
    rw [houtput] at hemitted
    obtain ⟨hnone, -⟩ | ⟨path, file, hpaths, hnames, -, hwritten⟩ := hemitted
    · cases hnone
    · obtain rfl := List.singleton_inj.mp hpaths
      obtain rfl := Option.some.inj
        (ofText?_webOutput.symm.trans (FilePath.ofText?_eq_some_iff.mpr hnames))
      exact hwritten

end CommandLine

end DualShell
