import DualShell.Proofs.CommandLineLibraries
import DualShell.Proofs.FilePaths
import DualShell.Proofs.RenderRequests
import Mathlib.Order.WellFounded

/-!
What comes of asking for a script. Each stage can fail in its own way, whatever happens at the
others, and the first one that fails decides: then nothing is printed and no file is written. If
none fails, the whole script goes to exactly one place. Asking for help comes before all stages.
-/

namespace DualShell.CommandLine

/-- The stages of writing a script, in the order in which they are gone through. -/
inductive Stage where
  | usage
  | loading
  | checking
  | exports
  | acceptance
  | rendering
  | size
  | path
  deriving DecidableEq, Repr

/-- Whether a stage is gone through ahead of another. -/
def Stage.Precedes (first second : Stage) : Prop := first.ctorIdx < second.ctorIdx

instance : DecidableRel Stage.Precedes := fun first second =>
  inferInstanceAs (Decidable (first.ctorIdx < second.ctorIdx))

variable {libraries : Libraries} {words : List Text} {surroundings : Surroundings}

/-- What goes wrong at a stage, whatever happens at the others. -/
inductive Fails (libraries : Libraries) (words : List Text) (surroundings : Surroundings) :
    Stage → Failure → Prop
  | usage (h : ∀ request : RenderRequest, ¬request.IsSpelled words) :
      Fails libraries words surroundings .usage .usage
  | loading (h : libraries.load surroundings = none) :
      Fails libraries words surroundings .loading .unreadableSettings
  | checking {settings : Settings} {cause : SettingsError}
      (hsettings : libraries.load surroundings = some settings)
      (h : settings.validate = .error cause) :
      Fails libraries words surroundings .checking (.settings cause)
  | exports {request : RenderRequest} {before after : List Text} {text : Text}
      (hrequest : request.IsSpelled words) (hexports : request.exports = before ++ text :: after)
      (hbefore : ∀ other ∈ before, IsExport other) (h : ¬IsExport text) :
      Fails libraries words surroundings .exports (.invalidExport text)
  | acceptance {request : RenderRequest} {settings : Settings} {cause : ScriptError}
      (hrequest : request.IsSpelled words)
      (hsettings : libraries.load surroundings = some settings)
      (h : (request.readableDraft settings).problem? = some cause) :
      Fails libraries words surroundings .acceptance (.script cause)
  | rendering {request : RenderRequest} {settings : Settings} {family : Family} {i : Instance}
      {cause : ScriptError} (hrequest : request.IsSpelled words)
      (hsettings : libraries.load surroundings = some settings)
      (hfamily : request.IsFor settings family)
      (hi : i.toInstanceDraft = request.readableDraft settings)
      (h : i.build family = .error cause) :
      Fails libraries words surroundings .rendering (.script cause)
  | size {request : RenderRequest} {settings : Settings} {script : Script}
      (hrequest : request.IsSpelled words)
      (hsettings : libraries.load surroundings = some settings)
      (hscript : request.HasScript settings script)
      (h : IsRefused settings script) :
      Fails libraries words surroundings .size
        (.oversize (Text.utf8Size script.text) settings.payloadLimit)
  | path {request : RenderRequest} {text : Text} (hrequest : request.IsSpelled words)
      (houtput : request.output = some text) (h : ∀ file, ¬FilePath.Names text file) :
      Fails libraries words surroundings .path (.missingFileName text)

/-- Whether nothing goes wrong at a stage. -/
def IsPassed (libraries : Libraries) (words : List Text) (surroundings : Surroundings)
    (stage : Stage) : Prop :=
  ∀ failure, ¬Fails libraries words surroundings stage failure

/-- Whether words ask for a script and the script is written. -/
structure Writes (libraries : Libraries) (words : List Text) (surroundings : Surroundings)
    (request : RenderRequest) (settings : Settings) (script : Script) : Prop where
  isSpelled : request.IsSpelled words
  load : libraries.load surroundings = some settings
  validate : settings.validate = .ok ()
  exports : ∀ text ∈ request.exports, IsExport text
  hasScript : request.HasScript settings script

section Outcome

variable (hreads : libraries.ReadsRequests)

include hreads

theorem outcome_of_isSpelled {request : RenderRequest} {settings : Settings}
    (hrequest : request.IsSpelled words) (hsettings : libraries.load surroundings = some settings) :
    libraries.outcome ("render" :: words) surroundings =
      (request.outcome settings).withWarnings
        (libraries.showsWarnings surroundings.environment) := by
  rw [Libraries.outcome, (hreads words _).mpr ⟨request, hrequest, rfl⟩, hsettings]

theorem outcome_of_not_isSpelled (hhelp : ∀ text, libraries.read ("render" :: words) ≠ .help text)
    (h : ∀ request : RenderRequest, ¬request.IsSpelled words) :
    libraries.outcome ("render" :: words) surroundings = .failed .usage none := by
  cases hread : libraries.read ("render" :: words) with
  | command command =>
    obtain ⟨request, hrequest, -⟩ := (hreads words command).mp hread
    exact absurd hrequest (h request)
  | help text => exact absurd hread (hhelp text)
  | refused => rw [Libraries.outcome, hread]

theorem outcome_of_load_eq_none {request : RenderRequest} (hrequest : request.IsSpelled words)
    (h : libraries.load surroundings = none) :
    libraries.outcome ("render" :: words) surroundings = .failed .unreadableSettings none := by
  rw [Libraries.outcome, (hreads words _).mpr ⟨request, hrequest, rfl⟩, h]

theorem outcome_of_script_eq_error {request : RenderRequest} {settings : Settings}
    {failure : Failure} (hrequest : request.IsSpelled words)
    (hsettings : libraries.load surroundings = some settings)
    (h : request.script settings = .error failure) :
    libraries.outcome ("render" :: words) surroundings = .failed failure none := by
  rw [outcome_of_isSpelled hreads hrequest hsettings, RenderRequest.outcome, h]
  rfl

/-- A script that is written is delivered. -/
theorem Writes.outcome_eq {request : RenderRequest} {settings : Settings} {script : Script}
    (h : Writes libraries words surroundings request settings script) :
    libraries.outcome ("render" :: words) surroundings =
      (request.deliver settings script).withWarnings
        (libraries.showsWarnings surroundings.environment) := by
  rw [outcome_of_isSpelled hreads h.isSpelled h.load, RenderRequest.outcome,
    RenderRequest.script_eq_ok_iff.mpr ⟨h.validate, h.exports, h.hasScript⟩]

end Outcome

namespace IsPassed

theorem exists_isSpelled (h : IsPassed libraries words surroundings .usage) :
    ∃ request : RenderRequest, request.IsSpelled words := by
  by_contra hnone
  exact h _ (.usage (not_exists.mp hnone))

theorem exists_load (h : IsPassed libraries words surroundings .loading) :
    ∃ settings, libraries.load surroundings = some settings := by
  rw [← Option.ne_none_iff_exists']
  exact fun hnone => h _ (.loading hnone)

variable {request : RenderRequest} {settings : Settings}

theorem validate (h : IsPassed libraries words surroundings .checking)
    (hsettings : libraries.load surroundings = some settings) :
    settings.validate = .ok () := by
  cases hvalid : settings.validate with
  | ok => rfl
  | error cause => exact absurd (.checking hsettings hvalid) (h _)

/-- The first export that gives no variable would be reported. -/
theorem isExport (h : IsPassed libraries words surroundings .exports)
    (hrequest : request.IsSpelled words) : ∀ text ∈ request.exports, IsExport text := by
  cases hfind : request.exports.find? fun text => ¬(readExport? text).isSome with
  | none =>
    simpa only [isSome_readExport?_iff, List.find?_eq_none, decide_eq_true_eq, not_not] using hfind
  | some text =>
    obtain ⟨hbad, before, after, hexports, hbefore⟩ := List.find?_eq_some_iff_append.mp hfind
    simp only [isSome_readExport?_iff, decide_eq_true_eq, Bool.not_eq_true',
      decide_eq_false_iff_not, not_not] at hbad hbefore
    exact absurd (.exports hrequest hexports hbefore hbad) (h _)

theorem exists_instance (h : IsPassed libraries words surroundings .acceptance)
    (hrequest : request.IsSpelled words)
    (hsettings : libraries.load surroundings = some settings) :
    ∃ i : Instance, i.toInstanceDraft = request.readableDraft settings := by
  cases hproblem : (request.readableDraft settings).problem? with
  | none => exact ⟨⟨_, hproblem⟩, rfl⟩
  | some cause => exact absurd (.acceptance hrequest hsettings hproblem) (h _)

theorem exists_hasScript (h : IsPassed libraries words surroundings .rendering)
    (hrequest : request.IsSpelled words)
    (hsettings : libraries.load surroundings = some settings)
    (hvalid : settings.validate = .ok ())
    (hinstance : ∃ i : Instance, i.toInstanceDraft = request.readableDraft settings) :
    ∃ script, request.HasScript settings script := by
  obtain ⟨i, hi⟩ := hinstance
  obtain ⟨family, hfamily⟩ := request.exists_isFor hvalid
  cases hbuild : i.build family with
  | ok script => exact ⟨script, family, i, hfamily, hi, hbuild⟩
  | error cause => exact absurd (.rendering hrequest hsettings hfamily hi hbuild) (h _)

end IsPassed

/-- What has passed every stage ahead of the size is written. -/
theorem exists_writes_of_isPassed {request : RenderRequest} (hrequest : request.IsSpelled words)
    (h : ∀ stage : Stage, stage.Precedes .size → IsPassed libraries words surroundings stage) :
    ∃ settings script, Writes libraries words surroundings request settings script := by
  obtain ⟨settings, hsettings⟩ := (h .loading (by decide)).exists_load
  have hvalid := (h .checking (by decide)).validate hsettings
  have hinstance := (h .acceptance (by decide)).exists_instance hrequest hsettings
  obtain ⟨script, hscript⟩ :=
    (h .rendering (by decide)).exists_hasScript hrequest hsettings hvalid hinstance
  exact ⟨settings, script, hrequest, hsettings, hvalid,
    (h .exports (by decide)).isExport hrequest, hscript⟩

section Stages

variable (hreads : libraries.ReadsRequests)
  (hhelp : ∀ text, libraries.read ("render" :: words) ≠ .help text)

include hreads

/-- What has passed every stage is delivered. -/
theorem exists_delivered_of_isPassed
    (h : ∀ stage, IsPassed libraries words surroundings stage) :
    ∃ request settings script, Writes libraries words surroundings request settings script ∧
      (libraries.outcome ("render" :: words) surroundings).failure = none ∧
      ((request.output = none ∧
          (libraries.outcome ("render" :: words) surroundings).output = script.text ∧
          (libraries.outcome ("render" :: words) surroundings).file = none) ∨
        ∃ path file, request.output = some path ∧ FilePath.Names path file ∧
          (libraries.outcome ("render" :: words) surroundings).output = [] ∧
          (libraries.outcome ("render" :: words) surroundings).file = some (file, script.text)) := by
  obtain ⟨request, hrequest⟩ := (h .usage).exists_isSpelled
  obtain ⟨settings, script, hwrites⟩ := exists_writes_of_isPassed hrequest fun stage _ => h stage
  have hsize : ¬IsRefused settings script := fun hrefused =>
    h .size _ (.size hrequest hwrites.load hwrites.hasScript hrefused)
  refine ⟨request, settings, script, hwrites, ?_⟩
  rw [hwrites.outcome_eq hreads]
  cases houtput : request.output with
  | none =>
    rw [RenderRequest.deliver_of_output_eq_none hsize houtput]
    exact ⟨rfl, .inl ⟨rfl, rfl, rfl⟩⟩
  | some path =>
    cases hpath : FilePath.ofText? path with
    | none =>
      exact absurd (.path hrequest houtput (FilePath.ofText?_eq_none_iff.mp hpath)) (h .path _)
    | some file =>
      rw [RenderRequest.deliver_of_ofText?_eq_some hsize houtput hpath]
      exact ⟨rfl, .inr ⟨path, file, rfl, FilePath.ofText?_eq_some_iff.mp hpath, rfl, rfl⟩⟩

include hhelp

/-- The first stage at which something goes wrong decides. -/
theorem failure_of_fails {stage : Stage} {failure : Failure}
    (h : Fails libraries words surroundings stage failure)
    (hfirst : ∀ earlier : Stage, earlier.Precedes stage →
      IsPassed libraries words surroundings earlier) :
    (libraries.outcome ("render" :: words) surroundings).failure = some failure := by
  cases h with
  | usage h => rw [outcome_of_not_isSpelled hreads hhelp h, Outcome.failed]
  | loading h =>
    obtain ⟨request, hrequest⟩ := (hfirst .usage (by decide)).exists_isSpelled
    rw [outcome_of_load_eq_none hreads hrequest h, Outcome.failed]
  | checking hsettings h =>
    obtain ⟨request, hrequest⟩ := (hfirst .usage (by decide)).exists_isSpelled
    rw [outcome_of_script_eq_error hreads hrequest hsettings
      (RenderRequest.script_of_validate_error h), Outcome.failed]
  | exports hrequest hexports hbefore h =>
    obtain ⟨settings, hsettings⟩ := (hfirst .loading (by decide)).exists_load
    have hvalid := (hfirst .checking (by decide)).validate hsettings
    rw [outcome_of_script_eq_error hreads hrequest hsettings
      (RenderRequest.script_of_not_isExport hvalid hexports hbefore h), Outcome.failed]
  | acceptance hrequest hsettings h =>
    have hvalid := (hfirst .checking (by decide)).validate hsettings
    have hexports := (hfirst .exports (by decide)).isExport hrequest
    rw [outcome_of_script_eq_error hreads hrequest hsettings
      (RenderRequest.script_of_problem? hvalid hexports h), Outcome.failed]
  | rendering hrequest hsettings hfamily hi h =>
    have hvalid := (hfirst .checking (by decide)).validate hsettings
    have hexports := (hfirst .exports (by decide)).isExport hrequest
    rw [outcome_of_script_eq_error hreads hrequest hsettings
      (RenderRequest.script_of_build_error hvalid hexports hfamily hi h), Outcome.failed]
  | size hrequest hsettings hscript h =>
    have hvalid := (hfirst .checking (by decide)).validate hsettings
    have hexports := (hfirst .exports (by decide)).isExport hrequest
    have hwrites : Writes libraries words surroundings _ _ _ :=
      ⟨hrequest, hsettings, hvalid, hexports, hscript⟩
    rw [hwrites.outcome_eq hreads, RenderRequest.deliver_of_isRefused h, Outcome.withWarnings]
  | path hrequest houtput h =>
    obtain ⟨settings, script, hwrites⟩ := exists_writes_of_isPassed hrequest fun stage hstage =>
      hfirst stage (Nat.lt_trans hstage (by decide))
    have hsize : ¬IsRefused settings script := fun hrefused =>
      hfirst .size (by decide) _ (.size hrequest hwrites.load hwrites.hasScript hrefused)
    rw [hwrites.outcome_eq hreads, RenderRequest.deliver_of_ofText?_eq_none hsize houtput
      (FilePath.ofText?_eq_none_iff.mpr h), Outcome.withWarnings]

omit hreads hhelp in
theorem exists_first_fails (h : ∃ stage failure, Fails libraries words surroundings stage failure) :
    ∃ stage failure, Fails libraries words surroundings stage failure ∧
      ∀ earlier : Stage, earlier.Precedes stage →
        IsPassed libraries words surroundings earlier := by
  obtain ⟨stage, ⟨failure, hfails⟩, hfirst⟩ :=
    (measure Stage.ctorIdx).wf.has_min
      {stage | ∃ failure, Fails libraries words surroundings stage failure} h
  exact ⟨stage, failure, hfails, fun earlier hearlier other hother =>
    hfirst earlier ⟨other, hother⟩ hearlier⟩

theorem isPassed_of_failure_eq_none
    (h : (libraries.outcome ("render" :: words) surroundings).failure = none) (stage : Stage) :
    IsPassed libraries words surroundings stage := by
  intro failure hfails
  obtain ⟨first, cause, hfirst, hearlier⟩ := exists_first_fails ⟨stage, failure, hfails⟩
  rw [failure_of_fails hreads hhelp hfirst hearlier] at h
  cases h

end Stages

-- Settings that do not pass their check go before an export without a key.
example :
    (outcome ("render" :: ["--name", "web", "--run", "serve", "--export", "=80"])
      [("SCRIPTGEN_DEFAULT_FAMILY", "beos")] []).failure =
      some (.settings (.unknownFamily "beos")) := by decide

end DualShell.CommandLine
