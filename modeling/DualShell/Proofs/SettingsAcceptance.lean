import DualShell.Proofs.RenderRequests

/-!
What the check of settings promises for the scripts written with them. Settings and drafts of instances
refuse the same directories, so settings that pass their check never make an instance fail for a directory
that its request leaves out, and the name of the default family is read the same way for both.
-/

namespace DualShell

open Passes

namespace Text

/-- Whether a word is what is left of a text without the white space around it. -/
structure IsTrimOf (word t : Text) : Prop where
  surrounded : ∃ before after, t = before ++ word ++ after ∧ isBlank before = true ∧
    isBlank after = true
  head : ∀ c, word.head? = some c → isWhiteSpace c = false
  last : ∀ c, word.getLast? = some c → isWhiteSpace c = false

theorem dropWhile_isBlank_append {blank t : Text} (hblank : isBlank blank = true)
    (ht : ∀ c, t.head? = some c → isWhiteSpace c = false) :
    (blank ++ t).dropWhile isWhiteSpace = t := by
  rw [List.dropWhile_append_of_pos (List.all_eq_true.mp hblank)]
  cases t with
  | nil => rfl
  | cons c rest => exact List.dropWhile_cons_of_neg (by simp [ht c rfl])

theorem IsTrimOf.eq_trim {word t : Text} (h : IsTrimOf word t) : word = trim t := by
  obtain ⟨before, after, rfl, hbefore, hafter⟩ := h.surrounded
  by_cases hword : word = []
  · subst hword
    refine (trim_eq_nil_iff.mpr ?_).symm
    rw [isBlank] at hbefore hafter ⊢
    rw [List.append_nil, List.all_append, hbefore, hafter]
    rfl
  · have hhead : ∀ c, (word ++ after).head? = some c → isWhiteSpace c = false := by
      rw [List.head?_append_of_ne_nil _ hword]
      exact h.head
    have hlast : ∀ c, word.reverse.head? = some c → isWhiteSpace c = false := by
      rw [List.head?_reverse]
      exact h.last
    have hreverse : isBlank after.reverse = true := by
      rw [isBlank, List.all_reverse]
      exact hafter
    rw [trim, trimStart, trimEnd, List.append_assoc, dropWhile_isBlank_append hbefore hhead,
      List.reverse_append, dropWhile_isBlank_append hreverse hlast, List.reverse_reverse]

theorem head?_dropWhile_isWhiteSpace {t : Text} {c : Char}
    (h : (t.dropWhile isWhiteSpace).head? = some c) : isWhiteSpace c = false := by
  have hnot := List.head?_dropWhile_not isWhiteSpace t
  rw [h] at hnot
  exact hnot

theorem isBlank_takeWhile (t : Text) : isBlank (t.takeWhile isWhiteSpace) = true :=
  List.all_takeWhile

theorem isTrimOf_trim (t : Text) : IsTrimOf (trim t) t := by
  have hstart : t = t.takeWhile isWhiteSpace ++ trimStart t := List.takeWhile_append_dropWhile.symm
  have hend : trimStart t = trim t ++ ((trimStart t).reverse.takeWhile isWhiteSpace).reverse := by
    rw [trim, trimEnd, ← List.reverse_append, List.takeWhile_append_dropWhile, List.reverse_reverse]
  refine ⟨⟨t.takeWhile isWhiteSpace, ((trimStart t).reverse.takeWhile isWhiteSpace).reverse, ?_,
    isBlank_takeWhile t, ?_⟩, fun c hc => ?_, fun c hc => ?_⟩
  · exact hstart.trans ((congrArg _ hend).trans (List.append_assoc _ _ _).symm)
  · rw [isBlank, List.all_reverse]
    exact isBlank_takeWhile _
  · have hhead : (trimStart t).head? = some c := by
      rw [hend, List.head?_append, hc]
      rfl
    exact head?_dropWhile_isWhiteSpace hhead
  · rw [trim, trimEnd, List.getLast?_reverse] at hc
    exact head?_dropWhile_isWhiteSpace hc

theorem isTrimOf_iff {word t : Text} : IsTrimOf word t ↔ word = trim t :=
  ⟨IsTrimOf.eq_trim, fun h => h ▸ isTrimOf_trim t⟩

end Text

namespace Settings

variable {settings : Settings}

/-- The arguments of an instance that settings can give. -/
def directoryArguments : List (Setting × RequiredArgument) :=
  [(.defaultHome, .instanceHome), (.defaultLogDirectory, .logDirectory)]

/-- Whether a draft is sound but for its directories, and these are the ones of settings, or else the
default ones. -/
structure Configures (settings : Settings) (draft : InstanceDraft) : Prop where
  name : Text.isBlank draft.name = false
  free : ¬draft.HasTakenName
  run : draft.run ≠ []
  home : draft.home = settings.defaultHome.getD InstanceDraft.defaultHome
  logDirectory : draft.logDirectory =
    settings.defaultLogDirectory.getD InstanceDraft.defaultLogDirectory

/-! ### The default family -/

theorem family_eq_ok_iff {family : Family} :
    settings.family = .ok family ↔
      ∃ word, Text.IsTrimOf word settings.defaultFamily ∧ word.lower = family.name := by
  simp only [Text.isTrimOf_iff, exists_eq_left, eq_comm, ← Family.ofName?_eq_some_iff]
  rw [Settings.family, Family.parse]
  cases Family.ofName? (Text.trim settings.defaultFamily).lower <;> simp

theorem family_eq_error {cause : SettingsError} (h : settings.family = .error cause) :
    cause = .unknownFamily settings.defaultFamily := by
  rw [Settings.family, Family.parse] at h
  cases hname : Family.ofName? (Text.trim settings.defaultFamily).lower with
  | some family => simp [hname] at h
  | none => simpa [hname, eq_comm] using h

/-! ### Directories -/

theorem checkDirectory_of_isBlank {setting : Setting} {directory : Option Text}
    (h : ∃ t ∈ directory, Text.isBlank t = true) :
    checkDirectory setting directory = .error (.blankDirectory setting) := by
  obtain ⟨t, rfl, hblank⟩ := h
  exact if_pos hblank

theorem checkDirectory_of_not_isBlank {setting : Setting} {directory : Option Text}
    (h : ¬∃ t ∈ directory, Text.isBlank t = true) : checkDirectory setting directory = .ok () := by
  cases directory with
  | none => rfl
  | some t => exact if_neg fun hblank => h ⟨t, rfl, hblank⟩

theorem isBlank_getD_iff {directory : Option Text} {given : Text}
    (hgiven : Text.isBlank given = false) :
    Text.isBlank (directory.getD given) = true ↔ ∃ t ∈ directory, Text.isBlank t = true := by
  cases directory <;> simp [hgiven]

theorem not_isBlank_defaultHome : Text.isBlank InstanceDraft.defaultHome = false := by decide

theorem not_isBlank_defaultLogDirectory : Text.isBlank InstanceDraft.defaultLogDirectory = false := by
  decide

theorem validate_of_blankHome {family : Family} (hfamily : settings.family = .ok family)
    (hhome : ∃ t ∈ settings.defaultHome, Text.isBlank t = true) :
    settings.validate = .error (.blankDirectory .defaultHome) := by
  rw [validate, hfamily, checkDirectory_of_isBlank hhome]
  rfl

theorem validate_of_blankLogDirectory {family : Family} (hfamily : settings.family = .ok family)
    (hhome : ¬∃ t ∈ settings.defaultHome, Text.isBlank t = true)
    (hlogs : ∃ t ∈ settings.defaultLogDirectory, Text.isBlank t = true) :
    settings.validate = .error (.blankDirectory .defaultLogDirectory) := by
  rw [validate, hfamily, checkDirectory_of_not_isBlank hhome, checkDirectory_of_isBlank hlogs]
  rfl

theorem validate_eq_ok {family : Family} (hfamily : settings.family = .ok family)
    (hhome : ¬∃ t ∈ settings.defaultHome, Text.isBlank t = true)
    (hlogs : ¬∃ t ∈ settings.defaultLogDirectory, Text.isBlank t = true)
    (hlimit : settings.payloadLimit ≠ 0) : settings.validate = .ok () := by
  rw [validate, hfamily, checkDirectory_of_not_isBlank hhome, checkDirectory_of_not_isBlank hlogs,
    if_neg hlimit]
  rfl

/-- Settings that pass their check give no blank directory. -/
theorem not_isBlank_of_validate (h : settings.validate = .ok ()) :
    (¬∃ t ∈ settings.defaultHome, Text.isBlank t = true) ∧
      ¬∃ t ∈ settings.defaultLogDirectory, Text.isBlank t = true := by
  obtain ⟨family, hfamily, -⟩ := bind_eq_ok.mp h
  have hhome : ¬∃ t ∈ settings.defaultHome, Text.isBlank t = true := by
    intro hhome
    rw [validate_of_blankHome hfamily hhome] at h
    cases h
  refine ⟨hhome, fun hlogs => ?_⟩
  rw [validate_of_blankLogDirectory hfamily hhome hlogs] at h
  cases h

section Configured

variable {draft : InstanceDraft} (h : settings.Configures draft)

include h

/-- Only its directories can make a draft fail that is sound otherwise. -/
theorem Configures.problem? : draft.problem? =
    if Text.isBlank draft.home then some (.missingArgument .instanceHome)
    else if Text.isBlank draft.logDirectory then some (.missingArgument .logDirectory) else none := by
  have hname : ¬Text.isBlank draft.name = true := by simp [h.name]
  have hrun : ¬draft.run.isEmpty = true := by simp [h.run]
  rw [InstanceDraft.problem?, if_neg hname, if_neg (mt InstanceDraft.hasTakenName_iff.mpr h.free),
    if_neg hrun]

theorem Configures.isBlank_home_iff :
    Text.isBlank draft.home = true ↔ ∃ t ∈ settings.defaultHome, Text.isBlank t = true := by
  rw [h.home, isBlank_getD_iff not_isBlank_defaultHome]

theorem Configures.isBlank_logDirectory_iff :
    Text.isBlank draft.logDirectory = true ↔
      ∃ t ∈ settings.defaultLogDirectory, Text.isBlank t = true := by
  rw [h.logDirectory, isBlank_getD_iff not_isBlank_defaultLogDirectory]

/-- Settings and the drafts with their directories fail alike, and for the same directory. -/
theorem Configures.validate_iff_accept {family : Family} (hfamily : settings.family = .ok family)
    (hlimit : settings.payloadLimit ≠ 0) :
    ((∃ cause, settings.validate = .error cause) ↔ ∃ cause, draft.accept = .error cause) ∧
      ∀ entry ∈ directoryArguments, settings.validate = .error (.blankDirectory entry.1) ↔
        draft.accept = .error (.missingArgument entry.2) := by
  simp only [InstanceDraft.accept_eq_error_iff, h.problem?, h.isBlank_home_iff,
    h.isBlank_logDirectory_iff, directoryArguments, List.forall_mem_cons]
  by_cases hhome : ∃ t ∈ settings.defaultHome, Text.isBlank t = true
  · rw [validate_of_blankHome hfamily hhome, if_pos hhome]
    simp
  · by_cases hlogs : ∃ t ∈ settings.defaultLogDirectory, Text.isBlank t = true
    · rw [validate_of_blankLogDirectory hfamily hhome hlogs, if_neg hhome, if_pos hlogs]
      simp
    · rw [validate_eq_ok hfamily hhome hlogs hlimit, if_neg hhome, if_neg hlogs]
      simp

end Configured

end Settings

namespace InstanceDraft

variable {draft : InstanceDraft}

theorem isBlank_home_of_problem? (h : draft.problem? = some (.missingArgument .instanceHome)) :
    Text.isBlank draft.home = true := by
  rw [problem?] at h
  grind

theorem isBlank_logDirectory_of_problem? (h : draft.problem? = some (.missingArgument .logDirectory)) :
    Text.isBlank draft.logDirectory = true := by
  rw [problem?] at h
  grind

end InstanceDraft

namespace CommandLine.RenderRequest

variable {request : RenderRequest} {settings : Settings}

/-- With settings that pass their check, a script fails for an export, for the instance that is
described, or in rendering. -/
theorem eq_of_script_eq_error (hvalid : settings.validate = .ok ()) {failure : Failure}
    (h : request.script settings = .error failure) :
    (∃ text, failure = .invalidExport text) ∨
      (∃ cause, (request.readableDraft settings).problem? = some cause ∧ failure = .script cause) ∨
      ∃ cause, failure = .script (.render cause) := by
  by_cases hexports : ∀ text ∈ request.exports, IsExport text
  · cases hproblem : (request.readableDraft settings).problem? with
    | some cause =>
      rw [script_of_problem? hvalid hexports hproblem] at h
      exact Or.inr (Or.inl ⟨cause, rfl, (Except.error.inj h).symm⟩)
    | none =>
      obtain ⟨family, hfamily⟩ := request.exists_isFor hvalid
      let i : Instance := ⟨request.readableDraft settings, hproblem⟩
      rw [script_eq_of_exports hvalid hfamily hexports,
        InstanceDraft.accept_eq_ok_iff.mpr (show i.toInstanceDraft = _ from rfl)] at h
      change (i.build family).mapError Failure.script = _ at h
      cases hbuild : i.build family with
      | ok script => simp [hbuild, Except.mapError] at h
      | error cause =>
        obtain ⟨render, rfl⟩ := Instance.build_eq_error hbuild
        rw [hbuild] at h
        exact Or.inr (Or.inr ⟨render, (Except.error.inj h).symm⟩)
  · obtain ⟨before, text, after, hsplit, hbefore, hbad⟩ := exists_first_not hexports
    rw [script_of_not_isExport hvalid hsplit hbefore hbad] at h
    exact Or.inl ⟨text, (Except.error.inj h).symm⟩

theorem problem?_of_script_eq_error (hvalid : settings.validate = .ok ())
    {argument : RequiredArgument}
    (h : request.script settings = .error (.script (.missingArgument argument))) :
    (request.readableDraft settings).problem? = some (.missingArgument argument) := by
  rcases eq_of_script_eq_error hvalid h with ⟨_, hexport⟩ | ⟨cause, hproblem, hcause⟩ | ⟨_, hrender⟩
  · cases hexport
  · rw [hproblem, Failure.script.inj hcause]
  · cases hrender

/-- A directory that a request leaves out is never missing. -/
theorem script_ne_missingHome (hvalid : settings.validate = .ok ()) (habsent : request.home = none) :
    request.script settings ≠ .error (.script (.missingArgument .instanceHome)) := by
  intro h
  have hblank := InstanceDraft.isBlank_home_of_problem? (problem?_of_script_eq_error hvalid h)
  rw [readableDraft, draft, habsent, Option.none_or,
    Settings.isBlank_getD_iff Settings.not_isBlank_defaultHome] at hblank
  exact (Settings.not_isBlank_of_validate hvalid).1 hblank

theorem script_ne_missingLogDirectory (hvalid : settings.validate = .ok ())
    (habsent : request.logDirectory = none) :
    request.script settings ≠ .error (.script (.missingArgument .logDirectory)) := by
  intro h
  have hblank := InstanceDraft.isBlank_logDirectory_of_problem? (problem?_of_script_eq_error hvalid h)
  rw [readableDraft, draft, habsent, Option.none_or,
    Settings.isBlank_getD_iff Settings.not_isBlank_defaultLogDirectory] at hblank
  exact (Settings.not_isBlank_of_validate hvalid).2 hblank

end CommandLine.RenderRequest

namespace Settings

open CommandLine

/-- Settings that pass their check always give a family, and never make a script fail for themselves or
for a directory that its request leaves out. They fail their check for a directory exactly when a draft
with these directories fails for it, and give a family exactly when their text for it is the name of one,
whatever its case and the white space around it. -/
theorem validate_agrees (settings : Settings) :
    (settings.validate = .ok () → ∀ request : RenderRequest,
      (∃ family, request.chooseFamily settings = .ok family) ∧
      (∀ cause, request.script settings ≠ .error (.settings cause)) ∧
      (request.home = none →
        request.script settings ≠ .error (.script (.missingArgument .instanceHome))) ∧
      (request.logDirectory = none →
        request.script settings ≠ .error (.script (.missingArgument .logDirectory)))) ∧
    (∀ family draft, settings.payloadLimit ≠ 0 → settings.family = .ok family →
      settings.Configures draft →
      ((∃ cause, settings.validate = .error cause) ↔ ∃ cause, draft.accept = .error cause) ∧
      ∀ entry ∈ directoryArguments, settings.validate = .error (.blankDirectory entry.1) ↔
        draft.accept = .error (.missingArgument entry.2)) ∧
    (∀ family, settings.family = .ok family ↔
      ∃ word, Text.IsTrimOf word settings.defaultFamily ∧ word.lower = family.name) ∧
    ∀ cause, settings.family = .error cause → cause = .unknownFamily settings.defaultFamily := by
  refine ⟨fun hvalid request => ⟨?_, fun cause hfailed => ?_, request.script_ne_missingHome hvalid,
      request.script_ne_missingLogDirectory hvalid⟩,
    fun family draft hlimit hfamily hdraft => hdraft.validate_iff_accept hfamily hlimit,
    fun family => family_eq_ok_iff, fun cause => family_eq_error⟩
  · obtain ⟨family, hfamily⟩ := request.exists_isFor hvalid
    exact ⟨family, RenderRequest.chooseFamily_eq_ok_iff.mpr hfamily⟩
  · rcases RenderRequest.eq_of_script_eq_error hvalid hfailed with
      ⟨_, hexport⟩ | ⟨_, -, hscript⟩ | ⟨_, hrender⟩
    · cases hexport
    · cases hscript
    · cases hrender

/-- A wide space is blank for settings, and for the drafts that they give a home. -/
example :
    validate { Settings.default with defaultFamily := " UNIX\u00a0", defaultHome := some "\u3000" } =
      .error (.blankDirectory .defaultHome) ∧
    InstanceDraft.problem? { InstanceDraft.new "web" with home := "\u3000", run := [.kill] } =
      some (.missingArgument .instanceHome) := by
  decide

end Settings

end DualShell
