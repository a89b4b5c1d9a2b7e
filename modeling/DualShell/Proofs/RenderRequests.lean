import DualShell.CommandLine.Outcome
import DualShell.Proofs.CommandLineWords
import DualShell.Proofs.InstanceAcceptance

/-!
What a request to write a script comes to. Its exports are read one by one, its instance is checked
and built, and the script is delivered unless it is refused for its size or its path names no file.
-/

namespace DualShell.CommandLine

open Passes

/-- Whether a text gives a variable: what stands before its first equals sign is not blank and is,
but for the white space around it, the key; all that follows is the value. -/
def Exports (text : Text) (entry : Text × Text) : Prop :=
  ∃ key, text = key ++ '=' :: entry.2 ∧ '=' ∉ key ∧ Text.isBlank key = false ∧
    entry.1 = Text.trim key

/-- Whether a text gives some variable for the run script. -/
def IsExport (text : Text) : Prop := ∃ entry, Exports text entry

theorem readExport?_append {key : Text} (h : '=' ∉ key) (value : Text) :
    readExport? (key ++ '=' :: value) =
      if Text.isBlank key then none else some (Text.trim key, value) := by
  simp only [readExport?, takeWhile_ne_equals_append h, List.drop_left]

theorem readExport?_eq_some_iff {text : Text} {entry : Text × Text} :
    readExport? text = some entry ↔ Exports text entry := by
  obtain ⟨key, value⟩ := entry
  constructor
  · intro h
    by_cases hequals : '=' ∈ text
    · obtain ⟨untrimmed, rest, rfl, hnot⟩ := List.eq_append_cons_of_mem hequals
      rw [readExport?_append hnot] at h
      split at h
      · cases h
      · next hblank =>
        rw [Option.some.injEq, Prod.mk.injEq] at h
        obtain ⟨rfl, rfl⟩ := h
        exact ⟨untrimmed, rfl, hnot, by simpa using hblank, rfl⟩
    · rw [readExport?, takeWhile_ne_equals hequals, List.drop_length] at h
      cases h
  · rintro ⟨untrimmed, rfl, hnot, hblank, rfl⟩
    rw [readExport?_append hnot, hblank]
    rfl

theorem isSome_readExport?_iff {text : Text} :
    (readExport? text).isSome = true ↔ IsExport text := by
  simp only [Option.isSome_iff_exists, readExport?_eq_some_iff, IsExport]

theorem readExport_eq_error {text : Text} (h : ¬IsExport text) :
    readExport text = .error (.invalidExport text) := by
  have hnone : readExport? text = none := by simpa [← isSome_readExport?_iff] using h
  rw [readExport, hnone]

theorem readExport_eq_ok_iff {text : Text} {entry : Text × Text} :
    readExport text = .ok entry ↔ Exports text entry := by
  rw [readExport, ← readExport?_eq_some_iff]
  cases readExport? text <;> simp

theorem traverse_readExport_eq_ok_iff {texts : List Text} {entries : List (Text × Text)} :
    traverse readExport texts = .ok entries ↔
      (∀ text ∈ texts, IsExport text) ∧ entries = texts.filterMap readExport? := by
  induction texts generalizing entries with
  | nil => simp [traverse, eq_comm]
  | cons text rest ih =>
    simp only [traverse_cons_eq_ok, ih, readExport_eq_ok_iff, List.forall_mem_cons]
    constructor
    · rintro ⟨entry, _, hentry, ⟨hrest, rfl⟩, rfl⟩
      exact ⟨⟨⟨entry, hentry⟩, hrest⟩,
        by rw [List.filterMap_cons_some (readExport?_eq_some_iff.mpr hentry)]⟩
    · rintro ⟨⟨⟨entry, hentry⟩, hrest⟩, rfl⟩
      exact ⟨entry, _, hentry, ⟨hrest, rfl⟩,
        by rw [List.filterMap_cons_some (readExport?_eq_some_iff.mpr hentry)]⟩

/-- Whether a script is refused for its size. -/
def IsRefused (settings : Settings) (script : Script) : Prop :=
  settings.payloadLimit < Text.utf8Size script.text ∧ settings.failOnOversize = true

/-- The size of a script that is let pass although it is too large. -/
def warning? (settings : Settings) (script : Script) : Option Oversize :=
  if settings.payloadLimit < Text.utf8Size script.text ∧ settings.failOnOversize = false then
    some ⟨Text.utf8Size script.text, settings.payloadLimit⟩
  else none

section

variable {settings : Settings} {script : Script}

theorem exceeds_iff {limit : Nat} :
    script.exceeds limit = true ↔ limit < Text.utf8Size script.text :=
  decide_eq_true_iff

theorem warning?_of_isRefused (h : IsRefused settings script) :
    warning? settings script = none := by
  rw [warning?, if_neg]
  rintro ⟨-, hpass⟩
  rw [h.2] at hpass
  cases hpass

theorem checkSize_of_isRefused (h : IsRefused settings script) :
    checkSize settings script =
      .error (.oversize (Text.utf8Size script.text) settings.payloadLimit) := by
  rw [checkSize, if_pos (exceeds_iff.mpr h.1), if_pos h.2]
  rfl

theorem checkSize_of_not_isRefused (h : ¬IsRefused settings script) :
    checkSize settings script = .ok (warning? settings script) := by
  rw [checkSize, warning?]
  by_cases hsize : settings.payloadLimit < Text.utf8Size script.text
  · have hpass : settings.failOnOversize = false := by
      simpa using fun hrefuse => h ⟨hsize, hrefuse⟩
    rw [if_pos (exceeds_iff.mpr hsize), if_neg (by simp [hpass]), if_pos ⟨hsize, hpass⟩]
    rfl
  · rw [if_neg (mt exceeds_iff.mp hsize), if_neg fun hpass => hsize hpass.1]

end

namespace RenderRequest

variable {request : RenderRequest} {settings : Settings}

/-- Whether scripts are for a family: the one that the request names, or else that of the settings.
-/
def IsFor (request : RenderRequest) (settings : Settings) (family : Family) : Prop :=
  request.family.or settings.family.toOption = some family

/-- The instance that a request describes, with those of its exports that give a variable. -/
def readableDraft (request : RenderRequest) (settings : Settings) : InstanceDraft :=
  request.draft settings (request.exports.filterMap readExport?)

/-- Whether a script is what the instance that a request describes comes to. -/
def HasScript (request : RenderRequest) (settings : Settings) (script : Script) : Prop :=
  ∃ (family : Family) (i : Instance), request.IsFor settings family ∧
    i.toInstanceDraft = request.readableDraft settings ∧ i.build family = .ok script

theorem exists_isFor (request : RenderRequest) (h : settings.validate = .ok ()) :
    ∃ family, request.IsFor settings family := by
  obtain ⟨family, hfamily, -⟩ := bind_eq_ok.mp h
  cases hrequest : request.family with
  | none => exact ⟨family, by rw [IsFor, hrequest, hfamily]; rfl⟩
  | some named => exact ⟨named, by rw [IsFor, hrequest]; rfl⟩

theorem chooseFamily_eq_ok_iff {family : Family} :
    request.chooseFamily settings = .ok family ↔ request.IsFor settings family := by
  rw [chooseFamily, IsFor]
  cases request.family with
  | some named => simp
  | none =>
    rw [mapError_eq_ok, Option.none_or]
    cases settings.family <;> simp [Except.toOption]

theorem script_eq_of_validate {family : Family} (hvalid : settings.validate = .ok ())
    (hfamily : request.IsFor settings family) :
    request.script settings = (do
      let exports ← traverse readExport request.exports
      let accepted ← (request.draft settings exports).accept.mapError .script
      (accepted.build family).mapError .script) := by
  rw [RenderRequest.script, hvalid, chooseFamily_eq_ok_iff.mpr hfamily]
  rfl

theorem script_eq_of_exports {family : Family} (hvalid : settings.validate = .ok ())
    (hfamily : request.IsFor settings family) (hexports : ∀ text ∈ request.exports, IsExport text) :
    request.script settings = (do
      let accepted ← (request.readableDraft settings).accept.mapError .script
      (accepted.build family).mapError .script) := by
  rw [script_eq_of_validate hvalid hfamily, traverse_readExport_eq_ok_iff.mpr ⟨hexports, rfl⟩]
  rfl

theorem script_of_validate_error {cause : SettingsError} (h : settings.validate = .error cause) :
    request.script settings = .error (.settings cause) := by
  rw [RenderRequest.script, h]
  rfl

/-- The first export that gives no variable is reported. -/
theorem script_of_not_isExport {before after : List Text} {text : Text}
    (hvalid : settings.validate = .ok ()) (hexports : request.exports = before ++ text :: after)
    (hbefore : ∀ other ∈ before, IsExport other) (h : ¬IsExport text) :
    request.script settings = .error (.invalidExport text) := by
  obtain ⟨family, hfamily⟩ := request.exists_isFor hvalid
  have hgood : ∀ other ∈ before, ∃ entry, readExport other = .ok entry := by
    intro other hother
    obtain ⟨entry, hentry⟩ := hbefore other hother
    exact ⟨entry, readExport_eq_ok_iff.mpr hentry⟩
  rw [script_eq_of_validate hvalid hfamily, hexports,
    traverse_append_cons_error hgood (readExport_eq_error h)]
  rfl

theorem script_of_problem? {cause : ScriptError} (hvalid : settings.validate = .ok ())
    (hexports : ∀ text ∈ request.exports, IsExport text)
    (h : (request.readableDraft settings).problem? = some cause) :
    request.script settings = .error (.script cause) := by
  obtain ⟨family, hfamily⟩ := request.exists_isFor hvalid
  rw [script_eq_of_exports hvalid hfamily hexports, InstanceDraft.accept_eq_error_iff.mpr h]
  rfl

theorem script_of_build_error {family : Family} {i : Instance} {cause : ScriptError}
    (hvalid : settings.validate = .ok ()) (hexports : ∀ text ∈ request.exports, IsExport text)
    (hfamily : request.IsFor settings family)
    (hi : i.toInstanceDraft = request.readableDraft settings) (h : i.build family = .error cause) :
    request.script settings = .error (.script cause) := by
  rw [script_eq_of_exports hvalid hfamily hexports, InstanceDraft.accept_eq_ok_iff.mpr hi]
  change (i.build family).mapError Failure.script = _
  rw [h]
  rfl

/-- A script is written when the settings are sound, every export gives a variable and the instance
that the request describes has a script. -/
theorem script_eq_ok_iff {script : Script} :
    request.script settings = .ok script ↔
      settings.validate = .ok () ∧ (∀ text ∈ request.exports, IsExport text) ∧
        request.HasScript settings script := by
  simp only [RenderRequest.script, bind_eq_ok, mapError_eq_ok, chooseFamily_eq_ok_iff,
    traverse_readExport_eq_ok_iff, InstanceDraft.accept_eq_ok_iff]
  constructor
  · rintro ⟨_, hvalid, family, hfamily, _, ⟨hexports, rfl⟩, i, hi, hbuild⟩
    exact ⟨hvalid, hexports, family, i, hfamily, hi, hbuild⟩
  · rintro ⟨hvalid, hexports, family, i, hfamily, hi, hbuild⟩
    exact ⟨(), hvalid, family, hfamily, _, ⟨hexports, rfl⟩, i, hi, hbuild⟩

/-- The summary of a script if it is asked for. -/
def summary? (request : RenderRequest) (script : Script) : Option Diagnostics :=
  if request.diagnostics then some script.diagnostics else none

variable {script : Script}

theorem deliver_of_isRefused (h : IsRefused settings script) :
    request.deliver settings script =
      ⟨some (.oversize (Text.utf8Size script.text) settings.payloadLimit),
        request.summary? script, warning? settings script, [], none⟩ := by
  rw [deliver, checkSize_of_isRefused h, warning?_of_isRefused h]
  rfl

theorem deliver_of_output_eq_none (h : ¬IsRefused settings script)
    (houtput : request.output = none) :
    request.deliver settings script =
      ⟨none, request.summary? script, warning? settings script, script.text, none⟩ := by
  rw [deliver, checkSize_of_not_isRefused h, houtput]
  rfl

theorem deliver_of_ofText?_eq_none {path : Text} (h : ¬IsRefused settings script)
    (houtput : request.output = some path) (hpath : FilePath.ofText? path = none) :
    request.deliver settings script =
      ⟨some (.missingFileName path), request.summary? script, warning? settings script, [],
        none⟩ := by
  simp only [deliver, checkSize_of_not_isRefused h, houtput, chooseFile, hpath]
  rfl

theorem deliver_of_ofText?_eq_some {path : Text} {file : FilePath} (h : ¬IsRefused settings script)
    (houtput : request.output = some path) (hpath : FilePath.ofText? path = some file) :
    request.deliver settings script =
      ⟨none, request.summary? script, warning? settings script, [], some (file, script.text)⟩ := by
  simp only [deliver, checkSize_of_not_isRefused h, houtput, chooseFile, hpath]
  rfl

end RenderRequest

end DualShell.CommandLine
