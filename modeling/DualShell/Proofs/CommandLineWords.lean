import DualShell.CommandLine.Words

/-!
What the words of a command line say. The flags that words spell are given by rules, one for each
way to write a flag, and what a request takes from them by one equation for each of its parts.
Reading the words finds a request exactly when they spell one.
-/

namespace DualShell

theorem Family.ofName?_eq_some_iff {name : Text} {family : Family} :
    ofName? name = some family ↔ family.name = name := by
  constructor
  · intro h
    simpa using List.find?_some h
  · rintro rfl
    exact family.ofName?_name

namespace CommandLine

namespace Flag

/-- The flag as it is written. -/
def word (flag : Flag) : Text := '-' :: '-' :: flag.spelling

theorem spelling_injective {a b : Flag} (h : a.spelling = b.spelling) : a = b := by
  revert h
  cases a <;> cases b <;> decide

theorem equals_notMem_spelling (flag : Flag) : '=' ∉ flag.spelling := by
  cases flag <;> decide

theorem word_ne_endOfFlags (flag : Flag) : flag.word ≠ endOfFlags := by
  cases flag <;> decide

theorem word_append_ne_endOfFlags (flag : Flag) (value : Text) :
    flag.word ++ '=' :: value ≠ endOfFlags := by
  have hlength : endOfFlags.length = 2 := rfl
  intro h
  have := congrArg List.length h
  simp only [word, List.cons_append, List.length_cons, List.length_append] at this
  omega

end Flag

/-- Words that spell occurrences of known flags: a value follows its flag after an equals sign, or
in the next word if it does not look like a flag, and nothing stands behind the end of flags. -/
inductive Spells (known : List Flag) : List Text → List Occurrence → Prop
  | nil : Spells known [] []
  | endOfFlags : Spells known [endOfFlags] []
  | attached {flag : Flag} {value : Text} {words : List Text} {occurrences : List Occurrence}
      (hknown : flag ∈ known) (hvalue : flag.takesValue = true)
      (hrest : Spells known words occurrences) :
      Spells known ((flag.word ++ '=' :: value) :: words) ((flag, value) :: occurrences)
  | separate {flag : Flag} {value : Text} {words : List Text} {occurrences : List Occurrence}
      (hknown : flag ∈ known) (hvalue : flag.takesValue = true) (hword : isValueWord value = true)
      (hrest : Spells known words occurrences) :
      Spells known (flag.word :: value :: words) ((flag, value) :: occurrences)
  | bare {flag : Flag} {words : List Text} {occurrences : List Occurrence}
      (hknown : flag ∈ known) (hvalue : flag.takesValue = false)
      (hrest : Spells known words occurrences) :
      Spells known (flag.word :: words) ((flag, []) :: occurrences)

theorem ne_equals_of_mem {key : Text} (h : '=' ∉ key) : ∀ c ∈ key, decide (c ≠ '=') = true := by
  intro c hc
  rw [decide_eq_true_eq]
  rintro rfl
  exact h hc

theorem takeWhile_ne_equals {key : Text} (h : '=' ∉ key) : key.takeWhile (· ≠ '=') = key := by
  have happend : (key ++ []).takeWhile (· ≠ '=') = key ++ [].takeWhile (· ≠ '=') :=
    List.takeWhile_append_of_pos (ne_equals_of_mem h)
  simpa using happend

theorem takeWhile_ne_equals_append {key : Text} (h : '=' ∉ key) (value : Text) :
    (key ++ '=' :: value).takeWhile (· ≠ '=') = key := by
  rw [List.takeWhile_append_of_pos (ne_equals_of_mem h)]
  simp

theorem readFlagWord?_of_notMem {spelling : Text} (h : '=' ∉ spelling) :
    readFlagWord? ('-' :: '-' :: spelling) = some (spelling, none) := by
  simp only [readFlagWord?, takeWhile_ne_equals h, List.drop_length]

theorem readFlagWord?_append {spelling : Text} (h : '=' ∉ spelling) (value : Text) :
    readFlagWord? ('-' :: '-' :: (spelling ++ '=' :: value)) = some (spelling, some value) := by
  simp only [readFlagWord?, takeWhile_ne_equals_append h, List.drop_left]

/-- A word that is a flag is two hyphens and its spelling, with a value behind an equals sign if it
has one. -/
theorem eq_of_readFlagWord? {word spelling : Text} {attached : Option Text}
    (h : readFlagWord? word = some (spelling, attached)) :
    word = '-' :: '-' :: (spelling ++ (attached.map ('=' :: ·)).getD []) := by
  unfold readFlagWord? at h
  split at h
  · next rest =>
    change readFlagWord? ('-' :: '-' :: rest) = _ at h
    by_cases hequals : '=' ∈ rest
    · obtain ⟨key, value, rfl, hkey⟩ := List.eq_append_cons_of_mem hequals
      rw [readFlagWord?_append hkey, Option.some.injEq, Prod.mk.injEq] at h
      obtain ⟨rfl, rfl⟩ := h
      rfl
    · rw [readFlagWord?_of_notMem hequals, Option.some.injEq, Prod.mk.injEq] at h
      obtain ⟨rfl, rfl⟩ := h
      rw [Option.map_none, Option.getD_none, List.append_nil]
  · cases h

theorem find?_spelling {known : List Flag} {flag : Flag} (h : flag ∈ known) :
    known.find? (·.spelling = flag.spelling) = some flag := by
  cases hfind : known.find? (·.spelling = flag.spelling) with
  | none => simpa using List.find?_eq_none.mp hfind flag h
  | some found =>
    have hspelling : found.spelling = flag.spelling := by simpa using List.find?_some hfind
    rw [Flag.spelling_injective hspelling]

theorem mem_and_spelling_of_find? {known : List Flag} {spelling : Text} {flag : Flag}
    (h : known.find? (·.spelling = spelling) = some flag) :
    flag ∈ known ∧ flag.spelling = spelling :=
  ⟨List.mem_of_find?_eq_some h, by simpa using List.find?_some h⟩

variable {known : List Flag}

/-- Reading finds what the words spell behind a flag whose value is still to come. -/
theorem spells_of_readFlagsFrom? {pending : Option Flag} {words : List Text}
    {occurrences : List Occurrence} (h : readFlagsFrom? known pending words = some occurrences)
    (hpending : ∀ flag ∈ pending, flag ∈ known ∧ flag.takesValue = true) :
    Spells known (pending.toList.map Flag.word ++ words) occurrences := by
  fun_induction readFlagsFrom? known pending words generalizing occurrences with
  | case1 =>
    obtain rfl := Option.some.inj h
    exact .nil
  | case3 flag word rest hword ih =>
    obtain ⟨others, hothers, rfl⟩ := Option.map_eq_some_iff.mp h
    obtain ⟨hknown, hvalue⟩ := hpending flag rfl
    exact .separate hknown hvalue hword (ih hothers nofun)
  | case5 =>
    obtain rfl := Option.some.inj h
    exact .endOfFlags
  | case9 word rest _ spelling flag hflag value hvalue hread ih =>
    obtain ⟨others, hothers, rfl⟩ := Option.map_eq_some_iff.mp h
    obtain ⟨hknown, rfl⟩ := mem_and_spelling_of_find? hflag
    rw [eq_of_readFlagWord? hread]
    exact .attached hknown hvalue (ih hothers nofun)
  | case10 word rest _ spelling flag hflag hvalue hread ih =>
    obtain ⟨hknown, rfl⟩ := mem_and_spelling_of_find? hflag
    have hword : word = flag.word := by simpa [Flag.word] using eq_of_readFlagWord? hread
    rw [hword]
    exact ih h (by simp [hknown, hvalue])
  | case11 word rest _ spelling flag hflag hvalue hread ih =>
    obtain ⟨others, hothers, rfl⟩ := Option.map_eq_some_iff.mp h
    obtain ⟨hknown, rfl⟩ := mem_and_spelling_of_find? hflag
    have hword : word = flag.word := by simpa [Flag.word] using eq_of_readFlagWord? hread
    rw [hword]
    exact .bare hknown hvalue (ih hothers nofun)
  | case2 | case4 | case6 | case7 | case8 | case12 => cases h

theorem readFlags?_of_spells {words : List Text} {occurrences : List Occurrence}
    (h : Spells known words occurrences) : readFlags? known words = some occurrences := by
  rw [readFlags?]
  induction h with
  | nil => rfl
  | endOfFlags => simp [readFlagsFrom?]
  | @attached flag value words occurrences hknown hvalue _ ih =>
    rw [readFlagsFrom?, if_neg (flag.word_append_ne_endOfFlags value), Flag.word]
    simp [readFlagWord?_append flag.equals_notMem_spelling, find?_spelling hknown, hvalue, ih]
  | @separate flag value words occurrences hknown hvalue hword _ ih =>
    rw [readFlagsFrom?, if_neg flag.word_ne_endOfFlags, Flag.word]
    simp [readFlagWord?_of_notMem flag.equals_notMem_spelling, find?_spelling hknown, hvalue, hword,
      readFlagsFrom?, ih]
  | @bare flag words occurrences hknown hvalue _ ih =>
    rw [readFlagsFrom?, if_neg flag.word_ne_endOfFlags, Flag.word]
    simp [readFlagWord?_of_notMem flag.equals_notMem_spelling, find?_spelling hknown, hvalue, ih]

theorem readFlags?_eq_some_iff {words : List Text} {occurrences : List Occurrence} :
    readFlags? known words = some occurrences ↔ Spells known words occurrences :=
  ⟨fun h => spells_of_readFlagsFrom? h nofun, readFlags?_of_spells⟩

theorem optional?_eq_some_iff {flag : Flag} {occurrences : List Occurrence} {value : Option Text} :
    optional? flag occurrences = some value ↔ valuesOf flag occurrences = value.toList := by
  unfold optional?
  split
  · next h => cases value <;> simp [h]
  · next h => cases value <;> simp [h]
  · next hnil hsingleton =>
    cases value with
    | none => simpa using hnil
    | some v => simpa using hsingleton v

/-- A flag that occurs at most once has no value or one. -/
theorem exists_optional?_of_length {flag : Flag} {occurrences : List Occurrence} {occurs : Bool}
    (h : (valuesOf flag occurrences).length = occurs.toNat) :
    ∃ value, optional? flag occurrences = some value ∧ value.isSome = occurs := by
  cases occurs with
  | false => exact ⟨none, optional?_eq_some_iff.mpr (List.eq_nil_of_length_eq_zero h), rfl⟩
  | true =>
    obtain ⟨value, hvalue⟩ := List.length_eq_one_iff.mp h
    exact ⟨some value, optional?_eq_some_iff.mpr hvalue, rfl⟩

theorem readFamily?_eq_some_iff {occurrences : List Occurrence} {family : Option Family} :
    readFamily? occurrences = some family ↔
      valuesOf .family occurrences = (family.map Family.name).toList := by
  rw [readFamily?]
  constructor
  · intro h
    obtain ⟨value, hvalue, h⟩ := Option.bind_eq_some_iff.mp h
    rw [optional?_eq_some_iff.mp hvalue]
    cases value with
    | none =>
      obtain rfl := Option.some.inj h
      rfl
    | some name =>
      obtain ⟨chosen, hchosen, h⟩ := Option.bind_eq_some_iff.mp h
      obtain rfl := Option.some.inj h
      rw [← Family.ofName?_eq_some_iff.mp hchosen]
      rfl
  · intro h
    rw [optional?_eq_some_iff.mpr h]
    cases family with
    | none => rfl
    | some chosen => simp [chosen.ofName?_name]

/-- Whether a request takes its parts from the flags that occur: it has a name and something to run,
other flags with one value occur at most once, and the family goes by its exact name. -/
structure RenderRequest.IsTakenFrom (request : RenderRequest) (occurrences : List Occurrence) :
    Prop where
  name : valuesOf .name occurrences = [request.name]
  home : valuesOf .home occurrences = request.home.toList
  logDirectory : valuesOf .logDirectory occurrences = request.logDirectory.toList
  family : valuesOf .family occurrences = (request.family.map Family.name).toList
  exports : valuesOf .exported occurrences = request.exports
  init : valuesOf .init occurrences = request.init
  run : valuesOf .run occurrences = request.run
  run_ne_nil : request.run ≠ []
  output : valuesOf .output occurrences = request.output.toList
  diagnostics : (valuesOf .diagnostics occurrences).length = request.diagnostics.toNat

theorem RenderRequest.ofFlags?_eq_some_iff {request : RenderRequest}
    {occurrences : List Occurrence} :
    ofFlags? occurrences = some request ↔ request.IsTakenFrom occurrences := by
  constructor
  · intro h
    simp only [ofFlags?, Option.bind_eq_bind, Option.bind_eq_some_iff] at h
    obtain ⟨_, hname, name, rfl, home, hhome, logDirectory, hlogs, family, hfamily, output, houtput,
      diagnostics, hdiagnostics, h⟩ := h
    split at h
    · cases h
    · next hrun =>
      obtain rfl := Option.some.inj h
      exact {
        name := optional?_eq_some_iff.mp hname
        home := optional?_eq_some_iff.mp hhome
        logDirectory := optional?_eq_some_iff.mp hlogs
        family := readFamily?_eq_some_iff.mp hfamily
        exports := rfl
        init := rfl
        run := rfl
        run_ne_nil := hrun
        output := optional?_eq_some_iff.mp houtput
        diagnostics := by
          rw [optional?_eq_some_iff.mp hdiagnostics]
          cases diagnostics <;> rfl }
  · intro h
    obtain ⟨diagnostics, hdiagnostics, hasked⟩ := exists_optional?_of_length h.diagnostics
    have hrun : valuesOf .run occurrences ≠ [] := h.run ▸ h.run_ne_nil
    simp only [ofFlags?, Option.bind_eq_bind, Option.bind_eq_some_iff]
    refine ⟨some request.name, optional?_eq_some_iff.mpr h.name, request.name, rfl,
      request.home, optional?_eq_some_iff.mpr h.home,
      request.logDirectory, optional?_eq_some_iff.mpr h.logDirectory,
      request.family, readFamily?_eq_some_iff.mpr h.family,
      request.output, optional?_eq_some_iff.mpr h.output, diagnostics, hdiagnostics, ?_⟩
    rw [if_neg hrun, h.exports, h.init, h.run, hasked]
    rfl

/-- Whether words spell the flags that a request takes its parts from. -/
def RenderRequest.IsSpelled (request : RenderRequest) (words : List Text) : Prop :=
  ∃ occurrences, Spells Flag.ofRender words occurrences ∧ request.IsTakenFrom occurrences

/-- The command to write a script is read exactly when its words spell the request. -/
theorem readCommand?_eq_some_iff {words : List Text} {command : Command} :
    readCommand? ("render" :: words) = some command ↔
      ∃ request : RenderRequest, request.IsSpelled words ∧ command = .render request := by
  have hrender : readCommand? ("render" :: words) = (do
      let occurrences ← readFlags? Flag.ofRender words
      return .render (← RenderRequest.ofFlags? occurrences)) := rfl
  simp only [hrender, Option.bind_eq_bind, Option.bind_eq_some_iff, Option.pure_def,
    Option.some.injEq, readFlags?_eq_some_iff, RenderRequest.ofFlags?_eq_some_iff]
  constructor
  · rintro ⟨occurrences, hwords, request, hrequest, rfl⟩
    exact ⟨request, ⟨occurrences, hwords, hrequest⟩, rfl⟩
  · rintro ⟨request, ⟨occurrences, hwords, hrequest⟩, rfl⟩
    exact ⟨occurrences, hwords, request, hrequest, rfl⟩

end CommandLine

end DualShell
