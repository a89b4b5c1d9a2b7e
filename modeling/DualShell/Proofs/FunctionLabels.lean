import DualShell.Proofs.LabelIndex
import DualShell.Proofs.LibrarySearch

/-!
Labels of functions, on the side of a call and on the side of a definition. The label of a name is an
identifier, and it is its own label, so that it makes no difference how often a name is turned into its
label: calls, definitions, dependencies, scopes and the checks of names all agree.
-/

namespace DualShell

open LibraryFunction Passes

namespace Label

variable {name : Text} {family : Family}

theorem ofName_eq_self_iff : ofName name = name ↔ IsIdentifier name :=
  ⟨fun h => h ▸ isIdentifier_ofName name, ofName_eq_self⟩

theorem ofName_ofName (name : Text) : ofName (ofName name) = ofName name :=
  ofName_eq_self (isIdentifier_ofName name)

theorem isInternal_ofName (name : Text) : isInternal (ofName name) = isInternal name := by
  rw [isInternal, isInternal, ofName_ofName]

/-- Only underscores are put into a label that are not in the name. -/
theorem eq_of_ofName_eq {label : Text} (hlabel : '_' ∉ label) (h : ofName name = label) :
    name = label := by
  have hkept {c : Char} (hc : identifierChar c ≠ '_') : identifierChar c = c := by
    rw [identifierChar] at hc ⊢
    exact if_pos (by_contra fun hword => hc (if_neg hword))
  have hmap : name.map identifierChar = label := by
    rw [ofName] at h
    split at h
    · exact absurd (h ▸ List.mem_singleton_self '_') hlabel
    · next c rest hmap =>
      split at h
      · exact absurd (h ▸ List.mem_cons_self) hlabel
      · rw [hmap, h]
  have hself : name.map identifierChar = name.map id := by
    refine List.map_congr_left fun c hc => hkept fun hunderscore => hlabel ?_
    rw [← hmap, ← hunderscore]
    exact List.mem_map_of_mem hc
  rw [← hmap, hself, List.map_id]

/-! ### What a text calls and what it defines -/

/-- What stands in front of the label in a call. -/
def callOpening : Family → Text
  | .unix => []
  | .windows => "call :"

/-- The label that the text of a call invokes: the word after the opening of the call, which ends at a
space or where the line does. -/
def invoked? (t : Text) (family : Family) : Option Text :=
  (t.dropPrefix? (callOpening family)).map fun rest =>
    rest.takeWhile fun c => c ≠ ' ' ∧ c ∉ family.lineEnd

/-- The label of the function that a text defines on its first line. -/
def defined? (t : Text) : Family → Option Text
  | .unix => (Text.split '\n' t).head?.bind fun line => line.dropSuffix? "() \x7b"
  | .windows => (Text.lines t).head?.bind marked?

theorem invoked?_invocationLine {label : Text} (hlabel : IsIdentifier label) (arguments : List Text)
    (family : Family) : invoked? (invocationLine label arguments family) family = some label := by
  have hinvocation : invocation label family = callOpening family ++ label := by
    cases family <;> rfl
  have hwrite : invocationLine label arguments family =
      callOpening family ++ (label ++ (arguments.flatMap (' ' :: ·) ++ family.lineEnd)) := by
    simp only [invocationLine, hinvocation, Family.line, List.append_assoc]
  have hstop : ∀ c ∈ (arguments.flatMap (' ' :: ·) ++ family.lineEnd).head?,
      c = ' ' ∨ c ∈ family.lineEnd := by
    cases arguments with
    | nil => exact fun c hc => Or.inr (List.mem_of_mem_head? hc)
    | cons first others => exact fun c hc => Or.inl (Option.some.inj hc).symm
  have hend : family.lineEnd.all (fun c => !isWordChar c) = true := by cases family <;> decide
  have hword : ∀ c ∈ label, c ≠ ' ' ∧ c ∉ family.lineEnd := by
    refine fun c hc => ⟨?_, fun hmem => hlabel.notMem_of_mem hend hmem hc⟩
    rintro rfl
    exact hlabel.notMem (by decide) hc
  rw [invoked?, hwrite, List.dropPrefix?_append_of_beq _ (beq_self_eq_true _), Option.map_some]
  refine congrArg some (Text.takeWhile_append_of_boundary (fun c hc => decide_eq_true (hword c hc)) ?_)
  intro c hc
  have hc := hstop c hc
  exact decide_eq_false fun h => hc.elim h.1 h.2

theorem defined?_functionDefinition (name body : Text) (family : Family) :
    defined? (functionDefinition name body family) family = some (ofName name) := by
  have hlabel : '\n' ∉ ofName name := not_mem_ofName (by decide) name
  cases family with
  | unix =>
    have hlf : '\n' ∉ ofName name ++ "() \x7b" := by simpa using hlabel
    have hwrite : functionDefinition name body .unix =
        (ofName name ++ "() \x7b") ++ '\n' :: (body ++ Family.unix.block ["   return 0", "\x7d"]) := by
      simp only [functionDefinition, Family.line, List.append_assoc]
      rfl
    rw [defined?, hwrite, Text.split_append_cons, Text.split_of_not_mem hlf]
    exact List.dropSuffix?_eq_some_iff.mpr ⟨_, rfl, beq_self_eq_true _⟩
  | windows =>
    have hlf : '\n' ∉ ':' :: ofName name := by simpa using hlabel
    rw [defined?, functionDefinition, List.append_assoc, Text.lines_windows_line hlf]
    rfl

end Label

/-! ### What a call depends on -/

namespace LibraryFunction

theorem ofName?_ofName (name : Text) : ofName? (Label.ofName name) = ofName? name := by
  have hunderscore : ∀ f : LibraryFunction, '_' ∉ f.name := fun f => by cases f <;> decide
  have hlabel : ∀ f : LibraryFunction, Label.ofName f.name = f.name := fun f => by
    cases f <;> decide
  refine Option.ext fun f => ?_
  rw [ofName?_eq_some, ofName?_eq_some]
  constructor
  · exact fun h => (Label.eq_of_ofName_eq (hunderscore f) h.symm).symm
  · rintro rfl
    exact (hlabel f).symm

/-- Nothing is embedded exactly when all names are defined already. -/
theorem resolve_eq_ok_nil_iff {family : Family} {defined names : List Text} :
    resolve family defined names = .ok [] ↔ ∀ name ∈ names, name ∈ defined := by
  rw [resolve_eq_ok_iff]
  constructor
  · rintro ⟨hdefined, hleast, -⟩ name hname
    by_contra hnot
    obtain ⟨f, rfl⟩ := (hdefined name hname).resolve_left hnot
    exact absurd (hleast.1.1 f ⟨hname, hnot⟩) (by simp)
  · intro h
    refine ⟨fun name hname => Or.inl (h name hname), ⟨⟨?_, by simp⟩, by simp [lowerBounds]⟩, by simp⟩
    exact fun f hf => absurd (h f.name hf.1) hf.2

end LibraryFunction

theorem Scope.isReservedName_ofName (name : Text) :
    isReservedName (Label.ofName name) = isReservedName name := by
  rw [isReservedName, isReservedName, Label.ofName_ofName, Label.isInternal_ofName]

namespace Statement

variable {family : Family} {name : Text} {arguments : List Text}

theorem mem_dependencies_call {other : Text} :
    other ∈ (dependencies family (.call name arguments)).names ↔ other = Label.ofName name := by
  rw [← List.mem_singleton]
  exact NameSet.mem_ofList

/-- A call needs nothing from the library exactly when its label is defined already. -/
theorem resolve_call_eq_ok_nil_iff {defined : List Text} :
    resolve family defined (dependencies family (.call name arguments)).names = .ok [] ↔
      Label.ofName name ∈ defined := by
  simp only [resolve_eq_ok_nil_iff, mem_dependencies_call, forall_eq]

theorem exists_render_call_invoking (name : Text) {written : List Text}
    (h : Template.expandAll family arguments = .ok written) :
    ∃ called, render family (.call name arguments) = .ok called ∧
      Label.invoked? called family = some (Label.ofName name) := by
  refine ⟨invocationLine (Label.ofName name) written family, ?_, ?_⟩
  · rw [render, functionCall, h]
    rfl
  · exact Label.invoked?_invocationLine (Label.isIdentifier_ofName name) written family

end Statement

/-- Whether a scope alone defines what a statement calls, so that nothing is embedded for it. -/
def Scope.Satisfies (family : Family) (scope : Scope) (s : Statement) : Prop :=
  resolve family [scope.label] (s.dependencies family).names = .ok []

theorem Scope.satisfies_call_iff {family : Family} {scope : Scope} {name : Text}
    {arguments : List Text} :
    scope.Satisfies family (.call name arguments) ↔ Label.ofName name = Label.ofName scope.name := by
  rw [Satisfies, Statement.resolve_call_eq_ok_nil_iff, List.mem_singleton, label]

/-- The label of a name is an identifier, and the name itself exactly when that is one already. A call
invokes the label that a definition defines exactly when both names have the same label, and exactly then
the scope that has the name of the definition satisfies the call; among registered scopes, one with this
label is needed. The checks of names do not tell a name from its label. -/
theorem Label.calls_meet_definitions (family : Family) (a b : Text) (arguments : List Text) :
    (IsIdentifier (ofName a) ∧ (ofName a = a ↔ IsIdentifier a) ∧ ofName (ofName a) = ofName a) ∧
    (∀ written body, Template.expandAll family arguments = .ok written →
      ∃ called, Statement.render family (.call a arguments) = .ok called ∧
        ((∃ label, invoked? called family = some label ∧
            defined? (functionDefinition b body family) family = some label) ↔
          ofName a = ofName b)) ∧
    (∀ assignments, Scope.Satisfies family ⟨b, assignments⟩ (.call a arguments) ↔
      ofName a = ofName b) ∧
    (∀ registry : ScopeRegistry,
      resolve family registry.labels (Statement.dependencies family (.call a arguments)).names =
          .ok [] ↔
        ∃ scope ∈ registry.scopes, scope.Satisfies family (.call a arguments)) ∧
    Scope.isReservedName (ofName a) = Scope.isReservedName a ∧
    isInternal (ofName a) = isInternal a ∧
    LibraryFunction.ofName? (ofName a) = LibraryFunction.ofName? a := by
  refine ⟨⟨isIdentifier_ofName a, ofName_eq_self_iff, ofName_ofName a⟩, ?_,
    fun assignments => Scope.satisfies_call_iff, ?_, Scope.isReservedName_ofName a,
    isInternal_ofName a, ofName?_ofName a⟩
  · intro written body hwritten
    obtain ⟨called, hcalled, hinvoked⟩ := Statement.exists_render_call_invoking a hwritten
    refine ⟨called, hcalled, ?_⟩
    simp only [hinvoked, defined?_functionDefinition, Option.some.injEq, exists_eq_left']
    exact eq_comm
  · intro registry
    rw [Statement.resolve_call_eq_ok_nil_iff, ScopeRegistry.labels, List.mem_map]
    simp only [Scope.satisfies_call_iff]
    exact exists_congr fun scope => and_congr_right fun _ => eq_comm

example : Label.invoked? "call :my_job 1\r\n" .windows = some "my_job" ∧
    Label.defined? (functionDefinition "my job" [] .windows) .windows = some "my_job" := by
  decide

end DualShell
