import DualShell.Proofs.Acceptance
import DualShell.Proofs.InstancePlan

/-!
Which drafts become instances. A draft is accepted exactly when it passes every check, and otherwise
the first check that it fails is reported. What the checks ask of the name is what the two scopes of
the control script need, so that an accepted draft always has a plan and only the rendering of the
control script can fail.
-/

namespace DualShell

namespace InstanceDraft

variable {draft : InstanceDraft}

/-- Whether the name of a draft has, but for case, the label of the default scope, of a library
function or of a place that a Windows script marks for itself. -/
def HasTakenName (draft : InstanceDraft) : Prop :=
  (Label.ofName draft.name).upper = defaultScopeName.upper ∨
    Label.IsReserved (Label.ofName draft.name)

theorem hasTakenName_iff :
    draft.HasTakenName ↔
      (Scope.isReservedName draft.name || Label.same draft.name defaultScopeName) = true := by
  have hdefault : Label.ofName defaultScopeName = defaultScopeName := by decide
  rw [Bool.or_eq_true, Scope.isReservedName_iff, Label.same, decide_eq_true_eq, hdefault,
    HasTakenName, or_comm]

theorem accept_eq_ok_iff {i : Instance} : draft.accept = .ok i ↔ i.toInstanceDraft = draft := by
  rw [accept]
  split
  · next e hproblem =>
    refine ⟨nofun, fun h => ?_⟩
    rw [← h, i.accepted] at hproblem
    cases hproblem
  · constructor
    · intro h
      rw [← Except.ok.inj h]
    · rintro rfl
      rfl

theorem accept_eq_error_iff {e : ScriptError} :
    draft.accept = .error e ↔ draft.problem? = some e := by
  rw [accept]
  split
  · next problem hproblem => rw [hproblem, Except.error.injEq, Option.some.injEq]
  · next hproblem =>
    refine ⟨nofun, fun h => ?_⟩
    rw [hproblem] at h
    cases h

theorem exists_accept_eq_ok_iff : (∃ i, draft.accept = .ok i) ↔ draft.problem? = none := by
  constructor
  · rintro ⟨i, hi⟩
    rw [← accept_eq_ok_iff.mp hi]
    exact i.accepted
  · intro h
    exact ⟨⟨draft, h⟩, accept_eq_ok_iff.mpr rfl⟩

/-- A draft has no problem when it passes every check. -/
theorem problem?_eq_none_iff :
    draft.problem? = none ↔
      Text.isBlank draft.name = false ∧ ¬draft.HasTakenName ∧ Text.isBlank draft.home = false ∧
        Text.isBlank draft.logDirectory = false ∧ draft.run ≠ [] := by
  rw [hasTakenName_iff, problem?]
  grind

end InstanceDraft

namespace Instance

/-- The values that a control script dispatches on are the names of the actions, in order. -/
theorem values_dispatch (i : Instance) : i.dispatch.values = Action.all.map Action.name := by
  rw [Switch.values, Table.keys, entries_dispatch, List.map_map]
  rfl

/-- Only the rendering of a control script can fail. -/
theorem build_eq_error {i : Instance} {family : Family} {e : ScriptError}
    (h : i.build family = .error e) : ∃ cause, e = .render cause := by
  obtain ⟨plan, hplan, -⟩ := i.exists_plan
  rw [build_eq_build_plan hplan] at h
  exact ScriptPlan.build_eq_error h

end Instance

/-- A draft is accepted, and as it is, exactly when neither its name nor one of its directories is
blank, its name is not taken and it has something to run; otherwise the first of these that fails is
reported. An accepted draft has a plan, which holds the default scope and the scope of its own name and
dispatches on the names of the actions, and building its control script fails in no other way than in
rendering. -/
theorem InstanceDraft.accept_and_plan (draft : InstanceDraft) :
    ((∃ i, draft.accept = .ok i) ↔
      Text.isBlank draft.name = false ∧ ¬draft.HasTakenName ∧ Text.isBlank draft.home = false ∧
        Text.isBlank draft.logDirectory = false ∧ draft.run ≠ []) ∧
    (Text.isBlank draft.name = true →
      draft.accept = .error (.missingArgument .instanceName)) ∧
    (Text.isBlank draft.name = false → draft.HasTakenName →
      draft.accept = .error (.reservedName draft.name)) ∧
    (Text.isBlank draft.name = false → ¬draft.HasTakenName → Text.isBlank draft.home = true →
      draft.accept = .error (.missingArgument .instanceHome)) ∧
    (Text.isBlank draft.name = false → ¬draft.HasTakenName → Text.isBlank draft.home = false →
      Text.isBlank draft.logDirectory = true →
      draft.accept = .error (.missingArgument .logDirectory)) ∧
    (Text.isBlank draft.name = false → ¬draft.HasTakenName → Text.isBlank draft.home = false →
      Text.isBlank draft.logDirectory = false → draft.run = [] →
      draft.accept = .error (.noRunStatements draft.name)) ∧
    ∀ i, draft.accept = .ok i →
      i.toInstanceDraft = draft ∧
      (∃ plan table, i.plan = .ok plan ∧
        plan.scopes.names = [defaultScopeName, draft.name] ∧
        plan.switch = some table ∧ table.subject = "1" ∧
        table.values = ["init", "status", "stop", "start", "stdout", "stderr", "exitstatus", "tail",
          "tailerr", "run"].map String.toList) ∧
      ∀ family e, i.build family = .error e → ∃ cause, e = .render cause := by
  simp only [accept_eq_error_iff]
  refine ⟨exists_accept_eq_ok_iff.trans problem?_eq_none_iff, ?_, ?_, ?_, ?_, ?_, fun i hi => ?_⟩
  · intro hname
    rw [problem?, if_pos hname]
  · intro hname htaken
    rw [problem?, if_neg (by simp [hname]), if_pos (hasTakenName_iff.mp htaken)]
  · intro hname htaken hhome
    rw [problem?, if_neg (by simp [hname]), if_neg (mt hasTakenName_iff.mpr htaken), if_pos hhome]
  · intro hname htaken hhome hlogs
    rw [problem?, if_neg (by simp [hname]), if_neg (mt hasTakenName_iff.mpr htaken),
      if_neg (by simp [hhome]), if_pos hlogs]
  · intro hname htaken hhome hlogs hrun
    rw [problem?, if_neg (by simp [hname]), if_neg (mt hasTakenName_iff.mpr htaken),
      if_neg (by simp [hhome]), if_neg (by simp [hlogs]), if_pos (by simp [hrun])]
  · obtain rfl := accept_eq_ok_iff.mp hi
    obtain ⟨plan, hplan, hscopes, -, -, hswitch⟩ := i.exists_plan
    refine ⟨rfl, ⟨plan, i.dispatch, hplan, ?_, hswitch, rfl, ?_⟩, fun _ _ => Instance.build_eq_error⟩
    · rw [ScopeRegistry.names, hscopes]
      rfl
    · rw [Instance.values_dispatch]
      decide

example : InstanceDraft.problem? { InstanceDraft.new "End-Switch" with run := [.kill] } =
    some (.reservedName "End-Switch") := by decide

end DualShell
