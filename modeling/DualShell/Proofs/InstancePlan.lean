import DualShell.Instance
import DualShell.Proofs.ScopeHistory
import DualShell.Proofs.Tables

/-!
The plan behind an instance. The checks that a draft passed are those that its two scopes have to
pass, so every instance has a plan: the default scope, the scope of its own name, and a dispatch with
one case for each action.
-/

namespace DualShell

namespace ScriptPlan

/-- Scopes change nothing else of a plan. -/
theorem exists_addScope_eq_ok_of_isFree {plan : ScriptPlan} {accepted : List Scope} {scope : Scope}
    (h : Records plan accepted) (husable : Scope.IsUsableName scope.name)
    (hfree : IsFree accepted scope) (hnew : scope.name ∉ plan.scopes.names) :
    ∃ next, plan.addScope scope = .ok next ∧
      next.scopes.scopes = plan.scopes.scopes ++ [scope] ∧
      next.unset = plan.unset ∧ next.statements = plan.statements ∧ next.switch = plan.switch := by
  obtain ⟨next, hnext, hscopes⟩ := h.addScope_of_isFree husable hfree
  rw [if_neg hnew] at hscopes
  obtain ⟨_, -, rfl⟩ := addScope_eq_ok.mp hnext
  exact ⟨_, hnext, hscopes, rfl, rfl, rfl⟩

end ScriptPlan

namespace Instance

open ScriptPlan

/-- The scope that every action calls first. -/
def defaultScope (i : Instance) : Scope := ⟨InstanceDraft.defaultScopeName, i.defaultVariables⟩

/-- The scope of the instance's own exports. -/
def ownScope (i : Instance) : Scope := ⟨i.name, i.exports⟩

theorem isUsableName_defaultScopeName : Scope.IsUsableName InstanceDraft.defaultScopeName := by
  constructor <;> decide

theorem isUsableName_name (i : Instance) : Scope.IsUsableName i.name := by
  have h := i.accepted
  unfold InstanceDraft.problem? at h
  constructor <;> grind

theorem upper_label_name_ne (i : Instance) :
    i.ownScope.label.upper ≠ i.defaultScope.label.upper := by
  have h := i.accepted
  unfold InstanceDraft.problem? at h
  have hsame : Label.same i.name InstanceDraft.defaultScopeName = false := by grind
  simpa [Label.same, ownScope, defaultScope, Scope.label] using hsame

theorem name_ne (i : Instance) : i.name ≠ InstanceDraft.defaultScopeName := by
  intro h
  apply i.upper_label_name_ne
  rw [Scope.label, Scope.label, ownScope, defaultScope, h]

theorem nodup_action_names : (Action.all.map Action.name).Nodup := by decide

theorem entries_dispatch (i : Instance) :
    i.dispatch.cases.entries = Action.all.map i.actionCase := by
  refine Table.entries_ofList ?_
  rw [List.map_map]
  exact nodup_action_names

theorem nodup_defaultKeys : defaultKeys.Nodup := by decide

theorem entries_defaultVariables (i : Instance) :
    i.defaultVariables.entries =
      [(nameKey, i.name), (homeKey, i.home), (logDirectoryKey, i.logDirectory)] :=
  Table.entries_ofList nodup_defaultKeys

/-- Every instance has a plan, and this is what it holds. -/
theorem exists_plan (i : Instance) :
    ∃ plan, i.plan = .ok plan ∧ plan.scopes.scopes = [i.defaultScope, i.ownScope] ∧
      plan.unset = defaultUnset ∧ plan.statements = [] ∧ plan.switch = some i.dispatch := by
  have hfreeDefault : IsFree [] i.defaultScope := by simp [IsFree]
  obtain ⟨first, hfirst, hscopes, hunset, hstatements, -⟩ :=
    exists_addScope_eq_ok_of_isFree records_new isUsableName_defaultScopeName hfreeDefault
      (by simp [new, ScopeRegistry.names, ScopeRegistry.empty])
  have hrecords : Records first [i.defaultScope] := records_new.concat hfirst
  have hnames : first.scopes.names = [InstanceDraft.defaultScopeName] := by
    rw [ScopeRegistry.names, hscopes]
    rfl
  have hfreeOwn : IsFree [i.defaultScope] i.ownScope := by
    simpa [IsFree] using fun _ => i.upper_label_name_ne.symm
  obtain ⟨second, hsecond, hscopes', hunset', hstatements', -⟩ :=
    exists_addScope_eq_ok_of_isFree hrecords i.isUsableName_name hfreeOwn
      (by rw [hnames, List.mem_singleton]; exact i.name_ne)
  refine ⟨second.switchOn i.dispatch, ?_, ?_, ?_, ?_, rfl⟩
  · have hplan : i.plan = (do
        let withDefaults ← new.addScope i.defaultScope
        let withExports ← withDefaults.addScope i.ownScope
        return withExports.switchOn i.dispatch) := rfl
    simp only [hplan, Passes.bind_eq_ok, Passes.pure_eq_ok]
    exact ⟨first, hfirst, second, hsecond, rfl⟩
  · change second.scopes.scopes = _
    rw [hscopes', hscopes]
    rfl
  · change second.unset = _
    rw [hunset', hunset]
    rfl
  · change second.statements = _
    rw [hstatements', hstatements]
    rfl

/-- The control script of an instance is the script of its plan. -/
theorem build_eq_build_plan {i : Instance} {plan : ScriptPlan} (h : i.plan = .ok plan)
    (family : Family) : i.build family = plan.build family := by
  rw [build, h]
  rfl

end Instance

end DualShell
