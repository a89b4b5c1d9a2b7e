import DualShell.Instance

/-!
Edits of different kinds do not interfere with each other. A plan holds what its edits of each kind
come to in their own order, and of its tables the last one; so neither the order in which kinds are
mixed nor a refused scope nor a replaced table leaves a trace in it. Drafts of instances behave in
the same way.
-/

namespace DualShell

theorem filterMap_cons_eq_append {α β : Type} (f : α → Option β) (a : α) (rest : List α) :
    (a :: rest).filterMap f = (f a).toList ++ rest.filterMap f := by
  cases h : f a <;> simp [h]

theorem getLast?_toList_append {α : Type} (o : Option α) (xs : List α) :
    (o.toList ++ xs).getLast? = xs.getLast?.or o := by
  rw [List.getLast?_append]
  cases o <;> rfl

namespace ScopeRegistry

/-- The scopes after an attempt to add one; a refused attempt leaves them as they were. -/
def attempt (registry : ScopeRegistry) (scope : Scope) : ScopeRegistry :=
  match registry.register scope with
  | .ok next => next
  | .error _ => registry

/-- What each of a sequence of attempts comes to: the scopes after it, or why it is refused. -/
def outcomes (registry : ScopeRegistry) : List Scope → List (Except ScriptError ScopeRegistry)
  | [] => []
  | scope :: rest => registry.register scope :: (registry.attempt scope).outcomes rest

end ScopeRegistry

namespace ScriptPlan

namespace Edit

def scope? : Edit → Option Scope
  | .scope added => some added
  | .unset _ | .statement _ | .switch _ => none

def unset? : Edit → Option Text
  | .unset name => some name
  | .scope _ | .statement _ | .switch _ => none

def statement? : Edit → Option Statement
  | .statement added => some added
  | .scope _ | .unset _ | .switch _ => none

def switch? : Edit → Option Switch
  | .switch table => some table
  | .scope _ | .unset _ | .statement _ => none

end Edit

/-- Whether two histories have the same scopes, cleared names and statements, each in the same
order, and the same last table if any. -/
structure SameByKind (changes others : List Edit) : Prop where
  scopes : changes.filterMap Edit.scope? = others.filterMap Edit.scope?
  unset : changes.filterMap Edit.unset? = others.filterMap Edit.unset?
  statements : changes.filterMap Edit.statement? = others.filterMap Edit.statement?
  lastSwitch :
    (changes.filterMap Edit.switch?).getLast? = (others.filterMap Edit.switch?).getLast?

/-- What the scope edits of a history come to, one after the other: the scopes of the plan after the
edit, or why it is refused. -/
def scopeOutcomes (plan : ScriptPlan) : List Edit → List (Except ScriptError ScopeRegistry)
  | [] => []
  | change :: rest =>
    (change.scope?.map fun added => (plan.addScope added).map ScriptPlan.scopes).toList ++
      (plan.edit change).scopeOutcomes rest

theorem edit_scope (plan : ScriptPlan) (added : Scope) :
    plan.edit (.scope added) = { plan with scopes := plan.scopes.attempt added } := by
  rw [edit, Edit.apply, addScope, ScopeRegistry.attempt]
  cases plan.scopes.register added <;> rfl

theorem map_scopes_addScope (plan : ScriptPlan) (added : Scope) :
    (plan.addScope added).map ScriptPlan.scopes = plan.scopes.register added := by
  rw [addScope]
  cases plan.scopes.register added <;> rfl

/-- An edit concerns one part of a plan. -/
theorem edit_eq (plan : ScriptPlan) (change : Edit) :
    plan.edit change =
      ⟨change.scope?.toList.foldl ScopeRegistry.attempt plan.scopes,
        plan.unset ++ change.unset?.toList, plan.statements ++ change.statement?.toList,
        change.switch?.or plan.switch⟩ := by
  cases change with
  | scope added =>
    rw [edit_scope]
    simp [Edit.scope?, Edit.unset?, Edit.statement?, Edit.switch?]
  | unset name =>
    simp [edit, Edit.apply, addUnset, Edit.scope?, Edit.unset?, Edit.statement?, Edit.switch?]
  | statement added =>
    simp [edit, Edit.apply, addStatement, Edit.scope?, Edit.unset?, Edit.statement?, Edit.switch?]
  | switch table =>
    simp [edit, Edit.apply, switchOn, Edit.scope?, Edit.unset?, Edit.statement?, Edit.switch?]

/-- Each part of a plan is what the edits of its kind make of it. -/
theorem editAll_eq (plan : ScriptPlan) (changes : List Edit) :
    plan.editAll changes =
      ⟨(changes.filterMap Edit.scope?).foldl ScopeRegistry.attempt plan.scopes,
        plan.unset ++ changes.filterMap Edit.unset?,
        plan.statements ++ changes.filterMap Edit.statement?,
        (changes.filterMap Edit.switch?).getLast?.or plan.switch⟩ := by
  induction changes generalizing plan with
  | nil => simp [editAll]
  | cons change rest ih =>
    have hstep : plan.editAll (change :: rest) = (plan.edit change).editAll rest := rfl
    rw [hstep, ih, edit_eq]
    simp only [filterMap_cons_eq_append, getLast?_toList_append, List.foldl_append,
      List.append_assoc, Option.or_assoc]

theorem scopeOutcomes_eq (plan : ScriptPlan) (changes : List Edit) :
    plan.scopeOutcomes changes = plan.scopes.outcomes (changes.filterMap Edit.scope?) := by
  induction changes generalizing plan with
  | nil => rfl
  | cons change rest ih =>
    rw [scopeOutcomes, ih, edit_eq, filterMap_cons_eq_append]
    cases change.scope? with
    | none => rfl
    | some added =>
      simp only [Option.map_some, Option.toList_some, map_scopes_addScope]
      rfl

end ScriptPlan

namespace InstanceDraft

namespace Edit

def home? : Edit → Option Text
  | .home template => some template
  | .logDirectory _ | .exportOne _ _ | .exportAll _ | .init _ | .run _ => none

def logDirectory? : Edit → Option Text
  | .logDirectory template => some template
  | .home _ | .exportOne _ _ | .exportAll _ | .init _ | .run _ => none

/-- The keys and values that an edit exports, one at a time or many at once. -/
def exported : Edit → List (Text × Text)
  | .exportOne key value => [(key, value)]
  | .exportAll added => added.entries
  | .home _ | .logDirectory _ | .init _ | .run _ => []

def init? : Edit → Option Statement
  | .init added => some added
  | .home _ | .logDirectory _ | .exportOne _ _ | .exportAll _ | .run _ => none

def run? : Edit → Option Statement
  | .run added => some added
  | .home _ | .logDirectory _ | .exportOne _ _ | .exportAll _ | .init _ => none

end Edit

/-- Whether two histories of a draft end with the same home and log directory if any, and have the
same exports, init statements and run statements, each in the same order. -/
structure SameByKind (changes others : List Edit) : Prop where
  lastHome : (changes.filterMap Edit.home?).getLast? = (others.filterMap Edit.home?).getLast?
  lastLogDirectory :
    (changes.filterMap Edit.logDirectory?).getLast? =
      (others.filterMap Edit.logDirectory?).getLast?
  exports : changes.flatMap Edit.exported = others.flatMap Edit.exported
  init : changes.filterMap Edit.init? = others.filterMap Edit.init?
  run : changes.filterMap Edit.run? = others.filterMap Edit.run?

theorem edit_eq (draft : InstanceDraft) (change : Edit) :
    draft.edit change =
      ⟨draft.name, change.home?.getD draft.home, change.logDirectory?.getD draft.logDirectory,
        draft.exports.insertAll change.exported, draft.init ++ change.init?.toList,
        draft.run ++ change.run?.toList⟩ := by
  cases change <;>
    simp [edit, Edit.home?, Edit.logDirectory?, Edit.exported, Edit.init?, Edit.run?,
      Table.insertAll]

theorem editAll_eq (draft : InstanceDraft) (changes : List Edit) :
    draft.editAll changes =
      ⟨draft.name, (changes.filterMap Edit.home?).getLast?.getD draft.home,
        (changes.filterMap Edit.logDirectory?).getLast?.getD draft.logDirectory,
        draft.exports.insertAll (changes.flatMap Edit.exported),
        draft.init ++ changes.filterMap Edit.init?, draft.run ++ changes.filterMap Edit.run?⟩ := by
  induction changes generalizing draft with
  | nil => simp [editAll, Table.insertAll]
  | cons change rest ih =>
    have hstep : draft.editAll (change :: rest) = (draft.edit change).editAll rest := rfl
    rw [hstep, ih, edit_eq]
    simp only [filterMap_cons_eq_append, getLast?_toList_append, List.flatMap_cons,
      Table.insertAll_append, List.append_assoc, Option.getD_or]

theorem editAll_congr (draft : InstanceDraft) {changes others : List Edit}
    (h : SameByKind changes others) : draft.editAll changes = draft.editAll others := by
  rw [editAll_eq, editAll_eq, h.lastHome, h.lastLogDirectory, h.exports, h.init, h.run]

end InstanceDraft

/-- Two histories with the same edits of each kind come to the same plan, however the kinds are
mixed, whichever scopes are refused on the way and whatever the tables before the last one held:
each attempt to add a scope ends alike, and so does building the plan for either family. Likewise
the description of an instance, whether it is accepted, and its control script depend on the name,
the last directories and the edits of each other kind. -/
theorem editAll_of_sameByKind :
    (∀ (plan : ScriptPlan) (changes others : List ScriptPlan.Edit),
      ScriptPlan.SameByKind changes others →
        plan.scopeOutcomes changes = plan.scopeOutcomes others ∧
        plan.editAll changes = plan.editAll others ∧
        ∀ family, (plan.editAll changes).build family = (plan.editAll others).build family) ∧
    ∀ (name : Text) (changes others : List InstanceDraft.Edit),
      InstanceDraft.SameByKind changes others →
        ((InstanceDraft.new name).editAll changes).accept =
          ((InstanceDraft.new name).editAll others).accept ∧
        ∀ family,
          (((InstanceDraft.new name).editAll changes).accept >>= fun i => i.build family) =
            (((InstanceDraft.new name).editAll others).accept >>= fun i => i.build family) := by
  refine ⟨fun plan changes others h => ?_, fun name changes others h => ?_⟩
  · have hplan : plan.editAll changes = plan.editAll others := by
      rw [ScriptPlan.editAll_eq, ScriptPlan.editAll_eq, h.scopes, h.unset, h.statements,
        h.lastSwitch]
    refine ⟨?_, hplan, fun family => by rw [hplan]⟩
    rw [ScriptPlan.scopeOutcomes_eq, ScriptPlan.scopeOutcomes_eq, h.scopes]
  · rw [InstanceDraft.editAll_congr _ h]
    exact ⟨rfl, fun _ => rfl⟩

/-- Edits of all kinds, with a refused scope, a scope that is given again and a table that is
replaced. -/
def ScriptPlan.mixedEdits : List Edit :=
  [.switch (Switch.ofCases "2" [("old", .call "nope" [])]),
    .scope ⟨"my-app", Table.ofList [("logDir", "{temp}")]⟩,
    .statement (.findPid "worker"),
    .scope ⟨"My_App", .empty⟩,
    .unset "JAVA_OPTS",
    .scope ⟨"my-app", Table.ofList [("logDir", "{root}")]⟩,
    .statement (.call "my-app" []),
    .switch (Switch.ofCases "1" [("stop", .kill)])]

/-- The edits of `mixedEdits` kind by kind, the replaced table left out. -/
def ScriptPlan.sortedEdits : List Edit :=
  [.scope ⟨"my-app", Table.ofList [("logDir", "{temp}")]⟩,
    .scope ⟨"My_App", .empty⟩,
    .scope ⟨"my-app", Table.ofList [("logDir", "{root}")]⟩,
    .unset "JAVA_OPTS",
    .statement (.findPid "worker"),
    .statement (.call "my-app" []),
    .switch (Switch.ofCases "1" [("stop", .kill)])]

def InstanceDraft.mixedEdits : List Edit :=
  [.run .kill, .home "/old", .exportOne "a" "1", .init (.findPid "a"), .home "/srv",
    .exportAll (Table.ofList [("b", "2"), ("a", "3")]), .run (.findPid "b")]

def InstanceDraft.sortedEdits : List Edit :=
  [.home "/srv", .exportOne "a" "1", .exportOne "b" "2", .exportOne "a" "3", .init (.findPid "a"),
    .run .kill, .run (.findPid "b")]

theorem editAll_of_sameByKind_mixedEdits :
    ScriptPlan.SameByKind ScriptPlan.mixedEdits ScriptPlan.sortedEdits ∧
    InstanceDraft.SameByKind InstanceDraft.mixedEdits InstanceDraft.sortedEdits ∧
    ScriptPlan.new.scopeOutcomes ScriptPlan.mixedEdits =
      ScriptPlan.new.scopeOutcomes ScriptPlan.sortedEdits ∧
    ScriptPlan.new.editAll ScriptPlan.mixedEdits = ScriptPlan.new.editAll ScriptPlan.sortedEdits ∧
    ((InstanceDraft.new "web").editAll InstanceDraft.mixedEdits).accept =
      ((InstanceDraft.new "web").editAll InstanceDraft.sortedEdits).accept := by
  have hplans : ScriptPlan.SameByKind ScriptPlan.mixedEdits ScriptPlan.sortedEdits := by
    constructor <;> decide
  have hdrafts : InstanceDraft.SameByKind InstanceDraft.mixedEdits InstanceDraft.sortedEdits := by
    constructor <;> decide
  obtain ⟨houtcomes, hplan, -⟩ := editAll_of_sameByKind.1 ScriptPlan.new _ _ hplans
  exact ⟨hplans, hdrafts, houtcomes, hplan, (editAll_of_sameByKind.2 "web" _ _ hdrafts).1⟩

end DualShell
