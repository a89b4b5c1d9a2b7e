import DualShell.Proofs.FunctionSection
import DualShell.Proofs.Reached
import Mathlib.Logic.Relation

/-!
Normal forms of statements. For a family a statement says the same as its normal form, in which
every dialect has become the branch for the family and no list stands directly in a list. What a
branch for the other family holds is gone from the normal form, so it never matters to a script.
-/

namespace DualShell

open Passes

namespace Statement

/-- The items that a statement stands for as an item of a list. -/
def spliced : Statement → List Statement
  | .list items => items
  | s => [s]

mutual

/-- The statement with the family's branch in the place of every dialect, and with the items of a
list in the place of a list that stands in a list. -/
def normal (family : Family) : Statement → Statement
  | .list items => .list (normalItems family items)
  | .exitInsteadOfReturn body => .exitInsteadOfReturn (normal family body)
  | .switch subject cases => .switch subject (normalCases family cases)
  | .runScript instanceName exports workingDirectory body =>
    .runScript instanceName exports workingDirectory (normal family body)
  | .capture logDirectory body => .capture logDirectory (normal family body)
  | .dialect unix windows =>
    match family with
    | .unix => normal family unix
    | .windows => normal family windows
  | .interpret lines => .interpret lines
  | .scope exported => .scope exported
  | .call function arguments => .call function arguments
  | .findPid pattern => .findPid pattern
  | .kill => .kill
  | .forget instanceName script logDirectory => .forget instanceName script logDirectory

def normalItems (family : Family) : List Statement → List Statement
  | [] => []
  | s :: rest => spliced (normal family s) ++ normalItems family rest

def normalCases (family : Family) : List (Text × Statement) → List (Text × Statement)
  | [] => []
  | (value, s) :: rest => (value, normal family s) :: normalCases family rest

end

theorem normalItems_eq (family : Family) (items : List Statement) :
    normalItems family items = items.flatMap fun s => spliced (normal family s) := by
  induction items with
  | nil => rfl
  | cons s rest ih => rw [normalItems, ih, List.flatMap_cons]

theorem normalCases_eq (family : Family) (cases : List (Text × Statement)) :
    normalCases family cases = cases.map fun c => (c.1, normal family c.2) := by
  induction cases with
  | nil => rfl
  | cons c rest ih => rw [normalCases, ih, List.map_cons]

section Shape

def isList : Statement → Bool
  | .list _ => true
  | _ => false

def isDialect : Statement → Bool
  | .dialect _ _ => true
  | _ => false

/-- Whether nothing in a statement is a dialect or a list that stands directly in a list. -/
def IsNormal (family : Family) (s : Statement) : Prop :=
  ∀ node, Reaches family s node →
    node.isDialect = false ∧ (node.isList = true → ∀ item ∈ node.parts family, item.isList = false)

theorem isNormal_iff_parts {family : Family} {s : Statement} :
    s.IsNormal family ↔
      (s.isDialect = false ∧ (s.isList = true → ∀ item ∈ s.parts family, item.isList = false)) ∧
        ∀ part ∈ s.parts family, part.IsNormal family :=
  forall_reaches

theorem IsNormal.of_mem_spliced {family : Family} {s item : Statement} (h : s.IsNormal family)
    (hitem : item ∈ s.spliced) : item.IsNormal family ∧ item.isList = false := by
  cases hlist : s.isList with
  | true =>
    obtain ⟨items, rfl⟩ : ∃ items, s = .list items := by
      cases s <;> simp [isList] at hlist ⊢
    obtain ⟨⟨-, hitems⟩, hparts⟩ := isNormal_iff_parts.mp h
    exact ⟨hparts item hitem, hitems rfl item hitem⟩
  | false =>
    obtain rfl : item = s := by
      cases s <;> simp [spliced, isList] at hitem hlist ⊢ <;> exact hitem
    exact ⟨h, hlist⟩

theorem isNormal_normal (family : Family) (s : Statement) : (normal family s).IsNormal family := by
  induction s with
  | interpret | scope | call | findPid | kill | forget =>
    exact isNormal_iff_parts.mpr (by simp [normal, isDialect, isList, parts])
  | list items ih =>
    have hitems : ∀ item ∈ normalItems family items,
        item.IsNormal family ∧ item.isList = false := by
      intro item hitem
      rw [normalItems_eq, List.mem_flatMap] at hitem
      obtain ⟨s, hs, hitem⟩ := hitem
      exact (ih s hs).of_mem_spliced hitem
    exact isNormal_iff_parts.mpr
      ⟨⟨rfl, fun _ item hitem => (hitems item hitem).2⟩, fun item hitem => (hitems item hitem).1⟩
  | exitInsteadOfReturn body ih =>
    exact isNormal_iff_parts.mpr (by simpa [normal, isDialect, isList, parts] using ih)
  | switch subject cases ih =>
    refine isNormal_iff_parts.mpr ⟨⟨rfl, fun h => Bool.noConfusion h⟩, ?_⟩
    rw [normal, parts, normalCases_eq, List.map_map]
    exact List.forall_mem_map.mpr ih
  | runScript instanceName exports workingDirectory body ih =>
    exact isNormal_iff_parts.mpr (by simpa [normal, isDialect, isList, parts] using ih)
  | capture logDirectory body ih =>
    exact isNormal_iff_parts.mpr (by simpa [normal, isDialect, isList, parts] using ih)
  | dialect unix windows ihu ihw =>
    cases family with
    | unix => exact ihu
    | windows => exact ihw

end Shape

section Meaning

theorem calleesOfItems_append (family : Family) (xs ys : List Statement) :
    calleesOfItems family (xs ++ ys) = calleesOfItems family xs ++ calleesOfItems family ys := by
  rw [calleesOfItems_eq, calleesOfItems_eq, calleesOfItems_eq, List.flatMap_append]

theorem calleesOfItems_spliced (family : Family) (s : Statement) :
    calleesOfItems family s.spliced = callees family s := by
  cases s with
  | list items => rfl
  | interpret | exitInsteadOfReturn | scope | call | switch | findPid | kill | forget | runScript
    | capture | dialect => exact List.append_nil _

theorem renderItems_spliced (family : Family) (s : Statement) :
    renderItems family s.spliced = render family s := by
  have hsingle : renderItems family [s] = render family s := by
    rw [renderItems, renderItems]
    cases render family s with
    | error e => rfl
    | ok text => exact congrArg Except.ok (List.append_nil text)
  cases s with
  | list items => rfl
  | interpret | exitInsteadOfReturn | scope | call | switch | findPid | kill | forget | runScript
    | capture | dialect => exact hsingle

theorem calleesOfItems_normalItems {family : Family} {items : List Statement}
    (h : ∀ s ∈ items, callees family (normal family s) = callees family s) :
    calleesOfItems family (normalItems family items) = calleesOfItems family items := by
  induction items with
  | nil => rfl
  | cons s rest ih =>
    obtain ⟨hs, hrest⟩ := List.forall_mem_cons.mp h
    rw [normalItems, calleesOfItems_append, calleesOfItems_spliced, hs, ih hrest, calleesOfItems]

/-- The calls of a statement and of its normal form are the same, in the same order. -/
theorem callees_normal (family : Family) (s : Statement) :
    callees family (normal family s) = callees family s := by
  induction s with
  | interpret | scope | call | findPid | kill | forget | runScript => rfl
  | list items ih => exact calleesOfItems_normalItems ih
  | exitInsteadOfReturn body ih => exact ih
  | switch subject cases ih =>
    rw [normal, callees, callees, calleesOfCases_eq, calleesOfCases_eq, normalCases_eq,
      List.flatMap_map]
    exact List.flatMap_congr ih
  | capture logDirectory body ih => exact ih
  | dialect unix windows ihu ihw =>
    cases family with
    | unix => exact ihu
    | windows => exact ihw

theorem dependencies_normal (family : Family) (s : Statement) :
    dependencies family (normal family s) = dependencies family s := by
  rw [dependencies, dependencies, callees_normal]

theorem renderItems_normalItems {family : Family} {items : List Statement}
    (h : ∀ s ∈ items, render family (normal family s) = render family s) :
    renderItems family (normalItems family items) = renderItems family items := by
  induction items with
  | nil => rfl
  | cons s rest ih =>
    obtain ⟨hs, hrest⟩ := List.forall_mem_cons.mp h
    rw [normalItems, renderItems_append, renderItems_spliced, hs, ih hrest, renderItems]

theorem renderCases_normalCases {family : Family} {cases : List (Text × Statement)}
    (h : ∀ c ∈ cases, render family (normal family c.2) = render family c.2) :
    renderCases family (normalCases family cases) = renderCases family cases := by
  induction cases with
  | nil => rfl
  | cons c rest ih =>
    obtain ⟨hc, hrest⟩ := List.forall_mem_cons.mp h
    rw [normalCases, renderCases, renderCases, hc, ih hrest]

/-- A statement and its normal form are written alike, or fail alike. -/
theorem render_normal (family : Family) (s : Statement) :
    render family (normal family s) = render family s := by
  induction s with
  | interpret | scope | call | findPid | kill | forget => rfl
  | list items ih => exact renderItems_normalItems ih
  | exitInsteadOfReturn body ih => rw [normal, render, render, ih]
  | switch subject cases ih => rw [normal, render, render, renderCases_normalCases ih]
  | runScript instanceName exports workingDirectory body ih =>
    rw [normal, render, render, dependencies_normal, ih]
  | capture logDirectory body ih => rw [normal, render, render, ih]
  | dialect unix windows ihu ihw =>
    cases family with
    | unix => exact ihu
    | windows => exact ihw

end Meaning

section Unread

/-- A dialect by what the family reads of it and what it does not. -/
def dialectFor (read unread : Statement) : Family → Statement
  | .unix => .dialect read unread
  | .windows => .dialect unread read

/-- Whether two statements differ in one dialect, at any depth, and there in no more than the branch
that the family does not read. -/
inductive ReplacesUnread (family : Family) : Statement → Statement → Prop
  | unread (read old new : Statement) :
    ReplacesUnread family (dialectFor read old family) (dialectFor read new family)
  | read {s t : Statement} (unread : Statement) : ReplacesUnread family s t →
    ReplacesUnread family (dialectFor s unread family) (dialectFor t unread family)
  | item {s t : Statement} (before after : List Statement) : ReplacesUnread family s t →
    ReplacesUnread family (.list (before ++ s :: after)) (.list (before ++ t :: after))
  | exitInsteadOfReturn {s t : Statement} : ReplacesUnread family s t →
    ReplacesUnread family (.exitInsteadOfReturn s) (.exitInsteadOfReturn t)
  | switchCase {s t : Statement} (subject value : Text) (before after : List (Text × Statement)) :
    ReplacesUnread family s t →
    ReplacesUnread family (.switch subject (before ++ (value, s) :: after))
      (.switch subject (before ++ (value, t) :: after))
  | runScript {s t : Statement} (instanceName : Text) (exports : List Text)
    (workingDirectory : Text) : ReplacesUnread family s t →
    ReplacesUnread family (.runScript instanceName exports workingDirectory s)
      (.runScript instanceName exports workingDirectory t)
  | capture {s t : Statement} (logDirectory : Text) : ReplacesUnread family s t →
    ReplacesUnread family (.capture logDirectory s) (.capture logDirectory t)

theorem normal_dialectFor (family : Family) (read unread : Statement) :
    normal family (dialectFor read unread family) = normal family read := by
  cases family <;> rfl

/-- What the family does not read leaves no trace in the normal form. -/
theorem ReplacesUnread.normal_eq {family : Family} {s t : Statement}
    (h : ReplacesUnread family s t) : normal family s = normal family t := by
  induction h with
  | unread read old new => rw [normal_dialectFor, normal_dialectFor]
  | read unread _ ih => rw [normal_dialectFor, normal_dialectFor, ih]
  | item before after _ ih =>
    simp only [normal, normalItems_eq, List.flatMap_append, List.flatMap_cons, ih]
  | exitInsteadOfReturn _ ih => rw [normal, normal, ih]
  | switchCase subject value before after _ ih =>
    simp only [normal, normalCases_eq, List.map_append, List.map_cons, ih]
  | runScript instanceName exports workingDirectory _ ih => rw [normal, normal, ih]
  | capture logDirectory _ ih => rw [normal, normal, ih]

end Unread

end Statement

namespace ScriptPlan

/-- What a plan writes depends on its body only up to the normal forms of the statements. -/
theorem build_congr {family : Family} {plan other : ScriptPlan} (hscopes : plan.scopes = other.scopes)
    (hunset : plan.unset = other.unset)
    (hbody : Statement.normalItems family plan.body = Statement.normalItems family other.body) :
    plan.build family = other.build family := by
  have hrequired : plan.required family = other.required family := by
    rw [required, required, ← Statement.calleesOfItems_normalItems fun s _ =>
      Statement.callees_normal family s, hbody, Statement.calleesOfItems_normalItems fun s _ =>
      Statement.callees_normal family s]
  have hrender : Statement.renderItems family plan.body = Statement.renderItems family other.body := by
    rw [← Statement.renderItems_normalItems fun s _ => Statement.render_normal family s, hbody,
      Statement.renderItems_normalItems fun s _ => Statement.render_normal family s]
  simp only [build, write, assemble, hscopes, hunset, hrequired, hrender]

/-- Whether two plans differ in one statement ahead of the dispatch or in the dispatch, and there in
no more than the branch of a dialect that the family does not read. -/
inductive ReplacesUnread (family : Family) : ScriptPlan → ScriptPlan → Prop
  | statement {s t : Statement} (scopes : ScopeRegistry) (unset : List Text)
    (before after : List Statement) (switch : Option Switch) :
    Statement.ReplacesUnread family s t →
    ReplacesUnread family ⟨scopes, unset, before ++ s :: after, switch⟩
      ⟨scopes, unset, before ++ t :: after, switch⟩
  | switch {table other : Switch} (scopes : ScopeRegistry) (unset : List Text)
    (statements : List Statement) :
    Statement.ReplacesUnread family table.toStatement other.toStatement →
    ReplacesUnread family ⟨scopes, unset, statements, some table⟩
      ⟨scopes, unset, statements, some other⟩

theorem ReplacesUnread.build_eq {family : Family} {plan other : ScriptPlan}
    (h : ReplacesUnread family plan other) : plan.build family = other.build family := by
  cases h with
  | statement scopes unset before after switch h =>
    refine build_congr rfl rfl ?_
    simp only [body, Statement.normalItems_eq, List.flatMap_append, List.flatMap_cons, h.normal_eq]
  | switch scopes unset statements h =>
    refine build_congr rfl rfl ?_
    simp only [body, Statement.normalItems_eq, List.flatMap_append, Option.map_some,
      Option.toList_some, List.flatMap_singleton, h.normal_eq]

/-- For a family a statement and its normal form are written alike or fail alike, call the same
functions, and the normal form has neither dialects nor lists in lists. Two plans that differ only in
the branches of dialects for the other family, however many they are and whatever they hold, are
built into the same script or fail with the same error. -/
theorem build_of_replacesUnread (family : Family) :
    (∀ s : Statement,
      Statement.render family (s.normal family) = Statement.render family s ∧
        (s.normal family).dependencies family = s.dependencies family ∧
        (s.normal family).IsNormal family) ∧
      ∀ plan other : ScriptPlan, Relation.ReflTransGen (ReplacesUnread family) plan other →
        plan.build family = other.build family := by
  refine ⟨fun s => ⟨Statement.render_normal family s, Statement.dependencies_normal family s,
    Statement.isNormal_normal family s⟩, fun plan other h => ?_⟩
  induction h with
  | refl => rfl
  | tail _ hstep ih => rw [ih, hstep.build_eq]

/-- On Unix a plan does not read what stands for Windows, not even an unknown token or function. -/
theorem build_of_replacesUnread_unknownNames :
    (ScriptPlan.new.addStatement (.dialect (.interpret ["echo hi"]) .kill)).build .unix =
      (ScriptPlan.new.addStatement (.dialect (.interpret ["echo hi"])
        (.list [.interpret ["\x7bnope\x7d"], .call "nope" []]))).build .unix := by
  have hstatement := @Statement.ReplacesUnread.unread .unix (.interpret ["echo hi"]) .kill
    (.list [.interpret ["\x7bnope\x7d"], .call "nope" []])
  exact (build_of_replacesUnread .unix).2 _ _ (.single (.statement _ _ [] [] none hstatement))

end ScriptPlan

end DualShell
