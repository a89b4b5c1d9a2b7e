import DualShell.Instance
import DualShell.Proofs.Tables
import Mathlib.Data.Finset.Card

/-!
Tables and the histories of insertions behind them. A table holds the names that were inserted, in the
order of first insertion, each with its last value, and nothing else of the history shows in it. The
variables of a scope, the cases of a switch and the exports of an instance are tables; to take over a
whole table is to insert all that was inserted into it.
-/

namespace DualShell

namespace Table

variable {α : Type} {table other : Table α} {history : List (Text × α)} {name : Text} {value : α}

/-- Whether a history inserts a value for a name, and no other value for it later. -/
def IsLatest (history : List (Text × α)) (name : Text) (value : α) : Prop :=
  ∃ before after, history = before ++ (name, value) :: after ∧ name ∉ after.map Prod.fst

/-- Whether a table holds what a history of insertions leaves: the names inserted, each once and in the
order of first insertion, with the values inserted last. -/
structure Records (table : Table α) (history : List (Text × α)) : Prop where
  keys_eq : table.keys = distinct (history.map Prod.fst)
  mem_entries : ∀ name value, (name, value) ∈ table.entries ↔ IsLatest history name value
  get?_eq_some : ∀ name value, table.get? name = some value ↔ IsLatest history name value
  get?_eq_none : ∀ name, table.get? name = none ↔ name ∉ history.map Prod.fst
  size_eq : table.size = (history.map Prod.fst).toFinset.card

theorem isLatest_iff :
    IsLatest history name value ↔
      (history.findRev? (·.1 = name)).map Prod.snd = some value := by
  rw [List.findRev?_eq_find?_reverse, Option.map_eq_some_iff]
  constructor
  · rintro ⟨before, after, rfl, hafter⟩
    refine ⟨(name, value), ?_, rfl⟩
    rw [List.find?_eq_some_iff_append]
    refine ⟨decide_eq_true rfl, after.reverse, before.reverse, by simp, fun entry hentry => ?_⟩
    have hne : entry.1 ≠ name :=
      ne_of_mem_of_not_mem (List.mem_map_of_mem (List.mem_reverse.mp hentry)) hafter
    simpa using hne
  · rintro ⟨entry, hfind, rfl⟩
    obtain ⟨hname, after, before, hreverse, hafter⟩ := List.find?_eq_some_iff_append.mp hfind
    obtain rfl : entry.1 = name := of_decide_eq_true hname
    refine ⟨before.reverse, after.reverse, ?_, fun hmem => ?_⟩
    · rw [← List.reverse_reverse history, hreverse]
      simp
    · obtain ⟨later, hlater, hname⟩ := List.mem_map.mp hmem
      exact absurd hname (by simpa using hafter later (List.mem_reverse.mp hlater))

theorem Records.unique (h : Records table history) (hother : Records other history) :
    table = other := by
  refine eq_of_get?_eq (h.keys_eq.trans hother.keys_eq.symm) fun name => ?_
  ext value
  rw [h.get?_eq_some, hother.get?_eq_some]

theorem records_ofList (history : List (Text × α)) : Records (ofList history) history := by
  have hkeys : (ofList history).keys = distinct (history.map Prod.fst) := keys_insertAll empty history
  have hget : ∀ name value, (ofList history).get? name = some value ↔ IsLatest history name value := by
    intro name value
    rw [get?_ofList, isLatest_iff]
  refine ⟨hkeys, fun name value => mem_entries_iff.trans (hget name value), hget, fun name => ?_, ?_⟩
  · rw [get?_eq_none_iff, hkeys, mem_distinct]
  · have hsize : (ofList history).size = (ofList history).keys.length := by
      rw [size, keys, List.length_map]
    have hnodup : (ofList history).keys.Nodup := (ofList history).nodup
    rw [hsize, ← List.toFinset_card_of_nodup hnodup]
    congr 1
    ext name
    rw [List.mem_toFinset, List.mem_toFinset, hkeys, mem_distinct]

/-- To insert what a table holds is to insert all that it was made of. -/
theorem insertAll_entries_ofList (table : Table α) (history : List (Text × α)) :
    table.insertAll (ofList history).entries = table.insertAll history := by
  refine eq_of_get?_eq ?_ fun name => ?_
  · have hkeys : (ofList history).entries.map Prod.fst = distinct (history.map Prod.fst) :=
      keys_insertAll empty history
    rw [keys_insertAll, keys_insertAll, hkeys, distinct_append_distinct]
  · rw [get?_insertAll, get?_insertAll, ← get?_ofList, ofList_entries, get?_ofList]

end Table

/-- Cases that are added one after the other go into the table of the switch. -/
theorem Switch.foldl_add (switch : Switch) (cases : List (Text × Statement)) :
    cases.foldl (fun switch entry => switch.add entry.1 entry.2) switch =
      ⟨switch.subject, switch.cases.insertAll cases⟩ := by
  induction cases generalizing switch with
  | nil => rfl
  | cons entry rest ih =>
    rw [List.foldl_cons, ih]
    rfl

namespace InstanceDraft

/-- The edits that export variables one at a time. -/
def exportEach (entries : List (Text × Text)) : List Edit :=
  entries.map fun entry => .exportOne entry.1 entry.2

theorem editAll_exportEach (draft : InstanceDraft) (entries : List (Text × Text)) :
    draft.editAll (exportEach entries) =
      { draft with exports := draft.exports.insertAll entries } := by
  induction entries generalizing draft with
  | nil => rfl
  | cons entry rest ih => exact ih _

/-- To export a whole table is to export one at a time all that it was made of. -/
theorem edit_exportAll_ofList (draft : InstanceDraft) (entries : List (Text × Text)) :
    draft.edit (.exportAll (Table.ofList entries)) = draft.editAll (exportEach entries) := by
  rw [editAll_exportEach, edit, Table.insertAll_entries_ofList]

end InstanceDraft

/-- Whatever is inserted into variables, and in whatever order, they hold the keys inserted, in the order
of first insertion and each with its last value, and so do the cases that are added to a switch; to
collect them at once is to insert them one by one. Variables that are collected and then exported to an
instance, after others, leave the exports that all of them together are collected to. -/
theorem records_insertions :
    (∀ history : List (Text × Text),
      let table : Variables := history.foldl (fun table entry => table.insert entry.1 entry.2) .empty
      table.Records history ∧ (∀ other : Variables, other.Records history → other = table) ∧
        Table.ofList history = table) ∧
    (∀ (subject : Text) (history : List (Text × Statement)),
      let switch := history.foldl (fun switch entry => switch.add entry.1 entry.2) (Switch.new subject)
      switch.subject = subject ∧ switch.cases.Records history ∧
        switch.values = distinct (history.map Prod.fst) ∧
        Switch.ofCases subject history = switch ∧
        ∀ plan : ScriptPlan,
          plan.edit (.switch (Switch.ofCases subject history)) = { plan with switch := some switch }) ∧
    ∀ (name : Text) (first second : List (Text × Text)),
      let draft := (InstanceDraft.new name).editAll (InstanceDraft.exportEach first)
      draft.edit (.exportAll (Table.ofList second)) =
        { InstanceDraft.new name with exports := Table.ofList (first ++ second) } := by
  refine ⟨fun history => ?_, fun subject history => ?_, fun name first second => ?_⟩
  · have hrecords := Table.records_ofList history
    exact ⟨hrecords, fun other hother => hother.unique hrecords, rfl⟩
  · have hswitch : history.foldl (fun switch entry => switch.add entry.1 entry.2)
        (Switch.new subject) = Switch.ofCases subject history :=
      Switch.foldl_add (Switch.new subject) history
    have hrecords := Table.records_ofList history
    rw [hswitch]
    exact ⟨rfl, hrecords, hrecords.keys_eq, rfl, fun _ => rfl⟩
  · intro draft
    have hfirst : draft = { InstanceDraft.new name with exports := Table.ofList first } :=
      InstanceDraft.editAll_exportEach _ first
    rw [InstanceDraft.edit_exportAll_ofList, hfirst, InstanceDraft.editAll_exportEach, Table.ofList,
      Table.ofList, Table.insertAll_append]

-- A key that is inserted again keeps its place and changes its value.
example : (Table.ofList [("a", 1), ("b", 2), ("a", 3)]).entries =
    ([("a", 3), ("b", 2)] : List (Text × Nat)) := by decide

end DualShell
