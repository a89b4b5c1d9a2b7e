import DualShell.Proofs.DistinctLists
import DualShell.Proofs.FunctionSection
import DualShell.Proofs.LabelLines
import Mathlib.Data.List.Pairwise

/-!
What a history of edits makes of the scopes of a plan. Whether a scope is accepted depends on its name
and on the scopes accepted before it. Afterwards each accepted name stands once, where it was first
accepted, with the variables that it was given last.
-/

namespace DualShell

open Passes

namespace Scope

theorem clashes_iff {a b : Scope} : a.clashes b = true ↔ a.label.upper = b.label.upper := by
  rw [clashes, Label.same, decide_eq_true_eq, label, label]

/-- A name can be used when it is not blank and its label is not reserved. -/
theorem isUsableName_iff {name : Text} :
    IsUsableName name ↔ Text.isBlank name = false ∧ ¬Label.IsReserved (Label.ofName name) := by
  rw [IsUsableName, ← isReservedName_iff, Bool.not_eq_true]

end Scope

namespace ScopeRegistry

variable {registry : ScopeRegistry} {scope : Scope}

def names (registry : ScopeRegistry) : List Text := registry.scopes.map Scope.name

theorem eq_of_upper_label_eq {s t : Scope} (hs : s ∈ registry.scopes) (ht : t ∈ registry.scopes)
    (h : s.label.upper = t.label.upper) : s = t := by
  have hsymm : Std.Symm fun a b : Scope => a.label.upper ≠ b.label.upper :=
    ⟨fun _ _ hne => Ne.symm hne⟩
  have hapart := ScriptPlan.pairwise_upper_labels registry
  rw [labels, List.pairwise_map] at hapart
  by_contra hne
  exact hapart.forall hs ht hne h

theorem register_of_isBlank (h : Text.isBlank scope.name = true) :
    registry.register scope = .error (.missingArgument .scopeName) := by
  rw [register, dif_pos h]

theorem register_of_isReserved (hblank : Text.isBlank scope.name = false)
    (h : Label.IsReserved scope.label) :
    registry.register scope = .error (.reservedName scope.name) := by
  rw [register, dif_neg (by simp [hblank]), dif_pos (Scope.isReservedName_iff.mpr h)]

theorem register_of_clash (husable : Scope.IsUsableName scope.name) {existing : Scope}
    (hmem : existing ∈ registry.scopes) (hname : existing.name ≠ scope.name)
    (hlabel : existing.label.upper = scope.label.upper) :
    registry.register scope = .error (.nameConflict scope.name existing.name) := by
  rw [register, dif_neg (by simp [husable.1]), dif_neg (by simp [husable.2])]
  split
  · next found hfind =>
    -- only one scope has the label, so the one that is found is the one that was there
    have hfound := Scope.clashes_iff.mp (by simpa using List.find?_some hfind)
    obtain rfl : found = existing :=
      eq_of_upper_label_eq (List.mem_of_find?_eq_some hfind) hmem (hfound.trans hlabel.symm)
    rw [if_neg hname]
  · next hfind =>
    exact absurd (Scope.clashes_iff.mpr hlabel) (List.find?_eq_none.mp hfind existing hmem)

/-- Without a clash a scope takes the place of the one with its name, or stands last. -/
theorem register_of_free (husable : Scope.IsUsableName scope.name)
    (hfree : ∀ s ∈ registry.scopes, s.name ≠ scope.name → s.label.upper ≠ scope.label.upper) :
    ∃ next, registry.register scope = .ok next ∧
      next.scopes = if scope.name ∈ registry.names then replaced registry.scopes scope
        else registry.scopes ++ [scope] := by
  rw [register, dif_neg (by simp [husable.1]), dif_neg (by simp [husable.2])]
  split
  · next found hfind =>
    have hmem := List.mem_of_find?_eq_some hfind
    have hname : found.name = scope.name := by
      by_contra hne
      exact hfree found hmem hne (Scope.clashes_iff.mp (by simpa using List.find?_some hfind))
    have hnames : scope.name ∈ registry.names := List.mem_map.mpr ⟨found, hmem, hname⟩
    exact ⟨_, if_pos hname, (if_pos hnames).symm⟩
  · next hfind =>
    have hnames : scope.name ∉ registry.names := by
      intro h
      obtain ⟨s, hs, hname⟩ := List.mem_map.mp h
      refine List.find?_eq_none.mp hfind s hs (Scope.clashes_iff.mpr ?_)
      rw [Scope.label, Scope.label, hname]
    exact ⟨_, rfl, (if_neg hnames).symm⟩

theorem map_name_replaced (scopes : List Scope) (scope : Scope) :
    (replaced scopes scope).map Scope.name = scopes.map Scope.name := by
  rw [replaced, List.map_map]
  refine List.map_congr_left fun s _ => ?_
  by_cases h : s.name = scope.name <;> simp [h]

end ScopeRegistry

namespace ScriptPlan

/-- The scope that an edit adds to a plan, unless it is refused or another kind of edit. -/
def acceptedScope (plan : ScriptPlan) : Edit → List Scope
  | .scope added =>
    match plan.addScope added with
    | .ok _ => [added]
    | .error _ => []
  | .unset _ | .statement _ | .switch _ => []

/-- The scopes that a history of edits adds to a plan, refused ones left out. -/
def acceptedScopes (plan : ScriptPlan) : List Edit → List Scope
  | [] => []
  | change :: rest => plan.acceptedScope change ++ (plan.edit change).acceptedScopes rest

/-- Whether the scopes of a plan are those accepted so far: each name once, in the order of first
acceptance, as it was accepted last. -/
structure Records (plan : ScriptPlan) (accepted : List Scope) : Prop where
  names_eq : plan.scopes.names = distinct (accepted.map Scope.name)
  latest : ∀ s ∈ plan.scopes.scopes, ∃ before after, accepted = before ++ s :: after ∧
    ∀ t ∈ after, t.name ≠ s.name

theorem addScope_eq_ok {plan next : ScriptPlan} {scope : Scope} :
    plan.addScope scope = .ok next ↔
      ∃ scopes, plan.scopes.register scope = .ok scopes ∧ { plan with scopes := scopes } = next := by
  rw [addScope, map_eq_ok]

theorem addScope_eq_error {plan : ScriptPlan} {scope : Scope} {e : ScriptError}
    (h : plan.scopes.register scope = .error e) : plan.addScope scope = .error e := by
  rw [addScope, h]
  rfl

section Records

variable {plan : ScriptPlan} {accepted : List Scope} {scope : Scope}

theorem Records.mem_names (h : Records plan accepted) {name : Text} :
    name ∈ plan.scopes.names ↔ ∃ s ∈ accepted, s.name = name := by
  rw [h.names_eq, mem_distinct, List.mem_map]

theorem mem_accepted (h : Records plan accepted) {s : Scope} (hs : s ∈ plan.scopes.scopes) :
    s ∈ accepted := by
  obtain ⟨before, after, rfl, -⟩ := h.latest s hs
  exact List.mem_append_right _ List.mem_cons_self

/-- A name with the label was accepted exactly when the plan has a scope with that name and label. -/
theorem Records.exists_mem_iff (h : Records plan accepted) {P : Text → Prop} :
    (∃ s ∈ plan.scopes.scopes, P s.name) ↔ ∃ s ∈ accepted, P s.name := by
  constructor
  · rintro ⟨s, hs, hP⟩
    exact ⟨s, mem_accepted h hs, hP⟩
  · rintro ⟨s, hs, hP⟩
    obtain ⟨t, ht, hname⟩ := List.mem_map.mp (h.mem_names.mpr ⟨s, hs, rfl⟩)
    exact ⟨t, ht, hname ▸ hP⟩

/-- Whether a scope clashes with none of those accepted before. -/
def IsFree (accepted : List Scope) (scope : Scope) : Prop :=
  ∀ earlier ∈ accepted, earlier.name ≠ scope.name → earlier.label.upper ≠ scope.label.upper

theorem Records.isFree_iff (h : Records plan accepted) :
    IsFree plan.scopes.scopes scope ↔ IsFree accepted scope := by
  have hsame := h.exists_mem_iff (P := fun name =>
    name ≠ scope.name ∧ (Label.ofName name).upper = scope.label.upper)
  simp only [IsFree, Scope.label] at hsame ⊢
  grind

theorem Records.addScope_of_clash (h : Records plan accepted)
    (husable : Scope.IsUsableName scope.name) {earlier : Scope} (hmem : earlier ∈ accepted)
    (hname : earlier.name ≠ scope.name) (hlabel : earlier.label.upper = scope.label.upper) :
    plan.addScope scope = .error (.nameConflict scope.name earlier.name) := by
  obtain ⟨existing, hexisting, hsame⟩ := List.mem_map.mp (h.mem_names.mpr ⟨earlier, hmem, rfl⟩)
  rw [← hsame] at hname ⊢
  refine addScope_eq_error (ScopeRegistry.register_of_clash husable hexisting hname ?_)
  rw [Scope.label, hsame]
  exact hlabel

theorem Records.addScope_of_isFree (h : Records plan accepted)
    (husable : Scope.IsUsableName scope.name) (hfree : IsFree accepted scope) :
    ∃ next, plan.addScope scope = .ok next ∧
      next.scopes.scopes =
        if scope.name ∈ plan.scopes.names then ScopeRegistry.replaced plan.scopes.scopes scope
        else plan.scopes.scopes ++ [scope] := by
  obtain ⟨scopes, hscopes, heq⟩ := ScopeRegistry.register_of_free husable (h.isFree_iff.mpr hfree)
  exact ⟨_, addScope_eq_ok.mpr ⟨scopes, hscopes, rfl⟩, heq⟩

theorem addScope_of_not_isUsableName (plan : ScriptPlan)
    (husable : ¬Scope.IsUsableName scope.name) :
    ∃ e, plan.addScope scope = .error e := by
  by_cases hblank : Text.isBlank scope.name = true
  · exact ⟨_, addScope_eq_error (ScopeRegistry.register_of_isBlank hblank)⟩
  · rw [Bool.not_eq_true] at hblank
    have hreserved : Label.IsReserved scope.label := by
      rw [Scope.isUsableName_iff, not_and, not_not] at husable
      exact husable hblank
    exact ⟨_, addScope_eq_error (ScopeRegistry.register_of_isReserved hblank hreserved)⟩

/-- A scope is accepted exactly when its name can be used and clashes with none accepted before. -/
theorem Records.exists_addScope_eq_ok (h : Records plan accepted) :
    (∃ next, plan.addScope scope = .ok next) ↔
      Scope.IsUsableName scope.name ∧ IsFree accepted scope := by
  constructor
  · rintro ⟨next, hnext⟩
    have husable : Scope.IsUsableName scope.name := by
      by_contra hnot
      obtain ⟨e, he⟩ := addScope_of_not_isUsableName plan hnot
      rw [he] at hnext
      cases hnext
    refine ⟨husable, fun earlier hmem hname hlabel => ?_⟩
    rw [h.addScope_of_clash husable hmem hname hlabel] at hnext
    cases hnext
  · rintro ⟨husable, hfree⟩
    obtain ⟨next, hnext, -⟩ := h.addScope_of_isFree husable hfree
    exact ⟨next, hnext⟩

theorem Records.distinct_concat_name (h : Records plan accepted) (scope : Scope) :
    distinct ((accepted ++ [scope]).map Scope.name) =
      if scope.name ∈ plan.scopes.names then plan.scopes.names
      else plan.scopes.names ++ [scope.name] := by
  have hmem : scope.name ∈ plan.scopes.names ↔ scope.name ∈ accepted.map Scope.name := by
    rw [h.names_eq, mem_distinct]
  rw [List.map_append, List.map_singleton, distinct_concat, ← h.names_eq]
  by_cases hname : scope.name ∈ plan.scopes.names
  · rw [if_pos hname, if_pos (hmem.mp hname)]
  · rw [if_neg hname, if_neg (mt hmem.mpr hname)]

/-- What was accepted last under its name stays so when another name is accepted. -/
theorem Records.latest_concat (h : Records plan accepted) {s : Scope} (hs : s ∈ plan.scopes.scopes)
    (hne : s.name ≠ scope.name) :
    ∃ before after, accepted ++ [scope] = before ++ s :: after ∧ ∀ t ∈ after, t.name ≠ s.name := by
  obtain ⟨before, after, rfl, hafter⟩ := h.latest s hs
  refine ⟨before, after ++ [scope], by simp, ?_⟩
  intro t ht
  rcases List.mem_append.mp ht with ht | ht
  · exact hafter t ht
  · rw [List.mem_singleton.mp ht]
    exact Ne.symm hne

/-- What a scope that is accepted does to the record. -/
theorem Records.concat (h : Records plan accepted) {next : ScriptPlan}
    (hnext : plan.addScope scope = .ok next) : Records next (accepted ++ [scope]) := by
  obtain ⟨husable, hfree⟩ := h.exists_addScope_eq_ok.mp ⟨next, hnext⟩
  obtain ⟨other, hother, hscopes⟩ := h.addScope_of_isFree husable hfree
  obtain rfl : other = next := Except.ok.inj (hother.symm.trans hnext)
  have hlast : ∃ before after, accepted ++ [scope] = before ++ scope :: after ∧
      ∀ t ∈ after, t.name ≠ scope.name := ⟨accepted, [], rfl, nofun⟩
  by_cases hname : scope.name ∈ plan.scopes.names
  · rw [if_pos hname] at hscopes
    constructor
    · rw [h.distinct_concat_name, if_pos hname, ScopeRegistry.names, hscopes]
      exact ScopeRegistry.map_name_replaced plan.scopes.scopes scope
    · intro s hs
      rw [hscopes] at hs
      obtain ⟨t, ht, rfl⟩ := List.mem_map.mp hs
      by_cases hsame : t.name = scope.name
      · rwa [if_pos hsame]
      · rw [if_neg hsame]
        exact h.latest_concat ht hsame
  · rw [if_neg hname] at hscopes
    constructor
    · rw [h.distinct_concat_name, if_neg hname, ScopeRegistry.names, hscopes, List.map_append]
      rfl
    · intro s hs
      rw [hscopes] at hs
      rcases List.mem_append.mp hs with hs | hs
      · refine h.latest_concat hs fun hsame => hname ?_
        exact List.mem_map.mpr ⟨s, hs, hsame⟩
      · rwa [List.mem_singleton.mp hs]

/-- An edit keeps the record, whether it is accepted, refused or about something else. -/
theorem Records.edit (h : Records plan accepted) (change : Edit) :
    Records (plan.edit change) (accepted ++ plan.acceptedScope change) := by
  cases change with
  | scope added =>
    cases hadd : plan.addScope added with
    | ok next =>
      have hedit : plan.edit (.scope added) = next := by simp [ScriptPlan.edit, Edit.apply, hadd]
      simpa only [acceptedScope, hadd, hedit] using h.concat hadd
    | error e =>
      have hedit : plan.edit (.scope added) = plan := by simp [ScriptPlan.edit, Edit.apply, hadd]
      simpa only [acceptedScope, hadd, hedit, List.append_nil] using h
  | unset | statement | switch =>
    simpa only [acceptedScope, List.append_nil] using ⟨h.names_eq, h.latest⟩

theorem Records.editAll (h : Records plan accepted) (changes : List Edit) :
    Records (plan.editAll changes) (accepted ++ plan.acceptedScopes changes) := by
  induction changes generalizing plan accepted with
  | nil =>
    rw [acceptedScopes, List.append_nil]
    exact h
  | cons change rest ih =>
    rw [acceptedScopes, ← List.append_assoc]
    exact ih (h.edit change)

theorem records_new : Records new [] := ⟨rfl, by simp [new, ScopeRegistry.empty]⟩

end Records

/-- Whatever history of edits led to a plan, a scope is accepted next exactly when its name is not
blank, its label is not reserved, and no scope of another name with that label, whatever the case, was
accepted before; otherwise the first of these that fails is reported. The plan holds the names accepted
so far in the order of first acceptance, each with the variables of its last acceptance, and their
labels differ from each other and from those of every dispatch table, which are the places that it
marks. -/
theorem scopes_of_editAll (changes : List Edit) (scope : Scope) :
    let plan := new.editAll changes
    let accepted := new.acceptedScopes changes
    ((∃ next, plan.addScope scope = .ok next) ↔
      Text.isBlank scope.name = false ∧ ¬Label.IsReserved scope.label ∧
        ∀ earlier ∈ accepted, earlier.name ≠ scope.name →
          earlier.label.upper ≠ scope.label.upper) ∧
    (Text.isBlank scope.name = true →
      plan.addScope scope = .error (.missingArgument .scopeName)) ∧
    (Text.isBlank scope.name = false → Label.IsReserved scope.label →
      plan.addScope scope = .error (.reservedName scope.name)) ∧
    (Text.isBlank scope.name = false → ¬Label.IsReserved scope.label →
      ∀ earlier ∈ accepted, earlier.name ≠ scope.name →
        earlier.label.upper = scope.label.upper →
          plan.addScope scope = .error (.nameConflict scope.name earlier.name)) ∧
    plan.scopes.scopes.map Scope.name = distinct (accepted.map Scope.name) ∧
    (∀ s ∈ plan.scopes.scopes, ∃ before after, accepted = before ++ s :: after ∧
      ∀ t ∈ after, t.name ≠ s.name) ∧
    (plan.scopes.labels.Pairwise fun a b => a.upper ≠ b.upper) ∧
    (∀ label ∈ plan.scopes.labels, ∀ (size : Nat), ∀ place ∈ Dispatch.labels size,
      label.upper ≠ place.upper) ∧
    ∀ (subject : Text) (values : List Text), (∀ t ∈ subject :: values, '\n' ∉ t) →
      ∀ place, place ∈ Label.markedIn
        (Dispatch.table subject (values.map fun value => (value, [])) .windows) ↔
          place ∈ Dispatch.labels values.length := by
  intro plan accepted
  have hrecords : Records plan accepted := by simpa using records_new.editAll changes
  refine ⟨?_, fun hblank => addScope_eq_error (ScopeRegistry.register_of_isBlank hblank),
    fun hblank hreserved => addScope_eq_error (ScopeRegistry.register_of_isReserved hblank hreserved),
    fun hblank hreserved earlier hmem hname hlabel => ?_, hrecords.names_eq, hrecords.latest,
    pairwise_upper_labels plan.scopes, ?_,
    fun subject values hlines place => Dispatch.mem_markedIn_table_of_bare hlines⟩
  · rw [hrecords.exists_addScope_eq_ok, Scope.isUsableName_iff, and_assoc]
    rfl
  · exact hrecords.addScope_of_clash (Scope.isUsableName_iff.mpr ⟨hblank, hreserved⟩) hmem hname hlabel
  · intro label hlabel size place hplace heq
    obtain ⟨s, hs, rfl⟩ := List.mem_map.mp hlabel
    have hframe : Label.IsFrame place := Dispatch.isFrame_of_mem_labels hplace
    exact (plan.scopes.usable s hs).not_isFrame ((Label.IsFrame.congr heq).mpr hframe)

end ScriptPlan

end DualShell
