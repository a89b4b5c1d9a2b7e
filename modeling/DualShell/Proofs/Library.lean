import DualShell.LibraryFunction
import DualShell.NameSet
import DualShell.Proofs.Passes
import Mathlib.Data.Finset.Basic
import Mathlib.Data.List.Nodup
import Mathlib.Order.Bounds.Defs

/-!
Which library functions a script embeds. The pass from the last declared function to the first finds
the least set that holds the functions asked for and everything that its members call. Names resolve
exactly when each of them is defined elsewhere or belongs to a library function, and otherwise the
least name that nothing defines is reported.
-/

namespace DualShell.LibraryFunction

open Passes

/-- Whether a set holds the functions asked for and, with each member, the functions that it
calls. -/
def Covers (asked : LibraryFunction → Prop) (functions : Finset LibraryFunction) : Prop :=
  (∀ f, asked f → f ∈ functions) ∧ ∀ f ∈ functions, ∀ callee ∈ f.dependencies, callee ∈ functions

/-- What the pass keeps of the functions at the end of the declarations. -/
def kept (required declared : List LibraryFunction) : List LibraryFunction :=
  declared.foldr (fun function kept =>
    if required.contains function || kept.any (·.dependencies.contains function) then
      function :: kept
    else kept) []

theorem closure_eq_kept (required : List LibraryFunction) : closure required = kept required all :=
  rfl

section Kept

variable {required : List LibraryFunction}

theorem kept_cons (f : LibraryFunction) (rest : List LibraryFunction) :
    kept required (f :: rest) =
      if f ∈ required ∨ ∃ g ∈ kept required rest, f ∈ g.dependencies then
        f :: kept required rest
      else kept required rest := by
  simp [kept]

theorem kept_subset_cons (f : LibraryFunction) (rest : List LibraryFunction) :
    kept required rest ⊆ kept required (f :: rest) := by
  rw [kept_cons]
  split
  · exact List.subset_cons_self f _
  · exact List.Subset.refl _

theorem kept_sublist (declared : List LibraryFunction) : (kept required declared).Sublist declared := by
  induction declared with
  | nil => exact List.Sublist.refl _
  | cons f rest ih =>
    rw [kept_cons]
    split
    · exact ih.cons_cons f
    · exact ih.cons f

theorem mem_kept_of_mem_required {f : LibraryFunction} {declared : List LibraryFunction}
    (hdeclared : f ∈ declared) (hrequired : f ∈ required) : f ∈ kept required declared := by
  induction declared with
  | nil => simp at hdeclared
  | cons g rest ih =>
    rcases List.mem_cons.mp hdeclared with rfl | hrest
    · rw [kept_cons, if_pos (Or.inl hrequired)]
      exact List.mem_cons_self
    · exact kept_subset_cons g rest (ih hrest)

/-- No function calls itself or one declared after it. -/
def CallsBackward (declared : List LibraryFunction) : Prop :=
  (∀ f ∈ declared, f ∉ f.dependencies) ∧ declared.Pairwise fun f later => later ∉ f.dependencies

theorem callee_mem_kept {declared : List LibraryFunction} (hcalls : CallsBackward declared)
    {f callee : LibraryFunction} (hf : f ∈ kept required declared) (hcallee : callee ∈ f.dependencies)
    (hdeclared : callee ∈ declared) : callee ∈ kept required declared := by
  induction declared with
  | nil => simp at hdeclared
  | cons g rest ih =>
    obtain ⟨hself, hpairs⟩ := hcalls
    obtain ⟨hlater, hrest⟩ := List.pairwise_cons.mp hpairs
    have hmem : f = g ∨ f ∈ kept required rest := by
      rw [kept_cons] at hf
      split at hf
      · exact List.mem_cons.mp hf
      · exact Or.inr hf
    rcases List.mem_cons.mp hdeclared with rfl | hcalleeRest
    · -- the callee comes first, so what calls it is kept already
      rcases hmem with rfl | hf
      · exact absurd hcallee (hself f (by simp))
      · rw [kept_cons, if_pos (Or.inr ⟨f, hf, hcallee⟩)]
        exact List.mem_cons_self
    · rcases hmem with rfl | hf
      · exact absurd hcallee (hlater callee hcalleeRest)
      · exact kept_subset_cons g rest
          (ih ⟨fun h hh => hself h (List.mem_cons_of_mem g hh), hrest⟩ hf hcalleeRest)

theorem kept_subset_of_covers {functions : Finset LibraryFunction}
    (h : Covers (· ∈ required) functions) (declared : List LibraryFunction) :
    ∀ f ∈ kept required declared, f ∈ functions := by
  induction declared with
  | nil => simp [kept]
  | cons g rest ih =>
    intro f hf
    rw [kept_cons] at hf
    split at hf
    · next hg =>
      rcases List.mem_cons.mp hf with rfl | hf
      · rcases hg with hg | ⟨caller, hcaller, hcalls⟩
        · exact h.1 f hg
        · exact h.2 caller (ih caller hcaller) f hcalls
      · exact ih f hf
    · exact ih f hf

end Kept

theorem callsBackward_all : CallsBackward all := by
  constructor <;> decide

/-- The closure is the least set that covers the required functions. -/
theorem isLeast_closure (required : List LibraryFunction) :
    IsLeast {functions | Covers (· ∈ required) functions} (closure required).toFinset := by
  rw [closure_eq_kept]
  refine ⟨⟨?_, ?_⟩, ?_⟩
  · intro f hf
    exact List.mem_toFinset.mpr (mem_kept_of_mem_required (mem_all f) hf)
  · intro f hf callee hcallee
    rw [List.mem_toFinset] at hf ⊢
    exact callee_mem_kept callsBackward_all hf hcallee (mem_all callee)
  · intro functions hfunctions f hf
    exact kept_subset_of_covers hfunctions all f (List.mem_toFinset.mp hf)

/-- The closure stands in the order of declaration, each function once. -/
theorem closure_eq_filter (required : List LibraryFunction) :
    closure required = all.filter (· ∈ closure required) := by
  have hall : all.Nodup := by decide
  have hsub : (closure required).Sublist all := kept_sublist all
  have hsame : (closure required).Sublist (all.filter (· ∈ closure required)) := by
    simpa [List.filter_eq_self.mpr] using hsub.filter (· ∈ closure required)
  refine hsame.eq_of_length_le ?_
  have hnodup : (all.filter (· ∈ closure required)).Nodup := hall.filter _
  refine (hnodup.subperm ?_).length_le
  intro f hf
  simpa using (List.mem_filter.mp hf).2

/-! ### Names -/

theorem ofName?_eq_some {name : Text} {f : LibraryFunction} :
    ofName? name = some f ↔ f.name = name := by
  constructor
  · exact name_eq_of_ofName?
  · rintro rfl
    exact ofName?_name f

theorem lookUp_eq_ok {family : Family} {name : Text} {f : LibraryFunction} :
    lookUp family name = .ok f ↔ f.name = name := by
  rw [← ofName?_eq_some, lookUp]
  cases ofName? name <;> simp

theorem lookUp_eq_error (family : Family) {name : Text} (h : ∀ f : LibraryFunction, f.name ≠ name) :
    lookUp family name = .error (.unknownFunction name family) := by
  have hnone : ofName? name = none := by
    cases hname : ofName? name with
    | none => rfl
    | some f => exact absurd (name_eq_of_ofName? hname) (h f)
  rw [lookUp, hnone]

/-- Names resolve exactly when each of them is defined elsewhere or is a library function's. -/
theorem exists_resolve_eq_ok {family : Family} {defined names : List Text} :
    (∃ library, resolve family defined names = .ok library) ↔
      ∀ name ∈ names, name ∈ defined ∨ ∃ f : LibraryFunction, f.name = name := by
  rw [resolve, exists_map_eq_ok, exists_traverse_eq_ok]
  simp only [List.mem_filter, decide_eq_true_eq, lookUp_eq_ok, and_imp]
  constructor
  · intro h name hname
    by_cases hdefined : name ∈ defined
    · exact Or.inl hdefined
    · exact Or.inr (h name hname hdefined)
  · intro h name hname hdefined
    exact (h name hname).resolve_left hdefined

/-- What names resolve to is the closure of the functions that they name and nothing else defines. -/
theorem eq_closure_of_resolve {family : Family} {defined names : List Text}
    {library : List LibraryFunction} (h : resolve family defined names = .ok library) :
    ∃ required, library = closure required ∧
      ∀ f, f ∈ required ↔ f.name ∈ names ∧ f.name ∉ defined := by
  obtain ⟨required, hrequired, rfl⟩ := map_eq_ok.mp h
  refine ⟨required, rfl, fun f => ?_⟩
  rw [mem_of_traverse_eq_ok hrequired]
  constructor
  · rintro ⟨name, hname, hf⟩
    obtain rfl := lookUp_eq_ok.mp hf
    simpa using List.mem_filter.mp hname
  · intro hf
    exact ⟨f.name, by simpa using hf, lookUp_eq_ok.mpr rfl⟩

theorem nodup_of_resolve {family : Family} {defined names : List Text}
    {library : List LibraryFunction} (h : resolve family defined names = .ok library) :
    library.Nodup := by
  obtain ⟨required, rfl, -⟩ := eq_closure_of_resolve h
  rw [closure_eq_filter]
  exact List.Nodup.filter _ (by decide)

/-- The first name in order that nothing defines is the one reported. -/
theorem resolve_eq_error {family : Family} {defined before after : List Text} {name : Text}
    (hbefore : ∀ other ∈ before, other ∈ defined ∨ ∃ f : LibraryFunction, f.name = other)
    (hdefined : name ∉ defined) (hname : ∀ f : LibraryFunction, f.name ≠ name) :
    resolve family defined (before ++ name :: after) = .error (.unknownFunction name family) := by
  have hfirst : ∀ other ∈ before.filter (· ∉ defined), ∃ f, lookUp family other = .ok f := by
    intro other hother
    obtain ⟨hmem, hnot⟩ := List.mem_filter.mp hother
    obtain ⟨f, hf⟩ := (hbefore other hmem).resolve_left (by simpa using hnot)
    exact ⟨f, lookUp_eq_ok.mpr hf⟩
  rw [resolve, List.filter_append, List.filter_cons_of_pos (by simpa using hdefined),
    traverse_append_cons_error hfirst (lookUp_eq_error family hname)]
  rfl

end DualShell.LibraryFunction
