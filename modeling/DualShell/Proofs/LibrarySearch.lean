import DualShell.Proofs.Library
import Mathlib.Algebra.BigOperators.Group.Finset.Basic
import Mathlib.Data.Fintype.Basic
import Mathlib.Logic.Function.Iterate
import Mathlib.Order.Bounds.Basic

/-!
How the library functions for a script are searched. The search looks at one function after the other
and comes to the functions that it calls when it finds it for the first time. It always ends, and what
it has found then is the least set that holds the functions asked for and all that its members call. So
what names resolve to depends only on the set of them, grows with it, and asks for nothing more itself.
-/

namespace DualShell.LibraryFunction

open Passes

instance : Fintype LibraryFunction := ⟨all.toFinset, fun f => List.mem_toFinset.mpr (mem_all f)⟩

/-- Where a search stands: the functions found, and those that it still has to look at, the last of
them next. -/
structure Search where
  found : Finset LibraryFunction
  pending : List LibraryFunction

namespace Search

/-- The search before its first look. -/
def start (asked : List LibraryFunction) : Search := ⟨∅, asked⟩

/-- Looks at the next function. If it was not found before, it is now, and the functions that it calls
are to be looked at. -/
def step (search : Search) : Search :=
  match search.pending.getLast? with
  | none => search
  | some f =>
    if f ∈ search.found then ⟨search.found, search.pending.dropLast⟩
    else ⟨insert f search.found, search.pending.dropLast ++ f.dependencies⟩

/-- How many looks are left at most: one for each function pending, and one for each call of a function
that is not found yet. -/
def remaining (search : Search) : Nat :=
  search.pending.length + ∑ f ∈ search.foundᶜ, f.dependencies.length

/-- A look at a function, found before or new. -/
inductive Looks : Search → Search → Prop
  | known {found : Finset LibraryFunction} {others : List LibraryFunction} {f : LibraryFunction} :
    f ∈ found → Looks ⟨found, others ++ [f]⟩ ⟨found, others⟩
  | new {found : Finset LibraryFunction} {others : List LibraryFunction} {f : LibraryFunction} :
    f ∉ found → Looks ⟨found, others ++ [f]⟩ ⟨insert f found, others ++ f.dependencies⟩

variable {search next : Search}

theorem step_eq_self (h : search.pending = []) : search.step = search := by
  rw [step, h]
  rfl

theorem looks_step (h : search.pending ≠ []) : Looks search search.step := by
  obtain ⟨found, pending⟩ := search
  obtain ⟨others, f, rfl⟩ := (List.eq_nil_or_concat' pending).resolve_left h
  simp only [step, List.getLast?_append, List.getLast?_singleton, Option.some_or,
    List.dropLast_concat]
  split
  · next hfound => exact .known hfound
  · next hnew => exact .new hnew

/-! ### The end of the search -/

theorem Looks.remaining_eq (h : Looks search next) : next.remaining + 1 = search.remaining := by
  cases h with
  | @known found others f hfound =>
    simp only [remaining, List.length_append, List.length_singleton]
    omega
  | @new found others f hnew =>
    have hsum := Finset.add_sum_erase foundᶜ (fun g => g.dependencies.length)
      (Finset.mem_compl.mpr hnew)
    simp only [remaining, List.length_append, List.length_singleton, Finset.compl_insert]
    omega

/-- After as many looks as are left at most, nothing is pending. -/
theorem pending_iterate {steps : Nat} (h : search.remaining ≤ steps) :
    (step^[steps] search).pending = [] := by
  induction steps generalizing search with
  | zero =>
    rw [remaining] at h
    change search.pending = []
    exact List.eq_nil_of_length_eq_zero (by omega)
  | succ steps ih =>
    by_cases hpending : search.pending = []
    · rw [Function.iterate_fixed (step_eq_self hpending)]
      exact hpending
    · have hlook := (looks_step hpending).remaining_eq
      rw [Function.iterate_succ_apply]
      exact ih (by omega)

/-! ### What is found -/

/-- What every look keeps: nothing that is asked for or called by a function found is lost, and all that
the search has come to is in every set that covers what is asked for. -/
structure Sound (asked : LibraryFunction → Prop) (search : Search) : Prop where
  asked_reached : ∀ f, asked f → f ∈ search.found ∨ f ∈ search.pending
  callee_reached : ∀ f ∈ search.found, ∀ callee ∈ f.dependencies,
    callee ∈ search.found ∨ callee ∈ search.pending
  needed : ∀ functions, Covers asked functions →
    (∀ f ∈ search.found, f ∈ functions) ∧ ∀ f ∈ search.pending, f ∈ functions

variable {asked : LibraryFunction → Prop}

theorem sound_start (required : List LibraryFunction) : Sound (· ∈ required) (start required) where
  asked_reached _ hf := Or.inr hf
  callee_reached _ hf := absurd hf (Finset.notMem_empty _)
  needed _ hcovers := ⟨fun _ hf => absurd hf (Finset.notMem_empty _), hcovers.1⟩

theorem Looks.sound (hlook : Looks search next) (h : Sound asked search) : Sound asked next := by
  cases hlook with
  | @known found others f hfound =>
    -- what leaves the pending functions is found already
    have hreached : ∀ g, g ∈ found ∨ g ∈ others ++ [f] → g ∈ found ∨ g ∈ others := by
      intro g hg
      rw [List.mem_append, List.mem_singleton] at hg
      obtain hg | hg | rfl := hg
      · exact Or.inl hg
      · exact Or.inr hg
      · exact Or.inl hfound
    refine ⟨fun g hg => hreached g (h.asked_reached g hg),
      fun g hg callee hcallee => hreached callee (h.callee_reached g hg callee hcallee),
      fun functions hcovers => ?_⟩
    obtain ⟨hfunctions, hpending⟩ := h.needed functions hcovers
    exact ⟨hfunctions, fun g hg => hpending g (List.mem_append_left _ hg)⟩
  | @new found others f hnew =>
    have hreached : ∀ g, g ∈ found ∨ g ∈ others ++ [f] →
        g ∈ insert f found ∨ g ∈ others ++ f.dependencies := by
      intro g hg
      rw [List.mem_append, List.mem_singleton] at hg
      obtain hg | hg | rfl := hg
      · exact Or.inl (Finset.mem_insert_of_mem hg)
      · exact Or.inr (List.mem_append_left _ hg)
      · exact Or.inl (Finset.mem_insert_self g found)
    refine ⟨fun g hg => hreached g (h.asked_reached g hg), fun g hg callee hcallee => ?_,
      fun functions hcovers => ?_⟩
    · obtain rfl | hg := Finset.mem_insert.mp hg
      · exact Or.inr (List.mem_append_right _ hcallee)
      · exact hreached callee (h.callee_reached g hg callee hcallee)
    · obtain ⟨hfunctions, hpending⟩ := h.needed functions hcovers
      have hf : f ∈ functions := hpending f (List.mem_append_right _ (List.mem_singleton_self f))
      refine ⟨fun g hg => ?_, fun g hg => ?_⟩
      · obtain rfl | hg := Finset.mem_insert.mp hg
        · exact hf
        · exact hfunctions g hg
      · obtain hg | hg := List.mem_append.mp hg
        · exact hpending g (List.mem_append_left _ hg)
        · exact hcovers.2 f hf g hg

theorem Sound.step (h : Sound asked search) : Sound asked search.step := by
  by_cases hpending : search.pending = []
  · rwa [step_eq_self hpending]
  · exact (looks_step hpending).sound h

theorem Sound.iterate (h : Sound asked search) (steps : Nat) :
    Sound asked (Search.step^[steps] search) := by
  induction steps generalizing search with
  | zero => exact h
  | succ steps ih => exact ih h.step

theorem Sound.isLeast_found (h : Sound asked search) (hpending : search.pending = []) :
    IsLeast {functions | Covers asked functions} search.found := by
  have hnone (f : LibraryFunction) : f ∉ search.pending := hpending ▸ List.not_mem_nil
  refine ⟨⟨fun f hf => (h.asked_reached f hf).resolve_right (hnone f), ?_⟩, ?_⟩
  · intro f hf callee hcallee
    exact (h.callee_reached f hf callee hcallee).resolve_right (hnone callee)
  · exact fun functions hcovers => (h.needed functions hcovers).1

/-- The search ends, and it has found what the pass over the declarations finds. -/
theorem iterate_start {required : List LibraryFunction} {steps : Nat}
    (h : (start required).remaining ≤ steps) :
    Search.step^[steps] (start required) = ⟨(closure required).toFinset, []⟩ := by
  have hpending := pending_iterate h
  have hfound := ((sound_start required).iterate steps).isLeast_found hpending
  have heq := hfound.unique (isLeast_closure required)
  cases hend : Search.step^[steps] (start required) with
  | mk found pending =>
    rw [hend] at hpending heq
    rw [← heq, ← hpending]

end Search

/-! ### Names -/

section Covers

variable {p q : LibraryFunction → Prop} {s t : Finset LibraryFunction}

theorem Covers.mono (h : Covers q s) (hpq : ∀ f, p f → q f) : Covers p s :=
  ⟨fun f hf => h.1 f (hpq f hf), h.2⟩

theorem isLeast_covers_union (hs : IsLeast {functions | Covers p functions} s)
    (ht : IsLeast {functions | Covers q functions} t) :
    IsLeast {functions | Covers (fun f => p f ∨ q f) functions} (s ∪ t) := by
  refine ⟨⟨?_, ?_⟩, ?_⟩
  · rintro f (hf | hf)
    · exact Finset.mem_union_left t (hs.1.1 f hf)
    · exact Finset.mem_union_right s (ht.1.1 f hf)
  · intro f hf callee hcallee
    obtain hf | hf := Finset.mem_union.mp hf
    · exact Finset.mem_union_left t (hs.1.2 f hf callee hcallee)
    · exact Finset.mem_union_right s (ht.1.2 f hf callee hcallee)
  · intro functions hcovers
    exact Finset.union_subset (hs.2 (Covers.mono hcovers fun f => Or.inl))
      (ht.2 (Covers.mono hcovers fun f => Or.inr))

/-- A set that holds all that its members call is the least one that holds its members. -/
theorem isLeast_covers_self (h : Covers p s) : IsLeast {functions | Covers (· ∈ s) functions} s :=
  ⟨⟨fun _ => id, h.2⟩, fun _ hcovers _ hf => hcovers.1 _ hf⟩

end Covers

/-- Whether a name belongs to something: it is defined elsewhere, or it is a library function's. -/
def IsDefined (defined : List Text) (name : Text) : Prop :=
  name ∈ defined ∨ ∃ f : LibraryFunction, f.name = name

/-- Whether names ask for a function. Names that are defined elsewhere ask for nothing. -/
def IsAsked (defined names : List Text) (f : LibraryFunction) : Prop :=
  f.name ∈ names ∧ f.name ∉ defined

/-- The functions that names ask for, in the order of the names. -/
def askedFor (defined names : List Text) : List LibraryFunction :=
  (names.filter fun name => !defined.contains name).filterMap ofName?

section Resolve

variable {family : Family} {defined names : List Text} {library : List LibraryFunction}

theorem eq_filterMap_of_traverse {required : List LibraryFunction}
    (h : traverse (lookUp family) names = .ok required) : required = names.filterMap ofName? := by
  induction names generalizing required with
  | nil => exact (Except.ok.inj h).symm
  | cons name rest ih =>
    obtain ⟨f, others, hf, hothers, rfl⟩ := traverse_cons_eq_ok.mp h
    rw [List.filterMap_cons_some (ofName?_eq_some.mpr (lookUp_eq_ok.mp hf)), ih hothers]

theorem eq_closure_askedFor (h : resolve family defined names = .ok library) :
    library = closure (askedFor defined names) := by
  obtain ⟨required, hrequired, rfl⟩ := map_eq_ok.mp h
  have hfilter : names.filter (· ∉ defined) = names.filter fun name => !defined.contains name :=
    List.filter_congr fun name _ => by simp
  rw [eq_filterMap_of_traverse hrequired, hfilter, askedFor]

theorem mem_askedFor {f : LibraryFunction} :
    f ∈ askedFor defined names ↔ IsAsked defined names f := by
  simp only [askedFor, List.mem_filterMap, List.mem_filter, ofName?_eq_some, Bool.not_eq_true',
    List.contains_eq_mem, decide_eq_false_iff_not, IsAsked]
  constructor
  · rintro ⟨_, hname, rfl⟩
    exact hname
  · exact fun hf => ⟨f.name, hf, rfl⟩

/-- A list in the order of declaration, each function once, is known by its members. -/
theorem eq_of_toFinset_eq {functions others : List LibraryFunction}
    (hfunctions : functions = all.filter (· ∈ functions)) (hothers : others = all.filter (· ∈ others))
    (h : functions.toFinset = others.toFinset) : functions = others := by
  rw [hfunctions, hothers]
  refine List.filter_congr fun f _ => ?_
  have hmem := Finset.ext_iff.mp h f
  rw [List.mem_toFinset, List.mem_toFinset] at hmem
  simp only [hmem]

/-- Names resolve to the least set that covers what they ask for, in the order of declaration. -/
theorem resolve_eq_ok_iff :
    resolve family defined names = .ok library ↔
      (∀ name ∈ names, IsDefined defined name) ∧
        IsLeast {functions | Covers (IsAsked defined names) functions} library.toFinset ∧
        library = all.filter (· ∈ library) := by
  have hleast {functions : List LibraryFunction}
      (h : resolve family defined names = .ok functions) :
      IsLeast {s | Covers (IsAsked defined names) s} functions.toFinset ∧
        functions = all.filter (· ∈ functions) := by
    obtain rfl := eq_closure_askedFor h
    have hasked : (· ∈ askedFor defined names) = IsAsked defined names :=
      funext fun f => propext mem_askedFor
    exact ⟨hasked ▸ isLeast_closure _, closure_eq_filter _⟩
  constructor
  · intro h
    exact ⟨exists_resolve_eq_ok.mp ⟨library, h⟩, hleast h⟩
  · rintro ⟨hdefined, hlibrary, hfilter⟩
    obtain ⟨functions, hfunctions⟩ := exists_resolve_eq_ok.mpr hdefined
    obtain ⟨hsame, hordered⟩ := hleast hfunctions
    rw [hfunctions, eq_of_toFinset_eq hordered hfilter (hsame.unique hlibrary)]

/-- What names resolve to depends only on the set of them. -/
theorem resolve_congr {others : List Text} (h : ∀ name, name ∈ others ↔ name ∈ names)
    (hnames : resolve family defined names = .ok library) :
    resolve family defined others = .ok library := by
  have hasked : IsAsked defined others = IsAsked defined names := by
    funext f
    simp only [IsAsked, h]
  rw [resolve_eq_ok_iff] at hnames ⊢
  rw [hasked]
  exact ⟨fun name hname => hnames.1 name ((h name).mp hname), hnames.2⟩

theorem resolve_of_subset {others : List Text} (h : others ⊆ names)
    (hnames : resolve family defined names = .ok library) :
    ∃ smaller, resolve family defined others = .ok smaller ∧ smaller ⊆ library := by
  obtain ⟨hdefined, hlibrary, -⟩ := resolve_eq_ok_iff.mp hnames
  obtain ⟨smaller, hsmaller⟩ := exists_resolve_eq_ok.mpr fun name hname => hdefined name (h hname)
  obtain ⟨-, hleast, -⟩ := resolve_eq_ok_iff.mp hsmaller
  have hcovers : Covers (IsAsked defined others) library.toFinset :=
    hlibrary.1.mono fun f hf => ⟨h hf.1, hf.2⟩
  refine ⟨smaller, hsmaller, fun f hf => ?_⟩
  exact List.mem_toFinset.mp (hleast.2 hcovers (List.mem_toFinset.mpr hf))

theorem resolve_append {first second : List Text}
    (h : resolve family defined (first ++ second) = .ok library) :
    ∃ a b, resolve family defined first = .ok a ∧ resolve family defined second = .ok b ∧
      library.toFinset = a.toFinset ∪ b.toFinset := by
  obtain ⟨a, ha, -⟩ := resolve_of_subset (List.subset_append_left first second) h
  obtain ⟨b, hb, -⟩ := resolve_of_subset (List.subset_append_right first second) h
  have hunion := isLeast_covers_union (resolve_eq_ok_iff.mp ha).2.1 (resolve_eq_ok_iff.mp hb).2.1
  have hasked : (fun f => IsAsked defined first f ∨ IsAsked defined second f) =
      IsAsked defined (first ++ second) := by
    funext f
    simp only [IsAsked, List.mem_append, or_and_right]
  rw [hasked] at hunion
  exact ⟨a, b, ha, hb, (resolve_eq_ok_iff.mp h).2.1.unique hunion⟩

/-- The names of the functions found ask for these functions and no more. -/
theorem resolve_own {own : List Text} (hown : ∀ name, name ∈ own ↔ ∃ f ∈ library, f.name = name)
    (h : resolve family defined names = .ok library) : resolve family [] own = .ok library := by
  obtain ⟨-, hleast, hfilter⟩ := resolve_eq_ok_iff.mp h
  have hasked : IsAsked [] own = (· ∈ library.toFinset) := by
    funext f
    rw [IsAsked, hown, List.mem_toFinset]
    refine propext ⟨?_, fun hf => ⟨⟨f, hf, rfl⟩, List.not_mem_nil⟩⟩
    rintro ⟨⟨g, hg, hname⟩, -⟩
    have hsame := ofName?_name g
    rw [hname, ofName?_name f] at hsame
    exact Option.some.inj hsame ▸ hg
  rw [resolve_eq_ok_iff, hasked]
  refine ⟨fun name hname => ?_, isLeast_covers_self hleast.1, hfilter⟩
  obtain ⟨f, -, hf⟩ := (hown name).mp hname
  exact Or.inr ⟨f, hf⟩

/-- The first name in order that belongs to nothing is reported. -/
theorem resolve_eq_error_iff {e : RenderError} :
    resolve family defined names = .error e ↔
      ∃ before name after, names = before ++ name :: after ∧
        (∀ other ∈ before, IsDefined defined other) ∧ ¬IsDefined defined name ∧
        e = .unknownFunction name family := by
  constructor
  · intro h
    have hunknown : ¬∀ name ∈ names, IsDefined defined name := by
      intro hall
      obtain ⟨library, hlibrary⟩ := exists_resolve_eq_ok.mpr hall
      rw [h] at hlibrary
      cases hlibrary
    obtain ⟨before, name, after, rfl, hbefore, hname⟩ := exists_first_not hunknown
    obtain ⟨hdefined, hlibrary⟩ := not_or.mp hname
    rw [resolve_eq_error hbefore hdefined (not_exists.mp hlibrary)] at h
    exact ⟨before, name, after, rfl, hbefore, hname, (Except.error.inj h).symm⟩
  · rintro ⟨before, name, after, rfl, hbefore, hname, rfl⟩
    obtain ⟨hdefined, hlibrary⟩ := not_or.mp hname
    exact resolve_eq_error hbefore hdefined (not_exists.mp hlibrary)

end Resolve

/-- Names resolve unless one of them is neither defined elsewhere nor a library function's; the first of
these is reported. Otherwise the search for the functions that they ask for ends, and what it has found
is the least set that holds these functions and all that its members call, defined elsewhere or not. So
it stays the same when names are put in another order or repeated, it grows with the names, it is put
together from what parts of the names resolve to, and its own names resolve to it. -/
theorem library_of_resolve (family : Family) (defined names : List Text) :
    ((∃ e, resolve family defined names = .error e) ↔
      ∃ name ∈ names, name ∉ defined ∧ ∀ f : LibraryFunction, f.name ≠ name) ∧
    (∀ e, resolve family defined names = .error e ↔
      ∃ before name after, names = before ++ name :: after ∧
        (∀ other ∈ before, IsDefined defined other) ∧ ¬IsDefined defined name ∧
        e = .unknownFunction name family) ∧
    ∀ library, resolve family defined names = .ok library →
      (∀ steps, (Search.start (askedFor defined names)).remaining ≤ steps →
        Search.step^[steps] (Search.start (askedFor defined names)) = ⟨library.toFinset, []⟩) ∧
      IsLeast {functions | Covers (IsAsked defined names) functions} library.toFinset ∧
      library = all.filter (· ∈ library) ∧
      (∀ others, (∀ name, name ∈ others ↔ name ∈ names) →
        resolve family defined others = .ok library) ∧
      (∀ others, others ⊆ names →
        ∃ smaller, resolve family defined others = .ok smaller ∧ smaller ⊆ library) ∧
      (∀ first second, first ++ second = names →
        ∃ a b, resolve family defined first = .ok a ∧ resolve family defined second = .ok b ∧
          library.toFinset = a.toFinset ∪ b.toFinset) ∧
      ∀ own, (∀ name, name ∈ own ↔ ∃ f ∈ library, f.name = name) →
        resolve family [] own = .ok library := by
  refine ⟨?_, fun e => resolve_eq_error_iff, fun library h => ?_⟩
  · constructor
    · rintro ⟨e, he⟩
      obtain ⟨before, name, after, rfl, -, hname, -⟩ := resolve_eq_error_iff.mp he
      obtain ⟨hdefined, hlibrary⟩ := not_or.mp hname
      exact ⟨name, List.mem_append_right _ List.mem_cons_self, hdefined, not_exists.mp hlibrary⟩
    · rintro ⟨name, hname, hdefined, hlibrary⟩
      cases hresolve : resolve family defined names with
      | error e => exact ⟨e, rfl⟩
      | ok library =>
        obtain hmem | ⟨f, hf⟩ := exists_resolve_eq_ok.mp ⟨library, hresolve⟩ name hname
        · exact absurd hmem hdefined
        · exact absurd hf (hlibrary f)
  · obtain ⟨-, hleast, hfilter⟩ := resolve_eq_ok_iff.mp h
    refine ⟨fun steps hsteps => ?_, hleast, hfilter, fun others hothers => resolve_congr hothers h,
      fun others hothers => resolve_of_subset hothers h, ?_, fun own hown => resolve_own hown h⟩
    · rw [eq_closure_askedFor h]
      exact Search.iterate_start hsteps
    · rintro first second rfl
      exact resolve_append h

/-- A function that is defined elsewhere is not asked for, and found all the same when another one calls
it. -/
theorem library_of_resolve_maskedAbort :
    let names : List Text := ["web", "forget", "abort", "forget"]
    let defined : List Text := ["abort", "web"]
    resolve .unix defined names = .ok [.abort, .findPid, .forget] ∧
    Search.step^[5] (Search.start (askedFor defined names)) =
      ⟨[LibraryFunction.abort, .findPid, .forget].toFinset, []⟩ ∧
    resolve .unix defined ["forget", "web", "abort"] = .ok [.abort, .findPid, .forget] ∧
    (∃ smaller, resolve .unix defined ["web"] = .ok smaller ∧
      smaller ⊆ [.abort, .findPid, .forget]) ∧
    (∃ a b, resolve .unix defined ["web", "forget"] = .ok a ∧
      resolve .unix defined ["abort", "forget"] = .ok b ∧
      [LibraryFunction.abort, .findPid, .forget].toFinset = a.toFinset ∪ b.toFinset) ∧
    resolve .unix [] ["forget", "findPid", "abort"] = .ok [.abort, .findPid, .forget] := by
  intro names defined
  have hresolve : resolve .unix defined names = .ok [.abort, .findPid, .forget] := by decide
  have hsteps : (Search.start (askedFor defined names)).remaining ≤ 5 := by decide
  have hown : ∀ name : Text, name ∈ (["forget", "findPid", "abort"] : List Text) ↔
      ∃ f ∈ [LibraryFunction.abort, .findPid, .forget], f.name = name := by
    intro name
    have hnames : [LibraryFunction.abort, .findPid, .forget].map LibraryFunction.name =
        ["abort", "findPid", "forget"] := by decide
    rw [← List.mem_map, hnames]
    exact List.Perm.mem_iff (by decide)
  obtain ⟨-, -, hlibrary⟩ := library_of_resolve .unix defined names
  obtain ⟨hsearch, -, -, hsame, hsubset, hparts, hagain⟩ := hlibrary _ hresolve
  refine ⟨hresolve, hsearch 5 hsteps, hsame _ fun name => ?_, hsubset _ ?_, hparts _ _ rfl,
    hagain _ hown⟩
  · simp only [names, List.mem_cons, List.not_mem_nil, or_false]
    tauto
  · exact List.cons_subset_cons _ (List.nil_subset _)

end DualShell.LibraryFunction
