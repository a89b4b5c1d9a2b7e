import DualShell.LibraryFunction
import DualShell.Scope
import DualShell.ScriptError
import DualShell.Text.Blank

/-!
The scopes of a script. Their names are usable and their labels differ even without regard to case,
so that each call reaches the scope that it names on either family.
-/

namespace DualShell

namespace Scope

/-- Whether the label of a name belongs to a library function or to a script's own frame, but for
case. -/
def isReservedName (name : Text) : Bool :=
  (LibraryFunction.all.any fun function => function.name.upper = (Label.ofName name).upper) ||
    Label.isInternal name

/-- A name that a scope can have. -/
def IsUsableName (name : Text) : Prop :=
  Text.isBlank name = false ∧ isReservedName name = false

def clashes (a b : Scope) : Bool := Label.same a.name b.name

end Scope

structure ScopeRegistry where
  scopes : List Scope
  usable : ∀ s ∈ scopes, Scope.IsUsableName s.name
  apart : scopes.Pairwise fun a b => a.clashes b = false
  deriving DecidableEq

namespace ScopeRegistry

def empty : ScopeRegistry := ⟨[], by simp, List.Pairwise.nil⟩

/-- Puts the scope in the place of the scope with its name. -/
def replaced (scopes : List Scope) (scope : Scope) : List Scope :=
  scopes.map fun s => if s.name = scope.name then scope else s

theorem clashes_replaced (scope s t : Scope) :
    (if s.name = scope.name then scope else s).clashes (if t.name = scope.name then scope else t) =
      s.clashes t := by
  by_cases hs : s.name = scope.name <;> by_cases ht : t.name = scope.name <;>
    simp [Scope.clashes, hs, ht]

theorem usable_replaced {scopes : List Scope} {scope : Scope}
    (hscopes : ∀ s ∈ scopes, Scope.IsUsableName s.name) (hscope : Scope.IsUsableName scope.name) :
    ∀ s ∈ replaced scopes scope, Scope.IsUsableName s.name := by
  intro s hs
  obtain ⟨t, ht, rfl⟩ := List.mem_map.mp hs
  by_cases h : t.name = scope.name
  · simpa [h] using hscope
  · simpa [h] using hscopes t ht

theorem apart_replaced {scopes : List Scope} (scope : Scope)
    (h : scopes.Pairwise fun a b => a.clashes b = false) :
    (replaced scopes scope).Pairwise fun a b => a.clashes b = false := by
  rw [replaced, List.pairwise_map]
  exact h.imp fun {s t} hst => by rw [clashes_replaced, hst]

theorem usable_concat {scopes : List Scope} {scope : Scope}
    (hscopes : ∀ s ∈ scopes, Scope.IsUsableName s.name) (hscope : Scope.IsUsableName scope.name) :
    ∀ s ∈ scopes ++ [scope], Scope.IsUsableName s.name := by
  intro s hs
  rcases List.mem_append.mp hs with hs | hs
  · exact hscopes s hs
  · rwa [List.mem_singleton.mp hs]

theorem apart_concat {scopes : List Scope} {scope : Scope}
    (h : scopes.Pairwise fun a b => a.clashes b = false)
    (hnone : scopes.find? (·.clashes scope) = none) :
    (scopes ++ [scope]).Pairwise fun a b => a.clashes b = false := by
  rw [List.pairwise_append]
  refine ⟨h, List.pairwise_singleton _ _, ?_⟩
  intro s hs t ht
  rw [List.mem_singleton.mp ht]
  simpa using List.find?_eq_none.mp hnone s hs

/-- Adds a scope at the end, or replaces the scope of the same name where it stands. -/
def register (registry : ScopeRegistry) (scope : Scope) : Except ScriptError ScopeRegistry :=
  if hblank : Text.isBlank scope.name = true then .error (.missingArgument .scopeName)
  else if hreserved : Scope.isReservedName scope.name = true then
    .error (.reservedName scope.name)
  else
    have husable : Scope.IsUsableName scope.name := ⟨by simpa using hblank, by simpa using hreserved⟩
    match hfind : registry.scopes.find? (·.clashes scope) with
    | some existing =>
      if existing.name = scope.name then
        .ok ⟨replaced registry.scopes scope, usable_replaced registry.usable husable,
          apart_replaced scope registry.apart⟩
      else .error (.nameConflict scope.name existing.name)
    | none =>
      .ok ⟨registry.scopes ++ [scope], usable_concat registry.usable husable,
        apart_concat registry.apart hfind⟩

def labels (registry : ScopeRegistry) : List Text := registry.scopes.map (·.label)

end ScopeRegistry

end DualShell
