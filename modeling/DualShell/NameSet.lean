import DualShell.Text

/-!
Sets of names, kept in strictly ascending order of code points, so that a set has one form and its
least member comes first.
-/

namespace DualShell

def Text.precedes (a b : Text) : Bool := decide (a < b)

def insertName (name : Text) : List Text → List Text
  | [] => [name]
  | other :: rest =>
    if name = other then other :: rest
    else if name.precedes other then name :: other :: rest
    else other :: insertName name rest

theorem mem_insertName {name key : Text} {names : List Text} :
    key ∈ insertName name names ↔ key = name ∨ key ∈ names := by
  induction names with
  | nil => simp [insertName]
  | cons other rest ih =>
    by_cases h : name = other
    · subst h
      simp [insertName]
    · by_cases hlt : name.precedes other = true
      · simp [insertName, h, hlt]
      · rw [insertName, if_neg h, if_neg hlt, List.mem_cons, List.mem_cons, ih]
        grind

theorem Text.precedes_trans {a b c : Text} (hab : a.precedes b = true) (hbc : b.precedes c = true) :
    a.precedes c = true := by
  simp only [Text.precedes, decide_eq_true_eq] at *
  exact List.lt_trans hab hbc

theorem Text.precedes_of_not {a b : Text} (hne : a ≠ b) (h : ¬ a.precedes b = true) :
    b.precedes a = true := by
  simp only [Text.precedes, decide_eq_true_eq] at *
  exact (List.le_iff_lt_or_eq.mp (List.not_lt.mp h)).resolve_right fun he => hne he.symm

theorem pairwise_insertName (name : Text) {names : List Text}
    (h : names.Pairwise fun a b => a.precedes b = true) :
    (insertName name names).Pairwise fun a b => a.precedes b = true := by
  induction names with
  | nil => simp [insertName]
  | cons other rest ih =>
    obtain ⟨hall, hrest⟩ := List.pairwise_cons.mp h
    by_cases he : name = other
    · simpa [insertName, he] using h
    · by_cases hlt : name.precedes other = true
      · rw [insertName, if_neg he, if_pos hlt, List.pairwise_cons, List.pairwise_cons]
        refine ⟨?_, hall, hrest⟩
        intro b hb
        rcases List.mem_cons.mp hb with rfl | hb
        · exact hlt
        · exact Text.precedes_trans hlt (hall b hb)
      · rw [insertName, if_neg he, if_neg hlt, List.pairwise_cons]
        refine ⟨?_, ih hrest⟩
        intro b hb
        rcases mem_insertName.mp hb with rfl | hb
        · exact Text.precedes_of_not he hlt
        · exact hall b hb

structure NameSet where
  names : List Text
  ascending : names.Pairwise fun a b => a.precedes b = true
  deriving DecidableEq

namespace NameSet

def empty : NameSet := ⟨[], List.Pairwise.nil⟩

def insert (set : NameSet) (name : Text) : NameSet :=
  ⟨insertName name set.names, pairwise_insertName name set.ascending⟩

def ofList (names : List Text) : NameSet := names.foldr (fun name set => set.insert name) empty

instance : Membership Text NameSet := ⟨fun set name => name ∈ set.names⟩

theorem mem_ofList {name : Text} {names : List Text} : name ∈ ofList names ↔ name ∈ names := by
  induction names with
  | nil => simp [ofList, empty, Membership.mem]
  | cons other rest ih =>
    change name ∈ insertName other (ofList rest).names ↔ name ∈ other :: rest
    rw [mem_insertName, List.mem_cons]
    exact or_congr Iff.rfl ih

end NameSet

end DualShell
