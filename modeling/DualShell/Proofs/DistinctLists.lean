import DualShell.Distinct
import Mathlib.Data.List.Induction
import Mathlib.Data.List.Nodup

/-!
How lists without repetition are put together. Each element keeps the place where it first appears, so
that what is appended adds only the elements that did not stand before. Such a list is known by its
elements and by their order.
-/

namespace DualShell

variable {α : Type} [DecidableEq α]

/-- What is appended adds the elements that did not stand before. -/
theorem distinct_append (xs ys : List α) :
    distinct (xs ++ ys) = distinct xs ++ (distinct ys).filter (· ∉ xs) := by
  induction xs with
  | nil => simp [distinct]
  | cons a rest ih =>
    have hfilter : ((distinct ys).filter (· ∉ rest)).filter (· ≠ a) =
        (distinct ys).filter (· ∉ a :: rest) := by
      rw [List.filter_filter]
      refine List.filter_congr fun b _ => ?_
      simp [not_or]
    rw [List.cons_append, distinct, ih, List.filter_append, hfilter, distinct, List.cons_append]

theorem distinct_concat (xs : List α) (a : α) :
    distinct (xs ++ [a]) = if a ∈ xs then distinct xs else distinct xs ++ [a] := by
  have hsingle : distinct [a] = [a] := rfl
  rw [distinct_append, hsingle]
  by_cases h : a ∈ xs <;> simp [h]

/-- An element that stood before can be left out. -/
theorem distinct_append_cons_of_mem {xs : List α} {a : α} (h : a ∈ xs) (ys : List α) :
    distinct (xs ++ a :: ys) = distinct (xs ++ ys) := by
  have hfilter : ((distinct ys).filter (· ≠ a)).filter (· ∉ xs) = (distinct ys).filter (· ∉ xs) := by
    rw [List.filter_filter]
    refine List.filter_congr fun b _ => ?_
    have hne : b ∉ xs → b ≠ a := fun hb => (ne_of_mem_of_not_mem h hb).symm
    grind
  rw [distinct_append, distinct_append, distinct, List.filter_cons_of_neg (by simpa using h), hfilter]

theorem distinct_eq_self {xs : List α} (h : xs.Nodup) : distinct xs = xs := by
  induction xs with
  | nil => rfl
  | cons a rest ih =>
    obtain ⟨ha, hrest⟩ := List.nodup_cons.mp h
    rw [distinct, ih hrest, List.filter_eq_self.mpr]
    exact fun b hb => decide_eq_true (ne_of_mem_of_not_mem hb ha)

theorem distinct_append_distinct (xs ys : List α) :
    distinct (xs ++ distinct ys) = distinct (xs ++ ys) := by
  rw [distinct_append, distinct_append, distinct_eq_self (nodup_distinct ys)]

theorem eraseDups_eq_distinct [BEq α] [LawfulBEq α] (xs : List α) : xs.eraseDups = distinct xs := by
  induction xs using List.reverseRecOn with
  | nil => rfl
  | append_singleton xs a ih =>
    have hnew : [a].removeAll xs = if a ∈ xs then [] else [a] := by
      by_cases h : a ∈ xs <;> simp [List.removeAll, h]
    rw [List.eraseDups_append, ih, distinct_concat, hnew]
    split
    · rw [List.eraseDups_nil, List.append_nil]
    · rfl

/-- The elements of a list come in the order of their first occurrences. -/
theorem pairwise_idxOf_distinct [BEq α] [LawfulBEq α] (xs : List α) :
    (distinct xs).Pairwise fun a b => xs.idxOf a < xs.idxOf b := by
  induction xs with
  | nil => exact .nil
  | cons a rest ih =>
    -- without the first element, positions in the list are those in the rest, one further on
    have hlater : ∀ b ∈ (distinct rest).filter (· ≠ a),
        (a :: rest).idxOf b = rest.idxOf b + 1 := by
      intro b hb
      have hne : b ≠ a := by simpa using (List.mem_filter.mp hb).2
      exact List.idxOf_cons_ne rest hne.symm
    rw [distinct, List.pairwise_cons]
    constructor
    · intro b hb
      rw [List.idxOf_cons_self, hlater b hb]
      exact Nat.succ_pos _
    · refine (ih.filter _).imp_of_mem fun hb hc hlt => ?_
      rw [hlater _ hb, hlater _ hc]
      exact Nat.succ_lt_succ hlt

/-- Whether a list holds the elements of another one, each once and in the order of first appearance. -/
structure IsDistinctOf (ys xs : List α) : Prop where
  mem_iff : ∀ a, a ∈ ys ↔ a ∈ xs
  nodup : ys.Nodup
  pairwise : ys.Pairwise fun a b => xs.idxOf a < xs.idxOf b

theorem isDistinctOf_distinct (xs : List α) : IsDistinctOf (distinct xs) xs :=
  ⟨fun _ => mem_distinct, nodup_distinct xs, pairwise_idxOf_distinct xs⟩

/-- No other list has the same elements without repetition and in the same order. -/
theorem isDistinctOf_iff {xs ys : List α} : IsDistinctOf ys xs ↔ ys = distinct xs := by
  have hdistinct := isDistinctOf_distinct xs
  constructor
  · intro h
    have hperm : ys.Perm (distinct xs) :=
      (List.perm_ext_iff_of_nodup h.nodup hdistinct.nodup).mpr fun a =>
        (h.mem_iff a).trans (hdistinct.mem_iff a).symm
    exact hperm.eq_of_pairwise (fun _ _ _ _ hlt hgt => absurd hlt (Nat.lt_asymm hgt)) h.pairwise
      hdistinct.pairwise
  · rintro rfl
    exact hdistinct

end DualShell
