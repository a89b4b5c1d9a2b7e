import DualShell.Text.Word
import Mathlib.Data.List.Infix

/-!
Replacing whole words from one separator to the next. A character that is not a word character ends
every word before it and starts none, so what stands on its left and what stands on its right are
replaced apart from each other.
-/

namespace DualShell.Text

/-- A prefix without the separator does not reach over it. -/
theorem prefix_append_cons_iff {separator : Char} {word : Text} (h : separator ∉ word)
    (s t : Text) : word <+: s ++ separator :: t ↔ word <+: s := by
  constructor
  · intro hstarts
    have hlonger : s ++ [separator] <+: s ++ separator :: t := ⟨t, by simp⟩
    rcases List.prefix_or_prefix_of_prefix hstarts hlonger with hword | hword
    · rcases List.prefix_concat_iff.mp hword with rfl | hword
      · simp at h
      · exact hword
    · exact absurd (hword.subset (by simp)) h
  · intro hstarts
    exact hstarts.trans (List.prefix_append s _)

section Replace

variable {word replacement : Text} {separator : Char}

theorem replaceWordFrom_congr {before other : Option Char}
    (h : isWordBoundary before = isWordBoundary other) (skip : Nat) (t : Text) :
    replaceWordFrom word replacement before skip t =
      replaceWordFrom word replacement other skip t := by
  cases t with
  | nil => cases skip <;> rfl
  | cons c rest =>
    cases skip with
    | zero => rw [replaceWordFrom, replaceWordFrom, h]
    | succ skip => rfl

theorem replaceWordFrom_append_cons (hne : word ≠ []) (hword : word.all isWordChar = true)
    (hseparator : isWordChar separator = false) {before : Option Char} {skip : Nat} {s : Text}
    (hskip : skip ≤ s.length) (t : Text) :
    replaceWordFrom word replacement before skip (s ++ separator :: t) =
      replaceWordFrom word replacement before skip s ++
        separator :: replaceWordFrom word replacement none 0 t := by
  have hmem : separator ∉ word := by
    intro h
    rw [List.all_eq_true.mp hword separator h] at hseparator
    exact Bool.noConfusion hseparator
  have hnext : isWordBoundary (some separator) = isWordBoundary none := by
    simp [isWordBoundary, hseparator]
  induction s generalizing before skip with
  | nil =>
    obtain rfl : skip = 0 := Nat.le_zero.mp hskip
    have hstarts : ¬word.isPrefixOf (separator :: t) = true := by
      rw [List.isPrefixOf_iff_prefix]
      intro h
      exact hne (List.prefix_nil.mp ((prefix_append_cons_iff hmem [] t).mp h))
    rw [List.nil_append, replaceWordFrom, replaceWordFrom, if_neg hstarts,
      replaceWordFrom_congr hnext, List.nil_append]
  | cons c rest ih =>
    cases skip with
    | succ skip =>
      rw [List.cons_append, replaceWordFrom, replaceWordFrom]
      exact ih (Nat.le_of_succ_le_succ hskip)
    | zero =>
      have hstarts := prefix_append_cons_iff hmem (c :: rest) t
      rw [List.cons_append] at hstarts ⊢
      rw [replaceWordFrom, replaceWordFrom]
      by_cases hopen : word <+: c :: rest
      · -- the occurrence ends before the separator or at it; both are ends of a word
        have hlength : word.length ≤ (c :: rest).length := hopen.length_le
        have hafter : isWordBoundary ((c :: (rest ++ separator :: t)).drop word.length).head? =
            isWordBoundary ((c :: rest).drop word.length).head? := by
          rw [← List.cons_append, List.drop_append_of_le_length hlength, List.head?_append]
          cases ((c :: rest).drop word.length).head? with
          | none => exact hnext
          | some d => rfl
        rw [if_pos (List.isPrefixOf_iff_prefix.mpr (hstarts.mpr hopen)),
          if_pos (List.isPrefixOf_iff_prefix.mpr hopen), ih (by simp at hlength; omega)]
        simp only [hafter, List.append_assoc]
      · rw [if_neg (mt List.isPrefixOf_iff_prefix.mp (mt hstarts.mp hopen)),
          if_neg (mt List.isPrefixOf_iff_prefix.mp hopen), ih (Nat.zero_le _), List.cons_append]

/-- What is replaced on one side of a separator does not depend on the other side. -/
theorem replaceWord_append_cons (hword : word.all isWordChar = true)
    (hseparator : isWordChar separator = false) (s t : Text) :
    replaceWord word replacement (s ++ separator :: t) =
      replaceWord word replacement s ++ separator :: replaceWord word replacement t := by
  by_cases hsame : word = [] ∨ word = replacement
  · simp only [replaceWord, if_pos hsame]
  · simp only [replaceWord, if_neg hsame]
    exact replaceWordFrom_append_cons (fun hne => hsame (Or.inl hne)) hword hseparator
      (Nat.zero_le _) t

end Replace

end DualShell.Text
