import DualShell.Proofs.WordRuns
import Mathlib.Tactic.Linarith

/-!
Replacing a word and counting it, told by the runs of a text. A text can be taken apart into runs and the
stretches between them in one way only; the runs that are the word are replaced, and their number decides
the length of the result. The count of a word is this number, but for marks that the text holds itself:
each of them is counted once too.
-/

namespace DualShell.Text

variable {word : Text}

theorem runCount_eq_count_stretches (hword : IsOfKind true word) (t : Text) :
    runCount word t = (stretches t).count word :=
  List.count_filter (List.all_eq_true.mpr hword.2)

/-- In one way only does a text fall into runs of word characters and the stretches between them, each as
long as can be. A word that is replaced is replaced where it is such a run, and everything else is kept. -/
theorem replaceWord_of_alternate (hword : IsOfKind true word) (replacement t : Text) :
    ∃ parts, (Alternate parts ∧ parts.flatten = t) ∧
      (∀ others, Alternate others → others.flatten = t → others = parts) ∧
      replaceWord word replacement t = parts.flatMap fun s => if s = word then replacement else s := by
  refine ⟨stretches t, ⟨alternate_stretches t, flatten_stretches t⟩, ?_, replaceWord_eq_flatMap hword t⟩
  rintro others hothers rfl
  exact (stretches_flatten hothers).symm

/-- A word that overlaps itself is not found inside a longer run. -/
theorem replaceWord_of_alternate_overlapping :
    IsOfKind true ("aa" : Text) ∧ Alternate [("aaa" : Text), " ", "aa"] ∧
      replaceWord "aa" "b" "aaa aa" = "aaa b" := by
  have hword : IsOfKind true ("aa" : Text) := ⟨by decide, List.all_eq_true.mp (by decide)⟩
  have hstretches : stretches "aaa aa" = [("aaa" : Text), " ", "aa"] := by decide
  have halternate : Alternate [("aaa" : Text), " ", "aa"] := hstretches ▸ alternate_stretches "aaa aa"
  obtain ⟨parts, -, honly, hreplaced⟩ := replaceWord_of_alternate hword "b" "aaa aa"
  obtain rfl := honly _ halternate (by decide)
  exact ⟨hword, halternate, hreplaced.trans (by decide)⟩

section Measure

variable {size : Text → Nat} (happend : ∀ s t, size (s ++ t) = size s + size t)

include happend in
/-- What a measure that adds up over texts makes of the replacement of some parts of a text. -/
theorem size_flatMap_ite (word replacement : Text) (parts : List Text) :
    size (parts.flatMap fun s => if s = word then replacement else s) + parts.count word * size word =
      size parts.flatten + parts.count word * size replacement := by
  induction parts with
  | nil => simp
  | cons s rest ih =>
    rw [List.flatMap_cons, List.flatten_cons, happend, happend, List.count_cons]
    by_cases hs : s = word
    · subst hs
      simp only [if_true, beq_self_eq_true, Nat.add_mul, Nat.one_mul]
      omega
    · simp only [if_neg hs, beq_iff_eq, Nat.add_zero]
      omega

include happend in
/-- Each run that is the word gives way to the replacement, and nothing else changes its size. -/
theorem size_replaceWord (hword : IsOfKind true word) (replacement t : Text) :
    size (replaceWord word replacement t) + runCount word t * size word =
      size t + runCount word t * size replacement := by
  have h := size_flatMap_ite happend word replacement (stretches t)
  rwa [← replaceWord_eq_flatMap hword, flatten_stretches, ← runCount_eq_count_stretches hword] at h

end Measure

/-- Marks that stand in the text are counted with the runs that are the word. -/
theorem countWord_eq (hword : IsOfKind true word) (t : Text) :
    countWord word t = runCount word t + t.count wordMark := by
  have hmark : isWordChar wordMark = false := by decide
  have hnone : word.count wordMark = 0 :=
    List.count_eq_zero.mpr fun hmem => Bool.noConfusion ((hword.2 _ hmem).symm.trans hmark)
  have happend : ∀ s t : Text, (s ++ t).count wordMark = s.count wordMark + t.count wordMark :=
    fun _ _ => List.count_append
  have hsize := size_replaceWord happend hword [wordMark] t
  rw [hnone, List.count_singleton_self] at hsize
  rw [countWord]
  omega

/-- The size of a replacement is told by the count exactly when no mark stands in the text, unless word
and replacement are of one size. -/
theorem size_replaceWord_iff {size : Text → Nat} (happend : ∀ s t, size (s ++ t) = size s + size t)
    (hword : IsOfKind true word) (replacement t : Text) :
    (size (replaceWord word replacement t) : Int) =
        size t + countWord word t * ((size replacement : Int) - size word) ↔
      wordMark ∉ t ∨ size replacement = size word := by
  have hsize : (size (replaceWord word replacement t) : Int) + runCount word t * size word =
      size t + runCount word t * size replacement := by
    exact_mod_cast size_replaceWord happend hword replacement t
  have hmarks : (t.count wordMark : Int) = 0 ↔ wordMark ∉ t := by
    rw [Int.natCast_eq_zero, List.count_eq_zero]
  have hequal : (size replacement : Int) - size word = 0 ↔ size replacement = size word := by omega
  rw [← hmarks, ← hequal, ← mul_eq_zero, countWord_eq hword]
  push_cast
  constructor
  · intro h
    linarith
  · intro h
    linarith

/-- The count of a word is the number of runs that are the word and, besides, of the marks in the text. So
it is the number of these runs exactly when the text holds no mark, and then it tells how much longer the
text is, in characters and in bytes, after a replacement. -/
theorem countWord_eq_runCount_add (hword : IsOfKind true word) (t : Text) :
    countWord word t = runCount word t + t.count wordMark ∧
      (countWord word t = runCount word t ↔ wordMark ∉ t) ∧
      ∀ replacement,
        (((replaceWord word replacement t).length : Int) =
            t.length + countWord word t * ((replacement.length : Int) - word.length) ↔
          wordMark ∉ t ∨ replacement.length = word.length) ∧
        ((utf8Size (replaceWord word replacement t) : Int) =
            utf8Size t + countWord word t * ((utf8Size replacement : Int) - utf8Size word) ↔
          wordMark ∉ t ∨ utf8Size replacement = utf8Size word) := by
  refine ⟨countWord_eq hword t, ?_, fun replacement => ⟨?_, ?_⟩⟩
  · rw [countWord_eq hword, Nat.add_eq_left, List.count_eq_zero]
  · exact size_replaceWord_iff (fun _ _ => List.length_append) hword replacement t
  · exact size_replaceWord_iff utf8Size_append hword replacement t

theorem countWord_eq_runCount_add_markedText :
    IsOfKind true ("return" : Text) ∧ countWord "return" ("return\x00returns" : Text) = 1 + 1 := by
  have hword : IsOfKind true ("return" : Text) := ⟨by decide, List.all_eq_true.mp (by decide)⟩
  have hcount := (countWord_eq_runCount_add hword ("return\x00returns" : Text)).1
  exact ⟨hword, hcount.trans (by decide)⟩

/-- A mark in the text is counted though no run is the word. -/
theorem countWord_mark :
    IsOfKind true ("a" : Text) ∧ runCount "a" [wordMark] = 0 ∧ countWord "a" [wordMark] = 1 ∧
      ((replaceWord "a" "bb" [wordMark]).length : Int) ≠
        [wordMark].length + countWord "a" [wordMark] * ((("bb" : Text).length : Int) - ("a" : Text).length) :=
  ⟨⟨by decide, List.all_eq_true.mp (by decide)⟩, by decide, by decide, by decide⟩

end DualShell.Text
