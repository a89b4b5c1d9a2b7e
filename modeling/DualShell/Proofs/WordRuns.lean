import DualShell.Proofs.WholeWords
import Mathlib.Data.List.SplitBy

/-!
Runs of word characters. A text falls in one way into stretches that consist of word characters only or
of other characters only and go as far as they can. Replacing a word replaces the stretches that are
this word and keeps all others, whatever stands beside them.
-/

namespace DualShell.Text

/-- The longest stretches of word characters and of other characters, in order. -/
def stretches (t : Text) : List Text := t.splitBy fun a b => isWordChar a == isWordChar b

/-- The longest stretches of word characters. -/
def runs (t : Text) : List Text := (stretches t).filter fun s => s.all isWordChar

/-- How often a word occurs in a text as a run. -/
def runCount (word t : Text) : Nat := (runs t).count word

/-- Whether a text consists of characters of one kind: word characters, or others. -/
def IsOfKind (word : Bool) (s : Text) : Prop := s ≠ [] ∧ ∀ c ∈ s, isWordChar c = word

/-- Whether texts consist of characters of one kind each, and neighbours are not of one kind. -/
structure Alternate (parts : List Text) : Prop where
  ofKind : ∀ s ∈ parts, ∃ word, IsOfKind word s
  apart : parts.IsChain fun s s' => ∀ word, IsOfKind word s → IsOfKind (!word) s'

theorem IsOfKind.iff_eq {word other : Bool} {s : Text} (h : IsOfKind word s) :
    IsOfKind other s ↔ other = word := by
  constructor
  · intro hother
    obtain ⟨c, hc⟩ := List.exists_mem_of_ne_nil s h.1
    rw [← hother.2 c hc, h.2 c hc]
  · rintro rfl
    exact h

theorem Alternate.tail {s : Text} {rest : List Text} (h : Alternate (s :: rest)) :
    Alternate rest :=
  ⟨fun s' hs' => h.ofKind s' (List.mem_cons_of_mem s hs'), h.apart.tail⟩

/-- What stands after a stretch starts with a character of the other kind. -/
theorem Alternate.isWordChar_of_head? {s : Text} {rest : List Text} (h : Alternate (s :: rest))
    {word : Bool} (hs : IsOfKind word s) {c : Char} (hc : rest.flatten.head? = some c) :
    isWordChar c = !word := by
  cases rest with
  | nil => simp at hc
  | cons s' more =>
    have hs' := (List.isChain_cons_cons.mp h.apart).1 word hs
    refine hs'.2 c (List.mem_of_head? ?_)
    rwa [List.flatten_cons, List.head?_append_of_ne_nil _ hs'.1] at hc

theorem isChain_iff_exists_isOfKind {s : Text} (hne : s ≠ []) :
    (s.IsChain fun a b => (isWordChar a == isWordChar b) = true) ↔ ∃ word, IsOfKind word s := by
  obtain ⟨c, rest, rfl⟩ := List.exists_cons_of_ne_nil hne
  constructor
  · intro h
    refine ⟨isWordChar c, hne, ?_⟩
    induction rest generalizing c with
    | nil => simp
    | cons d rest ih =>
      obtain ⟨hcd, hrest⟩ := List.isChain_cons_cons.mp h
      rw [beq_iff_eq] at hcd
      rw [List.forall_mem_cons, hcd]
      exact ⟨rfl, ih d (by simp) hrest⟩
  · rintro ⟨word, -, h⟩
    refine List.Pairwise.isChain (List.pairwise_of_forall_mem_list fun a ha b hb => ?_)
    simp [h a ha, h b hb]

theorem flatten_stretches (t : Text) : (stretches t).flatten = t := List.flatten_splitBy _ t

theorem alternate_stretches (t : Text) : Alternate (stretches t) := by
  have hkind : ∀ s ∈ stretches t, ∃ word, IsOfKind word s := fun s hs =>
    (isChain_iff_exists_isOfKind (List.ne_nil_of_mem_splitBy hs)).mp (List.isChain_of_mem_splitBy hs)
  refine ⟨hkind, (List.isChain_getLast_head_splitBy _ t).imp_of_mem_imp ?_⟩
  rintro s s' - hs' ⟨hne, hne', hdiffer⟩ word hword
  obtain ⟨other, hother⟩ := hkind s' hs'
  rw [hword.2 _ (List.getLast_mem hne), hother.2 _ (List.head_mem hne')] at hdiffer
  obtain rfl : other = !word := by cases word <;> cases other <;> simp_all
  exact hother

/-- Parts that alternate are the stretches of the text that they make up. -/
theorem stretches_flatten {parts : List Text} (h : Alternate parts) :
    stretches parts.flatten = parts := by
  have hne : ∀ s ∈ parts, s ≠ [] := fun s hs => (h.ofKind s hs).elim fun _ hword => hword.1
  refine List.splitBy_flatten (fun hnil => hne [] hnil rfl) (fun s hs => ?_)
    (h.apart.imp_of_mem_imp fun s s' hs hs' hdiffer => ?_)
  · exact (isChain_iff_exists_isOfKind (hne s hs)).mpr (h.ofKind s hs)
  · obtain ⟨word, hword⟩ := h.ofKind s hs
    refine ⟨hne s hs, hne s' hs', ?_⟩
    rw [hword.2 _ (List.getLast_mem _), (hdiffer word hword).2 _ (List.head_mem _)]
    cases word <;> rfl

theorem mem_runs_iff {word : Text} (hword : IsOfKind true word) {t : Text} :
    word ∈ runs t ↔ word ∈ stretches t := by
  rw [runs, List.mem_filter, List.all_eq_true]
  exact and_iff_left hword.2

section Replace

variable {word replacement : Text}

theorem replaceWord_text_nil : replaceWord word replacement [] = [] := by
  rw [replaceWord]
  split <;> rfl

theorem replaceWord_append_others (hword : word.all isWordChar = true) {s : Text}
    (hs : ∀ c ∈ s, isWordChar c = false) (t : Text) :
    replaceWord word replacement (s ++ t) = s ++ replaceWord word replacement t := by
  induction s with
  | nil => rfl
  | cons c rest ih =>
    obtain ⟨hc, hrest⟩ := List.forall_mem_cons.mp hs
    have hfirst := @replaceWord_append_cons word replacement c hword hc [] (rest ++ t)
    rw [replaceWord_text_nil, List.nil_append, List.nil_append, ih hrest] at hfirst
    exact hfirst

/-- What stands after a run does not matter to it. -/
theorem replaceWord_append_of_head? (hword : word.all isWordChar = true) (s : Text) {t : Text}
    (ht : ∀ c, t.head? = some c → isWordChar c = false) :
    replaceWord word replacement (s ++ t) =
      replaceWord word replacement s ++ replaceWord word replacement t := by
  cases t with
  | nil => rw [List.append_nil, replaceWord_text_nil, List.append_nil]
  | cons c rest =>
    have hc := ht c rfl
    have hrest := @replaceWord_append_others word replacement hword [c]
      (List.forall_mem_singleton.mpr hc) rest
    rw [List.singleton_append, List.singleton_append] at hrest
    rw [replaceWord_append_cons hword hc, hrest]

theorem append_drop_of_prefix (hne : word ≠ []) {c : Char} {rest : Text} (h : word <+: c :: rest) :
    word ++ rest.drop (word.length - 1) = c :: rest := by
  obtain ⟨first, others, rfl⟩ := List.exists_cons_of_ne_nil hne
  obtain ⟨after, hafter⟩ := h
  obtain ⟨rfl, rfl⟩ := List.cons.inj hafter
  simp

/-- Inside a run no occurrence is a whole word. -/
theorem replaceWordFrom_of_not_isWordBoundary (hne : word ≠ []) {before : Option Char}
    (hbefore : isWordBoundary before = false) {skip : Nat} {s : Text}
    (hs : s.all isWordChar = true) :
    replaceWordFrom word replacement before skip s = s.drop skip := by
  induction s generalizing before skip with
  | nil => cases skip <;> rfl
  | cons c rest ih =>
    rw [List.all_cons, Bool.and_eq_true] at hs
    have hc : isWordBoundary (some c) = false := by simp [isWordBoundary, hs.1]
    cases skip with
    | succ skip => rw [replaceWordFrom, ih hc hs.2, List.drop_succ_cons]
    | zero =>
      rw [replaceWordFrom]
      split
      · next hstarts =>
        simp only [hbefore, Bool.false_and, Bool.false_eq_true, if_false]
        rw [ih hc hs.2, append_drop_of_prefix hne (List.isPrefixOf_iff_prefix.mp hstarts)]
        rfl
      · rw [ih hc hs.2]
        rfl

/-- A prefix of a run ends a word only where the run does. -/
theorem isWordBoundary_drop {s : Text} (hs : s.all isWordChar = true) (h : word <+: s) :
    isWordBoundary (s.drop word.length).head? = decide (s = word) := by
  obtain ⟨after, rfl⟩ := h
  rw [List.drop_left]
  cases after with
  | nil => simp [isWordBoundary]
  | cons d others =>
    rw [List.all_append, List.all_cons, Bool.and_eq_true, Bool.and_eq_true] at hs
    simp [isWordBoundary, hs.2.1]

/-- A run is replaced when it is the word. -/
theorem replaceWord_of_run (hne : word ≠ []) {s : Text} (hs : s.all isWordChar = true) :
    replaceWord word replacement s = if s = word then replacement else s := by
  by_cases hsame : word = replacement
  · subst hsame
    rw [replaceWord_self]
    split
    · next h => exact h
    · rfl
  · rw [replaceWord, if_neg (by simp [hne, hsame])]
    cases s with
    | nil => rw [replaceWordFrom, if_neg (Ne.symm hne)]
    | cons c rest =>
      have hc : isWordBoundary (some c) = false := by
        rw [List.all_cons, Bool.and_eq_true] at hs
        simp [isWordBoundary, hs.1]
      have hrest : rest.all isWordChar = true := by
        rw [List.all_cons, Bool.and_eq_true] at hs
        exact hs.2
      rw [replaceWordFrom, replaceWordFrom_of_not_isWordBoundary hne hc hrest]
      by_cases hstarts : word <+: c :: rest
      · rw [if_pos (List.isPrefixOf_iff_prefix.mpr hstarts)]
        simp only [isWordBoundary_drop hs hstarts]
        by_cases hword : c :: rest = word
        · subst hword
          simp [isWordBoundary]
        · simp [isWordBoundary, hword, append_drop_of_prefix hne hstarts]
      · rw [if_neg (mt List.isPrefixOf_iff_prefix.mp hstarts), if_neg]
        · rw [replaceWordFrom_of_not_isWordBoundary hne hc hrest]
          rfl
        · rintro rfl
          exact hstarts (List.prefix_refl _)

/-- What a word replaced makes of a stretch. -/
theorem isOfKind_ite (hword : IsOfKind true word) (hreplacement : IsOfKind true replacement)
    {kind : Bool} {s : Text} :
    IsOfKind kind (if s = word then replacement else s) ↔ IsOfKind kind s := by
  split
  · next h =>
    subst h
    rw [hreplacement.iff_eq, hword.iff_eq]
  · exact Iff.rfl

/-- Replacing a word replaces the stretches that are this word. -/
theorem replaceWord_eq_flatMap (hword : IsOfKind true word) (t : Text) :
    replaceWord word replacement t =
      (stretches t).flatMap fun s => if s = word then replacement else s := by
  have hall : word.all isWordChar = true := List.all_eq_true.mpr hword.2
  suffices h : ∀ parts, Alternate parts → replaceWord word replacement parts.flatten =
      parts.flatMap fun s => if s = word then replacement else s by
    have hstretches := h (stretches t) (alternate_stretches t)
    rwa [flatten_stretches] at hstretches
  intro parts hparts
  induction parts with
  | nil => exact replaceWord_text_nil
  | cons s rest ih =>
    obtain ⟨kind, hkind⟩ := hparts.ofKind s List.mem_cons_self
    rw [List.flatten_cons, List.flatMap_cons, ← ih hparts.tail]
    cases kind with
    | false =>
      have hne : s ≠ word := by
        rintro rfl
        exact Bool.noConfusion (hword.iff_eq.mp hkind)
      rw [if_neg hne, replaceWord_append_others hall hkind.2]
    | true =>
      have hrun : s.all isWordChar = true := List.all_eq_true.mpr hkind.2
      rw [replaceWord_append_of_head? hall s fun c hc => hparts.isWordChar_of_head? hkind hc,
        replaceWord_of_run hword.1 hrun]

/-- The stretches of a text in which a word was replaced by another one. -/
theorem stretches_replaceWord (hword : IsOfKind true word) (hreplacement : IsOfKind true replacement)
    (t : Text) :
    stretches (replaceWord word replacement t) =
      (stretches t).map fun s => if s = word then replacement else s := by
  have h := alternate_stretches t
  rw [replaceWord_eq_flatMap hword, List.flatMap_def]
  refine stretches_flatten ⟨List.forall_mem_map.mpr fun s hs => ?_, (List.isChain_map _).mpr ?_⟩
  · obtain ⟨kind, hkind⟩ := h.ofKind s hs
    exact ⟨kind, (isOfKind_ite hword hreplacement).mpr hkind⟩
  · refine h.apart.imp fun s s' hs kind hkind => ?_
    rw [isOfKind_ite hword hreplacement] at hkind ⊢
    exact hs kind hkind

/-- The runs of a text in which a word was replaced by another one. -/
theorem runs_replaceWord (hword : IsOfKind true word) (hreplacement : IsOfKind true replacement)
    (t : Text) :
    runs (replaceWord word replacement t) =
      (runs t).map fun s => if s = word then replacement else s := by
  rw [runs, runs, stretches_replaceWord hword hreplacement, List.filter_map]
  congr 1
  refine List.filter_congr fun s _ => ?_
  rw [Function.comp_apply]
  split
  · next h =>
    subst h
    rw [List.all_eq_true.mpr hword.2, List.all_eq_true.mpr hreplacement.2]
  · rfl

theorem not_mem_runs_replaceWord (hword : IsOfKind true word)
    (hreplacement : IsOfKind true replacement) (hne : word ≠ replacement) (t : Text) :
    word ∉ runs (replaceWord word replacement t) := by
  rw [runs_replaceWord hword hreplacement]
  intro h
  obtain ⟨s, -, hs⟩ := List.mem_map.mp h
  split at hs
  · exact hne hs.symm
  · next hother => exact hother hs

/-- Every replaced word becomes a run, and no other run comes or goes. -/
theorem runCount_replaceWord (hword : IsOfKind true word)
    (hreplacement : IsOfKind true replacement) (hne : word ≠ replacement) (t : Text) :
    runCount replacement (replaceWord word replacement t) =
      runCount replacement t + runCount word t := by
  rw [runCount, runCount, runCount, runs_replaceWord hword hreplacement]
  induction runs t with
  | nil => rfl
  | cons s rest ih =>
    rw [List.map_cons, List.count_cons, List.count_cons, List.count_cons, ih]
    by_cases hs : s = word
    · subst hs
      simp [hne]
      omega
    · simp [hs]
      omega

theorem replaceWord_eq_self (hword : IsOfKind true word) {t : Text} (h : word ∉ runs t) :
    replaceWord word replacement t = t := by
  rw [mem_runs_iff hword] at h
  rw [replaceWord_eq_flatMap hword, List.flatMap_def]
  have hsame : (stretches t).map (fun s => if s = word then replacement else s) = stretches t := by
    refine (List.map_congr_left fun s hs => ?_).trans (List.map_id _)
    have hne : s ≠ word := by
      rintro rfl
      exact h hs
    rw [if_neg hne, id]
  rw [hsame, flatten_stretches]

end Replace

end DualShell.Text
