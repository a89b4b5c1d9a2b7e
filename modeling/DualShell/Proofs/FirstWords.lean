import DualShell.Proofs.ShellReading

/-!
The words that the lines of a Unix script start with. A line that is put together around a name starts
with the word in front of the name; only a line feed in the name lets other words start a line, and those
are shorter than the name.
-/

namespace DualShell.Text

/-- The first word of a line: what stands after leading spaces and before the next space. -/
def firstWord (line : Text) : Text := (line.dropWhile (· = ' ')).takeWhile (· ≠ ' ')

/-- The first words of the lines of a text, in order. -/
def firstWords (t : Text) : List Text := (split '\n' t).map firstWord

/-- The first words of the lines after the first, where a quote closes the last line. -/
def laterWords (t : Text) : List Text := (firstWords (t ++ "\"")).tail

variable {word s t : Text} {c : Char}

/-! ### Lines one after the other -/

theorem firstWords_append_lf (s t : Text) :
    firstWords (s ++ '\n' :: t) = firstWords s ++ firstWords t := by
  rw [firstWords, split_append_cons, List.map_append, firstWords, firstWords]

theorem firstWords_of_notMem (h : '\n' ∉ t) : firstWords t = [firstWord t] := by
  rw [firstWords, split_of_not_mem h, List.map_singleton]

theorem firstWords_ne_nil (t : Text) : firstWords t ≠ [] :=
  mt List.map_eq_nil_iff.mp (split_ne_nil '\n' t)

/-- No word but the empty one is lost or gained where a line ends. -/
theorem mem_firstWords_append (hs : IsEnded s) (hword : word ≠ []) (t : Text) :
    word ∈ firstWords (s ++ t) ↔ word ∈ firstWords s ∨ word ∈ firstWords t := by
  have hnil : word ∉ firstWords [] := fun h => hword (List.mem_singleton.mp h)
  rcases hs with rfl | hlast
  · rw [List.nil_append, or_iff_right hnil]
  · obtain ⟨before, rfl⟩ := List.getLast?_eq_some_iff.mp hlast
    rw [List.append_assoc, List.singleton_append, firstWords_append_lf, firstWords_append_lf,
      List.mem_append, List.mem_append, or_iff_left hnil]

theorem mem_firstWords_line (hword : word ≠ []) (content : Text) :
    word ∈ firstWords (Family.unix.line content) ↔ word ∈ firstWords content := by
  have hnil : word ∉ firstWords [] := fun h => hword (List.mem_singleton.mp h)
  have hline : firstWords (Family.unix.line content) = firstWords content ++ firstWords [] :=
    firstWords_append_lf content []
  rw [hline, List.mem_append, or_iff_left hnil]

theorem mem_firstWords_flatMap {α : Type} {items : List α} {write : α → Text}
    (h : ∀ a ∈ items, IsEnded (write a)) (hword : word ≠ []) :
    word ∈ firstWords (items.flatMap write) ↔ ∃ a ∈ items, word ∈ firstWords (write a) := by
  induction items with
  | nil =>
    have hnil : word ∉ firstWords [] := fun h => hword (List.mem_singleton.mp h)
    simpa using hnil
  | cons a rest ih =>
    obtain ⟨ha, hrest⟩ := List.forall_mem_cons.mp h
    rw [List.flatMap_cons, mem_firstWords_append ha hword, ih hrest, List.exists_mem_cons_iff]

/-! ### Lines put together from parts -/

theorem split_append_of_notMem (h : '\n' ∉ s) (t : Text) :
    split '\n' (s ++ t) = (s ++ (split '\n' t).headD []) :: (split '\n' t).tail := by
  induction s with
  | nil =>
    obtain ⟨line, others, hsplit⟩ := List.exists_cons_of_ne_nil (split_ne_nil '\n' t)
    rw [List.nil_append, hsplit]
    rfl
  | cons d rest ih =>
    obtain ⟨hd, hrest⟩ := not_or.mp (mt List.mem_cons.mpr h)
    rw [List.cons_append, split_cons_of_ne (Ne.symm hd), ih hrest]
    rfl

theorem firstWords_append_of_notMem (h : '\n' ∉ s) (t : Text) :
    firstWords (s ++ t) = firstWord (s ++ (split '\n' t).headD []) :: (firstWords t).tail := by
  rw [firstWords, split_append_of_notMem h, List.map_cons, firstWords, List.map_tail]

theorem firstWords_append_cons (hs : '\n' ∉ s) (hc : c ≠ '\n') (rest : Text) :
    firstWords (s ++ c :: rest) =
      firstWord (s ++ c :: (split '\n' rest).headD []) :: (firstWords rest).tail := by
  have hopening : '\n' ∉ s ++ [c] := by simpa [hs] using Ne.symm hc
  rw [List.append_cons, firstWords_append_of_notMem hopening, List.append_assoc,
    List.singleton_append]

theorem tail_firstWords_append (h : '\n' ∉ s) (t : Text) :
    (firstWords (s ++ t)).tail = (firstWords t).tail := by
  rw [firstWords_append_of_notMem h, List.tail_cons]

theorem tail_firstWords_of_notMem (h : '\n' ∉ t) : (firstWords t).tail = [] := by
  rw [firstWords_of_notMem h, List.tail_cons]

theorem takeWhile_ne_space (hspace : ' ' ∉ word) (rest : Text) :
    (word ++ ' ' :: rest).takeWhile (· ≠ ' ') = word :=
  takeWhile_append_of_boundary
    (fun _ hd => decide_eq_true fun heq => hspace (heq ▸ hd))
    (fun _ hd => by simp [← Option.some.inj hd])

theorem firstWord_append_space (hne : word ≠ []) (hspace : ' ' ∉ word) (rest : Text) :
    firstWord (word ++ ' ' :: rest) = word := by
  obtain ⟨d, others, rfl⟩ := List.exists_cons_of_ne_nil hne
  have hd : d ≠ ' ' := fun heq => hspace (heq ▸ List.mem_cons_self)
  have hbare : (d :: others ++ ' ' :: rest).dropWhile (· = ' ') = d :: others ++ ' ' :: rest := by
    simp [hd]
  rw [firstWord, hbare, takeWhile_ne_space hspace]

/-- The word in front of a space starts its line, whatever follows. -/
theorem firstWords_append_space (hne : word ≠ []) (hspace : ' ' ∉ word) (hlf : '\n' ∉ word)
    (t : Text) : firstWords (word ++ ' ' :: t) = word :: (firstWords t).tail := by
  rw [firstWords_append_cons hlf (by decide), firstWord_append_space hne hspace]

/-! ### Names inside lines -/

theorem exists_last_line (h : '\n' ∈ t) :
    ∃ before last, '\n' ∉ last ∧ t = before ++ '\n' :: last := by
  obtain ⟨front, back, hreverse, hfront⟩ := List.eq_append_cons_of_mem (List.mem_reverse.mpr h)
  refine ⟨back.reverse, front.reverse, by simpa using hfront, ?_⟩
  rw [← List.reverse_reverse t, hreverse]
  simp

/-- Where a line goes on with a character that is no part of the word, it starts with the word when a
space ends the word before. -/
theorem firstWord_append_cons_iff (hword : ' ' ∉ word) (hspace : c ≠ ' ') (hc : c ∉ word)
    (line rest : Text) :
    firstWord (line ++ c :: rest) = word ↔
      ∃ more, line.dropWhile (· = ' ') = word ++ ' ' :: more := by
  have hdrop : (line ++ c :: rest).dropWhile (· = ' ') =
      line.dropWhile (· = ' ') ++ c :: rest := by
    rw [List.dropWhile_append]
    split
    · next hnil => simp [List.isEmpty_iff.mp hnil, hspace]
    · rfl
  rw [firstWord, hdrop]
  generalize line.dropWhile (· = ' ') = body
  constructor
  · intro hfirst
    by_cases hmem : ' ' ∈ body
    · obtain ⟨before, more, rfl, hbefore⟩ := List.eq_append_cons_of_mem hmem
      rw [List.append_assoc, List.cons_append, takeWhile_ne_space hbefore] at hfirst
      exact ⟨more, by rw [hfirst]⟩
    · have hbody : ∀ d ∈ body, decide (d ≠ ' ') = true := fun d hd =>
        decide_eq_true fun heq => hmem (heq ▸ hd)
      rw [List.takeWhile_append_of_pos hbody, List.takeWhile_cons_of_pos (by simpa using hspace)]
        at hfirst
      exact absurd (hfirst ▸ List.mem_append_right _ List.mem_cons_self) hc
  · rintro ⟨more, rfl⟩
    rw [List.append_assoc, List.cons_append, takeWhile_ne_space hword]

theorem laterWords_of_notMem (h : '\n' ∉ t) : laterWords t = [] :=
  tail_firstWords_of_notMem (by simpa using h)

/-- The words that start later lines of a text in which a name stands are those of the name and those of
what follows it. -/
theorem mem_tail_firstWords_iff (hword : Label.IsIdentifier word) (hc : isWordChar c = false)
    (hspace : c ≠ ' ') (hlf : c ≠ '\n') (name rest : Text) :
    word ∈ (firstWords (name ++ c :: rest)).tail ↔
      word ∈ laterWords name ∨ word ∈ (firstWords rest).tail := by
  have hrest : (firstWords (c :: rest)).tail = (firstWords rest).tail :=
    tail_firstWords_append (s := [c]) (by simpa using Ne.symm hlf) rest
  by_cases hname : '\n' ∈ name
  · obtain ⟨before, last, hlast, rfl⟩ := exists_last_line hname
    have hwords {d : Char} (hd : d ≠ '\n') (after : Text) :
        (firstWords (before ++ '\n' :: last ++ d :: after)).tail =
          (firstWords before).tail ++
            firstWord (last ++ d :: (split '\n' after).headD []) :: (firstWords after).tail := by
      rw [List.append_assoc, List.cons_append, firstWords_append_lf,
        List.tail_append_of_ne_nil (firstWords_ne_nil before), firstWords_append_cons hlast hd]
    have hlater : laterWords (before ++ '\n' :: last) =
        (firstWords before).tail ++ [firstWord (last ++ ['"'])] := hwords (by decide) []
    have hlastWord : firstWord (last ++ c :: (split '\n' rest).headD []) = word ↔
        firstWord (last ++ ['"']) = word := by
      rw [firstWord_append_cons_iff (hword.notMem (by decide)) hspace (hword.notMem hc),
        firstWord_append_cons_iff (hword.notMem (by decide)) (by decide) (hword.notMem (by decide))]
    rw [hwords hlf, hlater]
    simp only [List.mem_append, List.mem_cons, List.not_mem_nil, or_false, eq_comm (a := word),
      hlastWord, or_assoc]
  · rw [tail_firstWords_append hname, hrest, laterWords_of_notMem hname]
    simp

/-! ### Names that are too short -/

theorem sublist_of_mem_split {separator : Char} {part : Text} (h : part ∈ split separator t) :
    part.Sublist t := by
  induction t generalizing part with
  | nil => rw [List.mem_singleton.mp h]
  | cons c rest ih =>
    by_cases hc : c = separator
    · rw [split, if_pos hc] at h
      rcases List.mem_cons.mp h with rfl | h
      · exact List.nil_sublist _
      · exact (ih h).cons c
    · obtain ⟨first, others, hsplit⟩ := List.exists_cons_of_ne_nil (split_ne_nil separator rest)
      rw [split_cons_of_ne hc, hsplit] at h
      rw [hsplit] at ih
      rcases List.mem_cons.mp h with rfl | h
      · exact (ih List.mem_cons_self).cons_cons c
      · exact (ih (List.mem_cons_of_mem first h)).cons c

/-- A later part stands behind a separator. -/
theorem sublist_of_mem_tail_split {separator : Char} {part : Text}
    (h : part ∈ (split separator t).tail) : (separator :: part).Sublist t := by
  induction t with
  | nil => cases h
  | cons c rest ih =>
    by_cases hc : c = separator
    · rw [split, if_pos hc] at h
      rw [hc]
      exact (sublist_of_mem_split h).cons_cons separator
    · rw [split_cons_of_ne hc] at h
      exact (ih h).cons c

theorem sublist_of_mem_tail_firstWords (h : word ∈ (firstWords t).tail) :
    ('\n' :: word).Sublist t := by
  rw [firstWords, ← List.map_tail] at h
  obtain ⟨line, hline, rfl⟩ := List.mem_map.mp h
  have hword : (firstWord line).Sublist line :=
    (List.takeWhile_sublist _).trans (List.dropWhile_sublist _)
  exact (hword.cons_cons '\n').trans (sublist_of_mem_tail_split hline)

/-- Characters that are written around a name, or between its characters, to quote it. -/
def isQuoting (c : Char) : Bool := ("'\"\\!" : Text).contains c

/-- What is not longer than a word, apart from quoting, is too short to have it start a later line. -/
theorem notMem_tail_firstWords (hword : Label.IsIdentifier word)
    (hlength : (t.filter fun c => !isQuoting c).length ≤ word.length) :
    word ∉ (firstWords t).tail := by
  intro hmem
  have hkept : ('\n' :: word).filter (fun c => !isQuoting c) = '\n' :: word := by
    have hquoting : ("'\"\\!" : Text).all (fun c => !isWordChar c) = true := by decide
    refine List.filter_eq_self.mpr (List.forall_mem_cons.mpr ⟨by decide, fun c hc => ?_⟩)
    by_contra hmark
    have hsign : isQuoting c = true := by simpa using hmark
    exact hword.notMem_of_mem hquoting (List.contains_iff_mem.mp hsign) hc
  have hle := ((sublist_of_mem_tail_firstWords hmem).filter fun c => !isQuoting c).length_le
  rw [hkept, List.length_cons] at hle
  omega

theorem notMem_laterWords {name : Text} (hword : Label.IsIdentifier word)
    (hlength : name.length ≤ word.length) : word ∉ laterWords name := by
  have hkept : ((name ++ "\"").filter fun c => !isQuoting c).length ≤ name.length := by
    have hquote : ("\"" : Text).filter (fun c => !isQuoting c) = [] := by decide
    rw [List.filter_append, hquote, List.append_nil]
    exact List.length_filter_le _ name
  exact notMem_tail_firstWords hword (hkept.trans hlength)

theorem length_filter_flatMap_le {write : Char → Text}
    (hwrite : ∀ c, ((write c).filter fun d => !isQuoting d).length ≤ 1) (name : Text) :
    ((name.flatMap write).filter fun d => !isQuoting d).length ≤ name.length := by
  induction name with
  | nil => exact le_rfl
  | cons c rest ih =>
    have hc := hwrite c
    rw [List.flatMap_cons, List.filter_append, List.length_append, List.length_cons]
    omega

/-- As one shell word a name gets no more characters, apart from quoting. -/
theorem length_filter_shellWord_le (name : Text) :
    ((Quoting.shellWord name).filter fun c => !isQuoting c).length ≤ name.length := by
  rw [Quoting.shellWord]
  split
  · exact List.length_filter_le _ name
  · have hquote : (['\''] : Text).filter (fun c => !isQuoting c) = [] := by decide
    rw [List.cons_append, List.filter_cons_of_neg (by decide), List.filter_append, hquote,
      List.append_nil]
    refine length_filter_flatMap_le (fun c => ?_) name
    split
    · next hescaped =>
      rcases Bool.or_eq_true_iff.mp hescaped with hc | hc <;> rw [beq_iff_eq.mp hc] <;> decide
    · exact List.length_filter_le _ [c]

theorem notMem_tail_firstWords_shellWord {name : Text} (hword : Label.IsIdentifier word)
    (hlength : name.length ≤ word.length) : word ∉ (firstWords (Quoting.shellWord name)).tail :=
  notMem_tail_firstWords hword ((length_filter_shellWord_le name).trans hlength)

end DualShell.Text
