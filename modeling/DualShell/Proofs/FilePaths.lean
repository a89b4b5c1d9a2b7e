import DualShell.FilePath
import DualShell.Proofs.ShellReading

/-!
Which file a path names. A path is taken apart at its slashes; what is left without the parts that
lead nowhere is the directory of the file and then its name.
-/

namespace DualShell

namespace Text

theorem join_split (separator : Char) (t : Text) : join [separator] (split separator t) = t := by
  induction t with
  | nil => rfl
  | cons c rest ih =>
    have hsplit := split_ne_nil separator rest
    by_cases hc : c = separator
    · rw [split, if_pos hc, join_cons hsplit, ih, hc]
      rfl
    · obtain ⟨first, others, hparts⟩ := List.exists_cons_of_ne_nil hsplit
      rw [hparts] at ih
      rw [split_cons_of_ne hc, hparts, List.headD_cons, List.tail_cons]
      by_cases hothers : others = []
      · subst hothers
        rw [join, List.intercalate_singleton] at ih ⊢
        rw [ih]
      · rw [join_cons hothers] at ih ⊢
        rw [List.cons_append, ih]

theorem notMem_of_mem_split {separator : Char} {t part : Text} (h : part ∈ split separator t) :
    separator ∉ part := by
  induction t generalizing part with
  | nil =>
    obtain rfl := List.mem_singleton.mp h
    exact List.not_mem_nil
  | cons c rest ih =>
    have hsplit := split_ne_nil separator rest
    obtain ⟨first, others, hparts⟩ := List.exists_cons_of_ne_nil hsplit
    rw [hparts] at ih
    by_cases hc : c = separator
    · rw [split, if_pos hc, hparts] at h
      obtain rfl | h := List.mem_cons.mp h
      · exact List.not_mem_nil
      · exact ih h
    · rw [split_cons_of_ne hc, hparts, List.headD_cons, List.tail_cons] at h
      obtain rfl | h := List.mem_cons.mp h
      · exact List.not_mem_cons_of_ne_of_not_mem (Ne.symm hc) (ih List.mem_cons_self)
      · exact ih (List.mem_cons_of_mem first h)

/-- There is one way to take a text apart into parts without the separator. -/
theorem split_join {separator : Char} {parts : List Text} (hne : parts ≠ [])
    (h : ∀ part ∈ parts, separator ∉ part) : split separator (join [separator] parts) = parts := by
  induction parts with
  | nil => exact absurd rfl hne
  | cons part others ih =>
    obtain ⟨hpart, hothers⟩ := List.forall_mem_cons.mp h
    by_cases hlast : others = []
    · subst hlast
      rw [join, List.intercalate_singleton, split_of_not_mem hpart]
    · rw [join_cons hlast, List.singleton_append, split_append_cons, ih hlast hothers,
        split_of_not_mem hpart]
      rfl

end Text

namespace FilePath

/-- Whether a path names a file: its parts between slashes, without empty ones and those that stay
where they are, are the directory and then the name, which is no step to a parent. -/
structure Names (path : Text) (file : FilePath) : Prop where
  absolute : file.absolute = true ↔ path.head? = some '/'
  parts : ∃ parts : List Text, parts ≠ [] ∧ (∀ part ∈ parts, '/' ∉ part) ∧
    Text.join "/" parts = path ∧
    parts.filter (fun part => part ≠ [] ∧ part ≠ ".") = file.directory ++ [file.fileName]
  fileName : file.fileName ≠ ".."

theorem ofText?_eq_some_iff {path : Text} {file : FilePath} :
    ofText? path = some file ↔ Names path file := by
  have hofText {before : List Text} {last : Text} (h : components path = before ++ [last]) :
      ofText? path =
        if last = parentDirectory then none
        else some ⟨path.head? = some '/', before, last⟩ := by
    rw [ofText?, h, List.reverse_concat]
    simp only [List.reverse_reverse]
  constructor
  · intro h
    obtain hnone | ⟨before, last, hparts⟩ := List.eq_nil_or_concat' (components path)
    · rw [ofText?, hnone] at h
      cases h
    · rw [hofText hparts, Option.ite_none_left_eq_some] at h
      obtain ⟨hlast, hfile⟩ := h
      obtain rfl := Option.some.inj hfile
      exact ⟨decide_eq_true_iff, ⟨Text.split '/' path, Text.split_ne_nil '/' path,
        fun part => Text.notMem_of_mem_split, Text.join_split '/' path, hparts⟩, hlast⟩
  · rintro ⟨habsolute, ⟨parts, hne, hslash, rfl, hparts⟩, hlast⟩
    have hcomponents : components (Text.join "/" parts) = file.directory ++ [file.fileName] := by
      rw [components]
      have hsplit : Text.split '/' (Text.join "/" parts) = parts := Text.split_join hne hslash
      rw [hsplit]
      exact hparts
    have hname : file.fileName ≠ parentDirectory := hlast
    have hhead : decide ((Text.join "/" parts).head? = some '/') = file.absolute := by
      rw [Bool.eq_iff_iff, decide_eq_true_iff, habsolute]
    rw [hofText hcomponents, if_neg hname, hhead]

theorem ofText?_eq_none_iff {path : Text} : ofText? path = none ↔ ∀ file, ¬Names path file := by
  simp only [← ofText?_eq_some_iff, Option.eq_none_iff_forall_ne_some, ne_eq]

end FilePath

end DualShell
