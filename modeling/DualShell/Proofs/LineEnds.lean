import DualShell.Proofs.Reached
import DualShell.Proofs.WholeWords
import DualShell.Text.Lines

/-!
How the lines of a text and the text go into each other. A block of lines is read back as these
lines, and a text that ends its lines in the Windows way is the block of its lines. What is written
for a statement is empty or ends a line.
-/

namespace DualShell

open Passes

theorem Family.block_cons (family : Family) (content : Text) (rest : List Text) :
    family.block (content :: rest) = family.line content ++ family.block rest := rfl

namespace Text

theorem lines_cons_of_ne {c : Char} {rest : Text} (hc : c ≠ '\n')
    (hend : ¬(c = '\r' ∧ rest.head? = some '\n')) :
    lines (c :: rest) = (c :: (lines rest).headD []) :: (lines rest).tail := by
  rw [lines, if_neg hc, if_neg hend]
  cases lines rest <;> rfl

theorem lines_append_crlf {line : Text} (h : '\n' ∉ line) (rest : Text) :
    lines (line ++ '\r' :: '\n' :: rest) = line :: lines rest := by
  induction line with
  | nil => exact lines_crlf rest
  | cons c others ih =>
    obtain ⟨hc, hothers⟩ := not_or.mp (mt List.mem_cons.mpr h)
    have hend : ¬(c = '\r' ∧ (others ++ '\r' :: '\n' :: rest).head? = some '\n') := by
      rintro ⟨-, hhead⟩
      cases others with
      | nil => simp at hhead
      | cons d _ => exact hothers (by simp_all)
    rw [List.cons_append, lines_cons_of_ne (Ne.symm hc) hend, ih hothers]
    rfl

theorem lines_windows_line {line : Text} (h : '\n' ∉ line) (rest : Text) :
    lines (Family.windows.line line ++ rest) = line :: lines rest := by
  have hline : Family.windows.line line ++ rest = line ++ '\r' :: '\n' :: rest := by
    simp [Family.line, Family.lineEnd]
  rw [hline, lines_append_crlf h]

theorem lines_windows_block {contents : List Text} (h : ∀ line ∈ contents, '\n' ∉ line) :
    lines (Family.windows.block contents) = contents := by
  induction contents with
  | nil => rfl
  | cons line rest ih =>
    obtain ⟨hline, hrest⟩ := List.forall_mem_cons.mp h
    rw [Family.block_cons, lines_windows_line hline, ih hrest]

theorem not_mem_lines (t : Text) : ∀ line ∈ lines t, '\n' ∉ line := by
  induction t with
  | nil => simp [lines]
  | cons c rest ih =>
    by_cases hc : c = '\n'
    · subst hc
      rw [lines_lf]
      exact List.forall_mem_cons.mpr ⟨by simp, ih⟩
    · by_cases hend : c = '\r' ∧ rest.head? = some '\n'
      · rw [lines, if_neg hc, if_pos hend]
        exact ih
      · rw [lines_cons_of_ne hc hend]
        refine List.forall_mem_cons.mpr ⟨?_, fun line hline => ih line (List.mem_of_mem_tail hline)⟩
        have hfirst : '\n' ∉ (lines rest).headD [] := by
          cases hrest : lines rest with
          | nil => simp
          | cons line others => exact ih line (by simp [hrest])
        simpa [Ne.symm hc] using hfirst

/-- Whether every line feed follows a carriage return. -/
def HasCrlfOnly (t : Text) : Prop :=
  ∀ before after, t = before ++ '\n' :: after → before.getLast? = some '\r'

/-- Whether a text is empty or ends with a line feed. -/
def IsEnded (t : Text) : Prop := t = [] ∨ t.getLast? = some '\n'

instance (t : Text) : Decidable (IsEnded t) := inferInstanceAs (Decidable (_ ∨ _))

/-- Whether a text is empty or ends in the family's way. -/
def EndsLine (family : Family) (t : Text) : Prop := t = [] ∨ family.lineEnd <:+ t

theorem EndsLine.isEnded {family : Family} {t : Text} (h : EndsLine family t) : IsEnded t := by
  rcases h with rfl | ⟨before, rfl⟩
  · exact Or.inl rfl
  · exact Or.inr (by cases family <;> simp [Family.lineEnd, List.getLast?_append])

theorem endsLine_unix_iff {t : Text} : EndsLine .unix t ↔ IsEnded t := by
  refine ⟨EndsLine.isEnded, Or.imp_right fun h => ?_⟩
  obtain ⟨before, rfl⟩ := List.getLast?_eq_some_iff.mp h
  exact List.suffix_append before _

theorem EndsLine.append {family : Family} {s t : Text} (hs : EndsLine family s)
    (ht : EndsLine family t) : EndsLine family (s ++ t) := by
  rcases ht with rfl | ht
  · simpa using hs
  · exact Or.inr (ht.trans (List.suffix_append s t))

/-- What comes before a text that ends its last line does not matter. -/
theorem EndsLine.prepend {family : Family} {t : Text} (h : EndsLine family t) (hne : t ≠ [])
    (s : Text) : EndsLine family (s ++ t) :=
  Or.inr ((h.resolve_left hne).trans (List.suffix_append s t))

theorem endsLine_append_line (t : Text) (family : Family) (content : Text) :
    EndsLine family (t ++ family.line content) :=
  Or.inr ⟨t ++ content, by rw [Family.line, List.append_assoc]⟩

theorem endsLine_line (family : Family) (content : Text) : EndsLine family (family.line content) :=
  endsLine_append_line [] family content

theorem endsLine_flatten {family : Family} {texts : List Text} (h : ∀ t ∈ texts, EndsLine family t) :
    EndsLine family texts.flatten := by
  induction texts with
  | nil => exact Or.inl rfl
  | cons t rest ih =>
    obtain ⟨ht, hrest⟩ := List.forall_mem_cons.mp h
    exact ht.append (ih hrest)

theorem endsLine_flatMap {family : Family} {α : Type} {items : List α} {write : α → Text}
    (h : ∀ a ∈ items, EndsLine family (write a)) : EndsLine family (items.flatMap write) :=
  endsLine_flatten (List.forall_mem_map.mpr h)

theorem endsLine_block (family : Family) (contents : List Text) :
    EndsLine family (family.block contents) :=
  endsLine_flatMap fun line _ => endsLine_line family line

theorem IsEnded.append {s t : Text} (hs : IsEnded s) (ht : IsEnded t) : IsEnded (s ++ t) :=
  endsLine_unix_iff.mp ((endsLine_unix_iff.mpr hs).append (endsLine_unix_iff.mpr ht))

theorem IsEnded.of_append {s t : Text} (h : IsEnded (s ++ t)) : IsEnded t := by
  rcases h with hnil | hlast
  · exact Or.inl (List.append_eq_nil_iff.mp hnil).2
  · by_cases ht : t = []
    · exact Or.inl ht
    · exact Or.inr (by rwa [List.getLast?_append_of_ne_nil s ht] at hlast)

theorem isEnded_append_line (t : Text) (family : Family) (content : Text) :
    IsEnded (t ++ family.line content) :=
  (endsLine_append_line t family content).isEnded

theorem isEnded_line (family : Family) (content : Text) : IsEnded (family.line content) :=
  (endsLine_line family content).isEnded

theorem isEnded_flatMap {α : Type} {items : List α} {write : α → Text}
    (h : ∀ a ∈ items, IsEnded (write a)) : IsEnded (items.flatMap write) :=
  endsLine_unix_iff.mp (endsLine_flatMap fun a ha => endsLine_unix_iff.mpr (h a ha))

theorem isEnded_block (family : Family) (contents : List Text) : IsEnded (family.block contents) :=
  (endsLine_block family contents).isEnded

theorem HasCrlfOnly.of_append {s t : Text} (h : HasCrlfOnly (s ++ t)) (hs : s.getLast? ≠ some '\r') :
    HasCrlfOnly t := by
  rintro before after rfl
  have hlast := h (s ++ before) after (by rw [List.append_assoc])
  by_cases hbefore : before = []
  · subst hbefore
    exact absurd (by simpa using hlast) hs
  · rwa [List.getLast?_append_of_ne_nil s hbefore] at hlast

theorem HasCrlfOnly.append {s t : Text} (hs : HasCrlfOnly s) (ht : HasCrlfOnly t) :
    HasCrlfOnly (s ++ t) := by
  intro before after h
  rcases List.append_eq_append_iff.mp h with ⟨more, rfl, hmore⟩ | ⟨left, rfl, hleft⟩
  · simp [List.getLast?_append, ht more after hmore]
  · rcases List.cons_eq_append_iff.mp hleft with ⟨rfl, hfirst⟩ | ⟨others, rfl, -⟩
    · exact absurd (ht [] after hfirst) (by simp)
    · exact hs before others rfl

theorem hasCrlfOnly_windows_line {line : Text} (h : '\n' ∉ line) :
    HasCrlfOnly (Family.windows.line line) := by
  intro before after heq
  have hsplit : Family.windows.line line = (line ++ ['\r']) ++ '\n' :: [] := by
    simp [Family.line, Family.lineEnd]
  rw [hsplit] at heq
  obtain ⟨rfl, -, -⟩ := (List.append_cons_inj_of_notMem (by simpa using h) (by simp)).mp heq
  simp

theorem hasCrlfOnly_windows_block {contents : List Text} (h : ∀ line ∈ contents, '\n' ∉ line) :
    HasCrlfOnly (Family.windows.block contents) := by
  induction contents with
  | nil => simp [HasCrlfOnly, Family.block]
  | cons line rest ih =>
    obtain ⟨hline, hrest⟩ := List.forall_mem_cons.mp h
    exact (hasCrlfOnly_windows_line hline).append (ih hrest)

theorem IsEnded.exists_line {t : Text} (hne : t ≠ []) (h : IsEnded t) :
    ∃ line rest, '\n' ∉ line ∧ IsEnded rest ∧ t = line ++ '\n' :: rest := by
  have hmem : '\n' ∈ t := List.mem_of_getLast? (h.resolve_left hne)
  obtain ⟨line, rest, rfl, hline⟩ := List.eq_append_cons_of_mem hmem
  refine ⟨line, rest, hline, ?_, rfl⟩
  rw [List.append_cons] at h
  exact h.of_append

theorem exists_windows_line {t : Text} (hne : t ≠ []) (hended : IsEnded t) (hcrlf : HasCrlfOnly t) :
    ∃ line rest, '\n' ∉ line ∧ IsEnded rest ∧ t = Family.windows.line line ++ rest := by
  obtain ⟨before, rest, hbefore, hrest, rfl⟩ := hended.exists_line hne
  obtain ⟨line, rfl⟩ := List.getLast?_eq_some_iff.mp (hcrlf before rest rfl)
  refine ⟨line, rest, fun hline => hbefore (List.mem_append_left _ hline), hrest, ?_⟩
  simp [Family.line, Family.lineEnd]

/-- A text that ends each of its lines in the Windows way is the block of its lines. -/
theorem windows_block_lines {t : Text} (hended : IsEnded t) (hcrlf : HasCrlfOnly t) :
    Family.windows.block (lines t) = t := by
  -- a whole line is taken off at once, so the induction is on the length
  induction hlength : t.length using Nat.strong_induction_on generalizing t with
  | _ n ih =>
    by_cases hne : t = []
    · subst hne
      rfl
    · obtain ⟨line, rest, hline, hrest, rfl⟩ := exists_windows_line hne hended hcrlf
      have hshorter : rest.length < n := by
        simp [Family.line, Family.lineEnd] at hlength
        omega
      have hcrlfRest : HasCrlfOnly rest := hcrlf.of_append (by simp [Family.line, Family.lineEnd])
      rw [lines_windows_line hline, Family.block_cons, ih rest.length hshorter hrest hcrlfRest rfl]

theorem windows_block_lines_iff {t : Text} :
    Family.windows.block (lines t) = t ↔ IsEnded t ∧ HasCrlfOnly t := by
  constructor
  · intro h
    rw [← h]
    exact ⟨isEnded_block .windows _, hasCrlfOnly_windows_block (not_mem_lines t)⟩
  · rintro ⟨hended, hcrlf⟩
    exact windows_block_lines hended hcrlf

end Text

namespace Statement

/-- On Windows a return from a function and an exit from a script are the same command. -/
theorem exitForReturn_windows (text : Text) : exitForReturn .windows text = text :=
  Text.replaceWord_self _ text

/-- The lines of a text have their returns replaced one by one. -/
theorem exitForReturn_append_lf (family : Family) (s t : Text) :
    exitForReturn family (s ++ '\n' :: t) =
      exitForReturn family s ++ '\n' :: exitForReturn family t := by
  cases family with
  | unix => exact Text.replaceWord_append_cons (by decide) (by decide) s t
  | windows => simp only [exitForReturn_windows]

theorem endsLine_exitForReturn (family : Family) {t : Text} (h : Text.EndsLine family t) :
    Text.EndsLine family (exitForReturn family t) := by
  cases family with
  | windows => rwa [exitForReturn_windows]
  | unix =>
    rcases h with rfl | ⟨lines, rfl⟩
    · exact Or.inl rfl
    · have happend := exitForReturn_append_lf .unix lines []
      exact Or.inr ⟨exitForReturn .unix lines, happend.symm⟩

theorem render_list_eq_ok {family : Family} {items : List Statement} {text : Text} :
    render family (.list items) = .ok text ↔
      ∃ texts, traverse (render family) items = .ok texts ∧ texts.flatten = text := by
  rw [render, renderItems_eq, Text.collect, map_eq_ok]

theorem render_runScript_eq_ok {family : Family} {instanceName workingDirectory text : Text}
    {exports : List Text} {body : Statement} :
    render family (.runScript instanceName exports workingDirectory body) = .ok text ↔
      ∃ directory written library,
        Template.expand family workingDirectory = .ok directory ∧
        render family (.exitInsteadOfReturn body) = .ok written ∧
        LibraryFunction.resolve family [] (body.dependencies family).names = .ok library ∧
        RunScript.commands ⟨instanceName, exports, directory, library, written⟩ family = text := by
  simp only [render, bind_eq_ok, pure_eq_ok, map_eq_ok]
  constructor
  · rintro ⟨library, hlibrary, written, hwritten, directory, hdirectory, rfl⟩
    exact ⟨directory, _, library, hdirectory, ⟨written, hwritten, rfl⟩, hlibrary, rfl⟩
  · rintro ⟨directory, _, library, hdirectory, ⟨written, hwritten, rfl⟩, hlibrary, rfl⟩
    exact ⟨library, hlibrary, written, hwritten, directory, hdirectory, rfl⟩

end Statement

theorem RunScript.endsLine_windowsCommands (script : RunScript) :
    Text.EndsLine .windows script.windowsCommands := by
  have happend (contents : List Text) :
      Text.EndsLine .windows (contents.flatMap (appendLine (script.path .windows))) :=
    Text.endsLine_flatMap fun _ _ => Text.endsLine_line .windows _
  refine (((Text.endsLine_block .windows _).append (happend _)).append ?_).append (happend _)
  rw [windowsExports]
  split
  · exact Or.inl rfl
  · exact Text.endsLine_append_line _ .windows _

theorem RunScript.endsLine_commands (script : RunScript) (family : Family) :
    Text.EndsLine family (script.commands family) := by
  cases family with
  | unix => exact Text.endsLine_append_line _ .unix _
  | windows => exact script.endsLine_windowsCommands

theorem endsLine_functionDefinition (name body : Text) (family : Family) :
    Text.EndsLine family (functionDefinition name body family) := by
  cases family with
  | unix => exact (Text.endsLine_block .unix _).prepend (by decide) _
  | windows => exact Text.endsLine_append_line _ .windows _

theorem Dispatch.endsLine_table (subject : Text) (arms : List Dispatch.Arm) (family : Family) :
    Text.EndsLine family (Dispatch.table subject arms family) := by
  cases family <;> exact Text.endsLine_append_line _ _ _

theorem Capture.endsLine_commands {family : Family} (directory : Text) {body : Text}
    (hbody : Text.EndsLine family body) :
    Text.EndsLine family (Capture.commands directory body family) := by
  cases family with
  | unix => exact (Text.endsLine_block .unix _).append hbody
  | windows => exact Text.endsLine_append_line _ .windows _

namespace Statement

/-- What is written for a statement is empty or ends as the family ends its lines. -/
theorem endsLine_of_render {family : Family} {s : Statement} {text : Text}
    (h : render family s = .ok text) : Text.EndsLine family text := by
  induction s generalizing text with
  | interpret lines =>
    obtain ⟨contents, -, rfl⟩ := map_eq_ok.mp h
    exact Text.endsLine_block family contents
  | list items ih =>
    obtain ⟨texts, htexts, rfl⟩ := render_list_eq_ok.mp h
    exact Text.endsLine_flatten (forall_mem_of_traverse_eq_ok (fun s hs _ => ih s hs) htexts)
  | exitInsteadOfReturn body ih =>
    obtain ⟨written, hwritten, rfl⟩ := map_eq_ok.mp h
    exact endsLine_exitForReturn family (ih hwritten)
  | scope exported =>
    obtain ⟨body, -, rfl⟩ := map_eq_ok.mp h
    exact endsLine_functionDefinition _ body family
  | call function arguments =>
    obtain ⟨written, -, rfl⟩ := map_eq_ok.mp h
    exact Text.endsLine_line family _
  | switch subject cases ih =>
    obtain ⟨arms, -, rfl⟩ := map_eq_ok.mp h
    exact Dispatch.endsLine_table subject arms family
  | findPid pattern =>
    obtain ⟨written, -, rfl⟩ := map_eq_ok.mp h
    exact Text.endsLine_line family _
  | kill =>
    obtain rfl := Except.ok.inj h
    cases family <;> exact Text.endsLine_block _ _
  | forget instanceName script logDirectory =>
    obtain ⟨written, -, rfl⟩ := map_eq_ok.mp h
    exact Text.endsLine_line family _
  | runScript instanceName exports workingDirectory body ih =>
    obtain ⟨directory, written, library, -, -, -, rfl⟩ := render_runScript_eq_ok.mp h
    exact RunScript.endsLine_commands _ family
  | capture logDirectory body ih =>
    simp only [render, bind_eq_ok, pure_eq_ok] at h
    obtain ⟨directory, -, written, hwritten, rfl⟩ := h
    exact Capture.endsLine_commands directory (ih hwritten)
  | dialect unix windows ihu ihw =>
    cases family with
    | unix => exact ihu h
    | windows => exact ihw h

theorem isEnded_of_render {family : Family} {s : Statement} {text : Text}
    (h : render family s = .ok text) : Text.IsEnded text :=
  (endsLine_of_render h).isEnded

end Statement

end DualShell
