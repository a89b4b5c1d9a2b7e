import DualShell.Proofs.ExitForReturn
import DualShell.Proofs.RunScriptDocuments
import DualShell.Proofs.ShownStatements
import DualShell.ScriptPlan

/-!
Texts with a family's own line ends only. On Unix they hold no carriage return; on Windows every line
feed in them follows one. Such texts are put together from the family's line end and from other
characters, and all that is written from them, by whatever route, is again such a text.
-/

namespace DualShell

open Passes

/-- The character that a text of the family holds at most as a part of its line ends. -/
def Family.stray : Family → Char
  | .unix => '\r'
  | .windows => '\n'

namespace Text

/-- Whether the line ends in a text are the family's own. -/
def HasOwnLineEnds : Family → Text → Prop
  | .unix, t => '\r' ∉ t
  | .windows, t => HasCrlfOnly t

/-- Texts put together from the family's line end and from characters that are no part of one. -/
inductive Lined (family : Family) : Text → Prop
  | nil : Lined family []
  | lineEnd {t : Text} : Lined family t → Lined family (family.lineEnd ++ t)
  | char {c : Char} {t : Text} : c ≠ family.stray → Lined family t → Lined family (c :: t)

variable {family : Family} {s t : Text}

theorem Lined.append (hs : Lined family s) (ht : Lined family t) : Lined family (s ++ t) := by
  induction hs with
  | nil => exact ht
  | lineEnd _ ih => rw [List.append_assoc]; exact ih.lineEnd
  | char hc _ ih => exact ih.char hc

theorem lined_of_notMem (h : family.stray ∉ t) : Lined family t := by
  induction t with
  | nil => exact .nil
  | cons c rest ih =>
    obtain ⟨hc, hrest⟩ := not_or.mp (mt List.mem_cons.mpr h)
    exact (ih hrest).char (Ne.symm hc)

theorem lined_unix_iff : Lined .unix t ↔ '\r' ∉ t := by
  refine ⟨fun h => ?_, fun h => lined_of_notMem h⟩
  induction h with
  | nil => exact List.not_mem_nil
  | lineEnd _ ih => exact fun hmem => ih (by simpa [Family.lineEnd] using hmem)
  | char hc _ ih => exact fun hmem => (List.mem_cons.mp hmem).elim (fun heq => hc heq.symm) ih

theorem hasCrlfOnly_of_cons {c : Char} (h : HasCrlfOnly (c :: t))
    (hend : ¬(c = '\r' ∧ t.head? = some '\n')) : HasCrlfOnly t := by
  rintro before after rfl
  have hlast := h (c :: before) after rfl
  cases before with
  | nil => exact absurd ⟨by simpa using hlast, rfl⟩ hend
  | cons d others => rwa [List.getLast?_cons_cons] at hlast

theorem lined_windows_iff : Lined .windows t ↔ HasCrlfOnly t := by
  constructor
  · intro h
    induction h with
    | nil => intro before after heq; simp at heq
    | lineEnd _ ih => exact (hasCrlfOnly_windows_line List.not_mem_nil).append ih
    | @char c t hc _ ih =>
      have hsingle : HasCrlfOnly [c] := by
        intro before after heq
        have hmem : '\n' ∈ [c] := by simp [heq]
        exact absurd (List.mem_singleton.mp hmem).symm hc
      exact hsingle.append ih
  · intro h
    -- a line end is taken off at once, so the induction is on the length
    induction hlength : t.length using Nat.strong_induction_on generalizing t with
    | _ n ih =>
      cases t with
      | nil => exact .nil
      | cons c rest =>
        have hc : c ≠ '\n' := by
          rintro rfl
          exact absurd (h [] rest rfl) (by simp)
        by_cases hend : c = '\r' ∧ rest.head? = some '\n'
        · obtain ⟨rfl, hhead⟩ := hend
          obtain ⟨after, rfl⟩ := List.head?_eq_some_iff.mp hhead
          have hafter : HasCrlfOnly after :=
            HasCrlfOnly.of_append (s := ['\r', '\n']) h (by decide)
          exact (ih after.length (by simp at hlength; omega) hafter rfl).lineEnd
        · exact (ih rest.length (by simp at hlength; omega) (hasCrlfOnly_of_cons h hend) rfl).char hc

theorem hasOwnLineEnds_iff : HasOwnLineEnds family t ↔ Lined family t := by
  cases family with
  | unix => exact lined_unix_iff.symm
  | windows => exact lined_windows_iff.symm

theorem lined_of_windows_block_lines (h : Family.windows.block (lines t) = t) : Lined .windows t :=
  lined_windows_iff.mpr (windows_block_lines_iff.mp h).2

theorem Lined.of_append (h : Lined family (s ++ t)) (hs : s.getLast? ≠ some '\r') :
    Lined family t := by
  rw [← hasOwnLineEnds_iff] at h ⊢
  cases family with
  | unix => exact fun hmem => h (List.mem_append_right _ hmem)
  | windows => exact HasCrlfOnly.of_append h hs

theorem lined_of_plain (h : '\r' ∉ t ∧ '\n' ∉ t) : Lined family t :=
  lined_of_notMem (by cases family <;> simp [Family.stray, h.1, h.2])

/-- What comes before a text may be anything without the stray character. -/
theorem Lined.after (h : Lined family t) (hs : family.stray ∉ s) : Lined family (s ++ t) :=
  (lined_of_notMem hs).append h

theorem Lined.before (h : Lined family s) (ht : family.stray ∉ t) : Lined family (s ++ t) :=
  h.append (lined_of_notMem ht)

theorem lined_flatten {texts : List Text} (h : ∀ t ∈ texts, Lined family t) :
    Lined family texts.flatten := by
  induction texts with
  | nil => exact .nil
  | cons t rest ih =>
    obtain ⟨ht, hrest⟩ := List.forall_mem_cons.mp h
    exact ht.append (ih hrest)

theorem lined_flatMap {α : Type} {items : List α} {write : α → Text}
    (h : ∀ a ∈ items, Lined family (write a)) : Lined family (items.flatMap write) :=
  lined_flatten (List.forall_mem_map.mpr h)

theorem Lined.line (h : Lined family t) : Lined family (family.line t) := by
  have hend : Lined family (family.lineEnd ++ []) := Lined.nil.lineEnd
  rw [List.append_nil] at hend
  exact h.append hend

theorem lined_block {contents : List Text} (h : ∀ content ∈ contents, Lined family content) :
    Lined family (family.block contents) :=
  lined_flatMap fun content hcontent => (h content hcontent).line

theorem lined_join {separator : Text} (hseparator : Lined family separator) {parts : List Text}
    (h : ∀ part ∈ parts, Lined family part) : Lined family (join separator parts) := by
  induction parts with
  | nil => exact .nil
  | cons part rest ih =>
    obtain ⟨hpart, hrest⟩ := List.forall_mem_cons.mp h
    cases rest with
    | nil => simpa [join, List.intercalate] using hpart
    | cons next others =>
      rw [join_cons (List.cons_ne_nil next others)]
      exact hpart.append (hseparator.append (ih hrest))

theorem lined_of_isIdentifier (h : Label.IsIdentifier t) : Lined family t := by
  refine lined_of_notMem ?_
  cases family <;> exact h.notMem (by decide)

end Text

open Text

theorem Token.lined_literal (token : Token) (family : Family) :
    Lined family (token.literal family) := by
  cases family with
  | unix =>
    have h : ∀ token ∈ Token.all, '\r' ∉ token.literal .unix := by decide +kernel
    exact lined_of_notMem (h token token.mem_all)
  | windows =>
    have h : ∀ token ∈ Token.all, '\n' ∉ token.literal .windows ∨
        Family.windows.block (lines (token.literal .windows)) = token.literal .windows := by
      decide +kernel
    rcases h token token.mem_all with hnone | hlines
    · exact lined_of_notMem hnone
    · exact lined_of_windows_block_lines hlines

theorem LibraryFunction.lined_definition (f : LibraryFunction) (family : Family) :
    Lined family (f.definition family) := by
  cases family with
  | unix =>
    have h : ∀ line ∈ f.unixLines, '\r' ∉ line := by cases f <;> decide +kernel
    exact lined_block fun line hline => lined_of_notMem (h line hline)
  | windows => exact lined_block fun line hline => lined_of_notMem ((windowsLines_spec f).1 line hline)

theorem LibraryFunction.lined_definitions (library : List LibraryFunction) (family : Family) :
    Lined family (definitions library family) :=
  lined_flatMap fun f _ => f.lined_definition family

namespace Template

theorem expand_placeholder_eq_ok {family : Family} {name t : Text}
    (h : (Piece.placeholder name).expand family = .ok t) :
    ∃ token : Token, token.literal family = t := by
  simp only [Piece.expand] at h
  split at h
  · next token _ => exact ⟨token, Except.ok.inj h⟩
  · cases h

/-- A template whose first piece is a plain character keeps it. -/
theorem expand_plain_eq_ok {family : Family} {c : Char} {rest t : Text}
    (hplain : pieces (c :: rest) = .plain c :: pieces rest)
    (ht : expand family (c :: rest) = .ok t) :
    ∃ after, expand family rest = .ok after ∧ t = c :: after := by
  rw [expand, Text.collect, hplain, map_eq_ok] at ht
  obtain ⟨_, htexts, rfl⟩ := ht
  obtain ⟨_, others, hfirst, hothers, rfl⟩ := traverse_cons_eq_ok.mp htexts
  obtain rfl := Except.ok.inj hfirst
  exact ⟨others.flatten, map_eq_ok.mpr ⟨others, hothers, rfl⟩, rfl⟩

/-- A template that starts with a placeholder starts with a token's literal once it is expanded. -/
theorem expand_opened_eq_ok {family : Family} {after name t : Text}
    (hname : openedName? after = some name) (ht : expand family ('{' :: after) = .ok t) :
    ∃ rest written, ∃ token : Token, after = name ++ '}' :: rest ∧
      expand family rest = .ok written ∧ t = token.literal family ++ written := by
  obtain ⟨rest, hafter, -, hpieces⟩ := pieces_opened hname
  rw [expand, Text.collect, hpieces, map_eq_ok] at ht
  obtain ⟨_, htexts, rfl⟩ := ht
  obtain ⟨_, others, hfirst, hothers, rfl⟩ := traverse_cons_eq_ok.mp htexts
  obtain ⟨token, rfl⟩ := expand_placeholder_eq_ok hfirst
  exact ⟨rest, others.flatten, token, hafter, map_eq_ok.mpr ⟨others, hothers, rfl⟩, rfl⟩

theorem lined_expand {family : Family} {template t : Text} (h : Lined family template)
    (ht : expand family template = .ok t) : Lined family t := by
  -- a placeholder is read at once, so the induction is on the length
  induction hlength : template.length using Nat.strong_induction_on generalizing template t with
  | _ n ih =>
    cases h with
    | nil =>
      obtain rfl := Except.ok.inj ht
      exact .nil
    | @lineEnd rest hrest =>
      have hlater (written : Text) (hwritten : expand family rest = .ok written) :
          Lined family (family.lineEnd ++ written) := by
        refine (ih rest.length ?_ hrest hwritten rfl).lineEnd
        cases family <;> simp [Family.lineEnd] at hlength <;> omega
      cases family with
      | unix =>
        obtain ⟨written, hwritten, rfl⟩ := expand_plain_eq_ok rfl ht
        exact hlater written hwritten
      | windows =>
        obtain ⟨_, hafter, rfl⟩ := expand_plain_eq_ok rfl ht
        obtain ⟨written, hwritten, rfl⟩ := expand_plain_eq_ok rfl hafter
        exact hlater written hwritten
    | @char c rest hc hrest =>
      have hlater (hplain : pieces (c :: rest) = .plain c :: pieces rest) : Lined family t := by
        obtain ⟨written, hwritten, rfl⟩ := expand_plain_eq_ok hplain ht
        exact (ih rest.length (by simp at hlength; omega) hrest hwritten rfl).char hc
      by_cases hopen : c = '{'
      · subst hopen
        cases hname : openedName? rest with
        | none => exact hlater (by rw [pieces, if_pos rfl, hname])
        | some name =>
          obtain ⟨after, written, token, rfl, hwritten, rfl⟩ := expand_opened_eq_ok hname ht
          have hafter : Lined family after := by
            rw [List.append_cons] at hrest
            exact hrest.of_append (by simp)
          refine (token.lined_literal family).append (ih after.length ?_ hafter hwritten rfl)
          simp at hlength
          omega
      · exact hlater (by rw [pieces, if_neg hopen])

theorem lined_expandAll {family : Family} {templates written : List Text}
    (h : ∀ template ∈ templates, Lined family template)
    (hwritten : expandAll family templates = .ok written) : ∀ t ∈ written, Lined family t :=
  forall_mem_of_traverse_eq_ok (fun template htemplate _ => lined_expand (h template htemplate))
    hwritten

end Template

namespace Variable

theorem lined_upperSnake {family : Family} {key : Text} (h : Lined family key)
    (before : Option Char) : Lined family (upperSnake before key) := by
  induction h generalizing before with
  | nil => exact .nil
  | lineEnd _ ih =>
    cases family with
    | unix => exact (ih (some '\n')).lineEnd
    | windows => exact (ih (some '\n')).lineEnd
  | @char c _ hc _ ih =>
    rw [upperSnake]
    split
    · exact ((ih (some c)).char hc).char (by cases family <;> decide)
    · exact (ih (some c)).char (toUpper_ne (by cases family <;> decide) hc)

theorem lined_exportedName {family : Family} {key : Text} (h : Lined family key) :
    Lined family (exportedName key) := by
  rw [exportedName]
  split
  · exact lined_upperSnake h none
  · exact h

theorem lined_reference {family : Family} {name : Text} (h : Lined family name) :
    Lined family (reference name family) := by
  cases family with
  | unix => exact h.char (by decide)
  | windows =>
    rw [reference]
    split
    · exact h.char (by decide)
    · exact (h.char (by decide)).before (by decide)

theorem lined_realName {family : Family} {name : Text} (h : Lined family name) :
    Lined family (realName family name) := by
  rw [realName, realName?]
  cases Token.ofName? (name ++ "Variable") with
  | none => exact h
  | some token => exact token.lined_literal family

theorem lined_unsetSection {family : Family} {names : List Text}
    (h : ∀ name ∈ names, Lined family name) : Lined family (unsetSection names family) := by
  have hcleared : ∀ name ∈ distinct (names.map (realName family)), Lined family name := by
    intro name hname
    rw [mem_distinct] at hname
    obtain ⟨given, hgiven, rfl⟩ := List.mem_map.mp hname
    exact lined_realName (h given hgiven)
  refine lined_block fun line hline => ?_
  simp only [unsetLines] at hline
  split at hline
  · cases hline
  · obtain rfl := List.mem_singleton.mp hline
    exact (lined_join (lined_of_notMem (by decide)) hcleared).after (by decide)
  · obtain ⟨name, hname, rfl⟩ := List.mem_map.mp hline
    exact ((hcleared name hname).after (by decide)).before (by decide)

end Variable

namespace Quoting

theorem lined_doubleQuoted {t : Text} (h : Lined .unix t) : Lined .unix (doubleQuoted t) := by
  rw [lined_unix_iff] at h ⊢
  intro hmem
  obtain ⟨c, hc, hwritten⟩ := List.mem_flatMap.mp hmem
  have hsame : '\r' = c := by
    split at hwritten <;> simpa using hwritten
  exact h (hsame ▸ hc)

theorem lined_shellWord {t : Text} (h : Lined .unix t) : Lined .unix (shellWord t) := by
  rw [lined_unix_iff] at h ⊢
  intro hmem
  rcases RunScript.mem_shellWord hmem with hquote | hbackslash | hmem
  · exact absurd hquote (by decide)
  · exact absurd hbackslash (by decide)
  · exact h hmem

/-- Nothing is put between the characters of a line end. -/
theorem lined_batchEchoFrom {line : Text} (h : Lined .windows line) (quoted : Bool) :
    Lined .windows (batchEchoFrom quoted line) := by
  induction h generalizing quoted with
  | nil => exact .nil
  | lineEnd _ ih => exact (ih quoted).lineEnd
  | @char c _ hc _ ih =>
    rw [batchEchoFrom]
    split
    · exact (ih (!quoted)).char hc
    · split
      · exact ((ih quoted).char (by decide)).char (by decide)
      · split
        · exact ((ih quoted).char hc).char (by decide)
        · exact (ih quoted).char hc

end Quoting

theorem Statement.lined_exitForReturn {family : Family} {t : Text} (h : Lined family t) :
    Lined family (exitForReturn family t) := by
  cases family with
  | windows => rwa [exitForReturn_windows]
  | unix =>
    rw [lined_unix_iff] at h ⊢
    intro hmem
    rw [exitForReturn, replaceWord_eq_flatMap isOfKind_return] at hmem
    obtain ⟨s, hs, hmem⟩ := List.mem_flatMap.mp hmem
    split at hmem
    · exact absurd hmem (by decide)
    · rw [← flatten_stretches t] at h
      exact h (List.mem_flatten.mpr ⟨s, hs, hmem⟩)

end DualShell
