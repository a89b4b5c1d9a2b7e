import DualShell.Proofs.Passes
import DualShell.Template
import Mathlib.Data.List.Infix
import Mathlib.Data.List.TakeWhile

/-!
The placeholders of a template, found anywhere in its text: the pieces that the pass from left to
right reads are all there are. A template can be expanded exactly when each of its placeholders
names a token.
-/

namespace DualShell

open Passes

namespace Template

/-- Whether the template holds the placeholder with this name somewhere in its text. -/
def Mentions (template name : Text) : Prop :=
  name ≠ [] ∧ (∀ c ∈ name, c.isAlphanum = true) ∧ '{' :: name ++ ['}'] <:+: template

/-- Whether every placeholder of the template names a token. -/
def IsKnown (template : Text) : Prop :=
  ∀ name, Mentions template name → ∃ token : Token, token.name = name

theorem openedName?_eq_some {after name : Text} :
    openedName? after = some name ↔
      name ≠ [] ∧ (∀ c ∈ name, c.isAlphanum = true) ∧ name ++ ['}'] <+: after := by
  constructor
  · intro h
    simp only [openedName?] at h
    split at h
    · next hopened =>
      obtain rfl := Option.some.inj h
      refine ⟨hopened.1, fun c hc => List.mem_takeWhile_imp hc, ?_⟩
      obtain ⟨rest, hrest⟩ := List.head?_eq_some_iff.mp hopened.2
      have hsplit := List.prefix_iff_eq_append.mp (List.takeWhile_prefix Char.isAlphanum (l := after))
      exact ⟨rest, by rw [List.append_assoc, List.singleton_append, ← hrest, hsplit]⟩
    · simp at h
  · rintro ⟨hne, hall, rest, rfl⟩
    have htake : (name ++ ['}'] ++ rest).takeWhile Char.isAlphanum = name := by
      rw [List.append_assoc, List.takeWhile_append_of_pos hall]
      have hclose : ('}' : Char).isAlphanum = false := by decide
      simp [hclose]
    simp only [openedName?, htake]
    simp [hne]

theorem mentions_cons {c : Char} {rest name : Text} :
    Mentions (c :: rest) name ↔
      (c = '{' ∧ openedName? rest = some name) ∨ Mentions rest name := by
  simp only [Mentions, openedName?_eq_some, List.infix_cons_iff, List.cons_append,
    List.cons_prefix_cons]
  grind

theorem mentions_nil (name : Text) : ¬Mentions [] name := by
  simp [Mentions]

/-- Characters of a name and the brace after it start no placeholder, so that what stands after a
placeholder is read by itself. -/
theorem pieces_opened {name after : Text} (h : openedName? after = some name) :
    ∃ rest, after = name ++ '}' :: rest ∧
      pieces after = (name ++ ['}']).map Piece.plain ++ pieces rest ∧
      pieces ('{' :: after) = .placeholder name :: pieces rest := by
  obtain ⟨-, hall, rest, rfl⟩ := openedName?_eq_some.mp h
  have hafter : pieces (name ++ ['}'] ++ rest) =
      (name ++ ['}']).map Piece.plain ++ pieces rest := by
    rw [List.append_assoc, pieces_alphanum hall]
    simp [pieces]
  refine ⟨rest, List.append_assoc _ _ _, hafter, ?_⟩
  rw [pieces, if_pos rfl, h]
  simp only [hafter]
  rw [List.drop_left' (by simp)]

theorem placeholder_mem_pieces {template name : Text} :
    Piece.placeholder name ∈ pieces template ↔ Mentions template name := by
  induction template with
  | nil => simp [pieces, mentions_nil]
  | cons c rest ih =>
    rw [mentions_cons, ← ih]
    by_cases hc : c = '{'
    · subst hc
      cases hopened : openedName? rest with
      | none => simp [pieces, hopened]
      | some opened =>
        -- what is skipped after the placeholder are plain pieces only
        obtain ⟨after, -, hafter, hpieces⟩ := pieces_opened hopened
        simp [hpieces, hafter, eq_comm]
    · simp [pieces, hc]

theorem exists_expand_piece_eq_ok {family : Family} {piece : Piece} :
    (∃ t, piece.expand family = .ok t) ↔
      ∀ name, piece = .placeholder name → ∃ token : Token, token.name = name := by
  cases piece with
  | plain c => simp [Piece.expand]
  | placeholder name =>
    simp only [Piece.expand, Piece.placeholder.injEq, forall_eq']
    constructor
    · rintro ⟨t, ht⟩
      cases htoken : Token.ofName? name with
      | none => simp [htoken] at ht
      | some token => exact ⟨token, by simpa using List.find?_some htoken⟩
    · rintro ⟨token, rfl⟩
      exact ⟨token.literal family, by rw [Token.ofName?_name]⟩

/-- A template can be expanded exactly when all of its placeholders are known. -/
theorem exists_expand_eq_ok {family : Family} {template : Text} :
    (∃ t, expand family template = .ok t) ↔ IsKnown template := by
  rw [expand, Text.exists_collect_eq_ok]
  simp only [exists_expand_piece_eq_ok, IsKnown, ← placeholder_mem_pieces]
  constructor
  · intro h name hname
    exact h _ hname name rfl
  · rintro h piece hpiece name rfl
    exact h name hpiece

end Template

end DualShell
