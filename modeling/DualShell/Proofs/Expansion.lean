import DualShell.Proofs.Placeholders
import DualShell.Proofs.WholeWords
import Mathlib.Data.Nat.Find

/-!
What a template expands to, read off its positions. Whether a placeholder stands at a position is said
without a pass from left to right: it is a matter of the characters from there on. No two placeholders
overlap. If all of them name tokens, each gives way to its literal, all at once, and every other
character is kept; otherwise the leftmost one that names none is the failure.
-/

namespace DualShell

open Passes

namespace Token

/-- The literal of the token with a name; there is none for a name that no token has. -/
def literalOf (family : Family) (name : Text) : Text :=
  ((ofName? name).map (·.literal family)).getD []

theorem open_not_mem_literal (token : Token) (family : Family) : '{' ∉ token.literal family := by
  cases family <;> cases token <;> decide

end Token

namespace Template

/-- The names that a placeholder can give: ASCII letters and digits, at least one of them. -/
def IsName (name : Text) : Prop := name ≠ [] ∧ ∀ c ∈ name, c.isAlphanum = true

/-- Whether the placeholder with this name stands at a position of the template. -/
def StandsAt (template : Text) (position : Nat) (name : Text) : Prop :=
  IsName name ∧ (Piece.placeholder name).source <+: template.drop position

/-- The name of the placeholder that stands at the start of a text. -/
def leadingName? : Text → Option Text
  | [] => none
  | c :: rest => if c = '{' then openedName? rest else none

/-- The name of the placeholder that stands at a position. -/
def nameAt? (template : Text) (position : Nat) : Option Text :=
  leadingName? (template.drop position)

/-- How many characters the placeholder at a position has: none when no placeholder stands there. -/
def widthAt (template : Text) (position : Nat) : Nat :=
  match nameAt? template position with
  | some name => name.length + 2
  | none => 0

/-- What comes of a position when every placeholder gives way to what is written for its name. -/
def writtenAt (write : Text → Text) (template : Text) (position : Nat) : Text :=
  match nameAt? template position with
  | some name => write name
  | none =>
    if ∃ start < position, position < start + widthAt template start then []
    else template[position]?.toList

/-- The template with what is written for their names in place of all of its placeholders at once. -/
def replaced (write : Text → Text) (template : Text) : Text :=
  (List.range template.length).flatMap (writtenAt write template)

theorem IsName.open_not_mem {name : Text} (h : IsName name) : '{' ∉ name ++ ['}'] := by
  rw [List.mem_append, not_or]
  exact ⟨fun hmem => absurd (h.2 _ hmem) (by decide), by decide⟩

theorem openedName?_eq_some_iff {after name : Text} :
    openedName? after = some name ↔ IsName name ∧ name ++ ['}'] <+: after := by
  rw [openedName?_eq_some, IsName, and_assoc]

theorem length_source (name : Text) : (Piece.placeholder name).source.length = name.length + 2 := by
  rw [Piece.source, List.length_append, List.length_cons, List.length_singleton]

/-! ### Where placeholders stand -/

theorem leadingName?_eq_some {t name : Text} :
    leadingName? t = some name ↔ IsName name ∧ (Piece.placeholder name).source <+: t := by
  cases t with
  | nil => simp [leadingName?, Piece.source]
  | cons c rest =>
    rw [leadingName?, Piece.source, List.cons_append, List.cons_prefix_cons]
    by_cases hc : c = '{'
    · rw [if_pos hc, openedName?_eq_some_iff]
      simp [hc]
    · simp [hc, Ne.symm hc]

theorem nameAt?_eq_some {template name : Text} {i : Nat} :
    nameAt? template i = some name ↔ StandsAt template i name := leadingName?_eq_some

theorem exists_standsAt_iff {template name : Text} :
    (∃ i, StandsAt template i name) ↔ Mentions template name := by
  constructor
  · rintro ⟨i, hname, hstarts⟩
    exact ⟨hname.1, hname.2, hstarts.isInfix.trans (List.drop_suffix i template).isInfix⟩
  · rintro ⟨hne, hall, before, after, rfl⟩
    refine ⟨before.length, ⟨hne, hall⟩, after, ?_⟩
    rw [List.append_assoc before, List.drop_left]
    rfl

theorem StandsAt.exists_append {template name : Text} {i : Nat} (h : StandsAt template i name) :
    ∃ before after, template = before ++ ((Piece.placeholder name).source ++ after) ∧
      before.length = i := by
  obtain ⟨-, after, hafter⟩ := h
  have hi : i ≤ template.length := by
    by_contra hlt
    rw [List.drop_eq_nil_of_le (Nat.le_of_not_le hlt)] at hafter
    simp [Piece.source] at hafter
  refine ⟨template.take i, after, ?_, List.length_take_of_le hi⟩
  rw [hafter, List.take_append_drop]

theorem nameAt?_append (front rest : Text) (i : Nat) :
    nameAt? (front ++ rest) (front.length + i) = nameAt? rest i := by
  rw [nameAt?, List.drop_length_add_append, nameAt?]

theorem standsAt_append {front rest name : Text} {i : Nat} :
    StandsAt (front ++ rest) (front.length + i) name ↔ StandsAt rest i name := by
  rw [← nameAt?_eq_some, nameAt?_append, nameAt?_eq_some]

theorem leadingName?_source {name : Text} (h : IsName name) (rest : Text) :
    leadingName? ((Piece.placeholder name).source ++ rest) = some name :=
  leadingName?_eq_some.mpr ⟨h, List.prefix_append _ _⟩

/-- Inside a placeholder no other one stands. -/
theorem nameAt?_inside {name : Text} (h : IsName name) (rest : Text) {i : Nat} (hpos : 0 < i)
    (hi : i < name.length + 2) : nameAt? ((Piece.placeholder name).source ++ rest) i = none := by
  obtain ⟨k, rfl⟩ := Nat.exists_eq_add_one_of_ne_zero hpos.ne'
  have hk : k < (name ++ ['}']).length := by
    rw [List.length_append, List.length_singleton]
    omega
  have hchar : (name ++ ['}'])[k] ≠ '{' := fun heq => h.open_not_mem (heq ▸ List.getElem_mem hk)
  have hdrop : ((Piece.placeholder name).source ++ rest).drop (k + 1) =
      (name ++ ['}'])[k] :: ((name ++ ['}']).drop (k + 1) ++ rest) := by
    rw [Piece.source, List.cons_append, List.cons_append, List.drop_succ_cons,
      List.drop_append_of_le_length hk.le, ← List.getElem_cons_drop hk, List.cons_append]
  rw [nameAt?, hdrop, leadingName?, if_neg hchar]

/-- Placeholders do not overlap. -/
theorem StandsAt.add_le {template name other : Text} {i j : Nat} (h : StandsAt template i name)
    (hother : StandsAt template j other) (hij : i < j) : i + name.length + 2 ≤ j := by
  by_contra hlt
  obtain ⟨before, after, rfl, rfl⟩ := h.exists_append
  obtain ⟨k, rfl⟩ := Nat.exists_eq_add_of_lt hij
  have hinside := nameAt?_inside h.1 after (i := k + 1) (by omega) (by omega)
  rw [Nat.add_assoc, ← nameAt?_eq_some, nameAt?_append, hinside] at hother
  cases hother

/-- A template is empty, or it starts with a character that is copied or with a placeholder. -/
theorem induct_placeholders {motive : Text → Prop} (nil : motive [])
    (plain : ∀ c rest, leadingName? (c :: rest) = none → motive rest → motive (c :: rest))
    (placeholder : ∀ name rest, IsName name → motive rest →
      motive ((Piece.placeholder name).source ++ rest)) (template : Text) : motive template := by
  -- a placeholder is taken off at once, so the induction is on the length
  induction hlength : template.length using Nat.strong_induction_on generalizing template with
  | _ n ih =>
    cases template with
    | nil => exact nil
    | cons c rest =>
      cases hname : leadingName? (c :: rest) with
      | none => exact plain c rest hname (ih rest.length (by simp at hlength; omega) rest rfl)
      | some name =>
        obtain ⟨h, after, hafter⟩ := leadingName?_eq_some.mp hname
        rw [← hafter, List.length_append, length_source] at hlength
        rw [← hafter]
        exact placeholder name after h (ih after.length (by omega) after rfl)

/-! ### Expansion part by part -/

theorem pieces_cons_plain {c : Char} {rest : Text} (h : leadingName? (c :: rest) = none) :
    pieces (c :: rest) = .plain c :: pieces rest := by
  rw [leadingName?] at h
  rw [pieces]
  by_cases hc : c = '{'
  · rw [if_pos hc] at h
    rw [if_pos hc, h]
  · rw [if_neg hc]

theorem pieces_source {name : Text} (h : IsName name) (rest : Text) :
    pieces ((Piece.placeholder name).source ++ rest) = .placeholder name :: pieces rest := by
  have hopened : openedName? (name ++ ['}'] ++ rest) = some name :=
    openedName?_eq_some_iff.mpr ⟨h, List.prefix_append _ _⟩
  obtain ⟨after, hafter, -, hpieces⟩ := pieces_opened hopened
  rw [List.append_assoc, List.singleton_append] at hafter
  obtain rfl := (List.cons.inj (List.append_cancel_left hafter)).2
  exact hpieces

theorem expand_of_pieces {template rest : Text} {piece : Piece}
    (h : pieces template = piece :: pieces rest) (family : Family) :
    expand family template = (do
      let first ← piece.expand family
      let others ← expand family rest
      return first ++ others) := by
  rw [expand, expand, Text.collect, Text.collect, h]
  cases hpiece : piece.expand family with
  | error e => rw [traverse_cons_error hpiece]; rfl
  | ok first => rw [traverse_cons_ok hpiece]; cases traverse (Piece.expand family) (pieces rest) <;> rfl

theorem expand_cons_plain {c : Char} {rest : Text} (h : leadingName? (c :: rest) = none)
    (family : Family) : expand family (c :: rest) = (expand family rest).map (c :: ·) := by
  rw [expand_of_pieces (pieces_cons_plain h)]
  cases expand family rest <;> rfl

/-- A text that ends before an opening brace starts with the same placeholder as without the brace. -/
theorem leadingName?_append_open {t : Text} (hne : t ≠ []) (rest : Text) :
    leadingName? (t ++ '{' :: rest) = leadingName? t := by
  obtain ⟨c, others, rfl⟩ := List.exists_cons_of_ne_nil hne
  refine Option.ext fun name => ?_
  rw [leadingName?_eq_some, leadingName?_eq_some]
  refine and_congr_right fun h => ?_
  rw [Piece.source, List.cons_append, List.cons_append, List.cons_prefix_cons, List.cons_prefix_cons,
    Text.prefix_append_cons_iff h.open_not_mem]

/-- What stands before a placeholder, its literal, and what stands after it are written one after the
other: the literal is read together with neither of them. -/
theorem expand_append_placeholder {name : Text} (h : IsName name) (family : Family)
    (before after : Text) :
    expand family (before ++ ((Piece.placeholder name).source ++ after)) = (do
      let first ← expand family before
      let literal ← (Piece.placeholder name).expand family
      let last ← expand family after
      return first ++ (literal ++ last)) := by
  induction before using induct_placeholders with
  | nil =>
    rw [List.nil_append, expand_of_pieces (pieces_source h after)]
    rfl
  | plain c rest hplain ih =>
    have hlater : leadingName? (c :: (rest ++ ((Piece.placeholder name).source ++ after))) = none := by
      rw [← hplain]
      exact leadingName?_append_open (List.cons_ne_nil c rest) _
    rw [List.cons_append, expand_cons_plain hlater, expand_cons_plain hplain, ih]
    cases expand family rest with
    | error e => rfl
    | ok first =>
      cases (Piece.placeholder name).expand family with
      | error e => rfl
      | ok literal => cases expand family after <;> rfl
  | placeholder opened rest hopened ih =>
    rw [List.append_assoc, expand_of_pieces (pieces_source hopened _),
      expand_of_pieces (pieces_source hopened rest), ih]
    cases (Piece.placeholder opened).expand family with
    | error e => rfl
    | ok written =>
      cases expand family rest with
      | error e => rfl
      | ok first =>
        cases (Piece.placeholder name).expand family with
        | error e => rfl
        | ok literal =>
          cases expand family after with
          | error e => rfl
          | ok last => simp [bind, Except.bind, pure, Except.pure]

/-! ### All placeholders at once -/

section Replace

variable {write : Text → Text}

theorem widthAt_eq {template name : Text} {i : Nat} (h : nameAt? template i = some name) :
    widthAt template i = name.length + 2 := by
  rw [widthAt, h]

theorem widthAt_eq_zero {template : Text} {i : Nat} (h : nameAt? template i = none) :
    widthAt template i = 0 := by
  rw [widthAt, h]

theorem widthAt_append (front rest : Text) (i : Nat) :
    widthAt (front ++ rest) (front.length + i) = widthAt rest i := by
  rw [widthAt, nameAt?_append, widthAt]

/-- Behind a front that no placeholder reaches out of, positions are written as those of the rest. -/
theorem writtenAt_append {front rest : Text}
    (hclosed : ∀ j < front.length, j + widthAt (front ++ rest) j ≤ front.length) (i : Nat) :
    writtenAt write (front ++ rest) (front.length + i) = writtenAt write rest i := by
  have hinside : (∃ j < front.length + i, front.length + i < j + widthAt (front ++ rest) j) ↔
      ∃ j < i, i < j + widthAt rest j := by
    constructor
    · rintro ⟨j, hj, hreach⟩
      by_cases hfront : j < front.length
      · have := hclosed j hfront
        omega
      · obtain ⟨k, rfl⟩ := Nat.exists_eq_add_of_le (Nat.le_of_not_lt hfront)
        rw [widthAt_append] at hreach
        exact ⟨k, by omega, by omega⟩
    · rintro ⟨k, hk, hreach⟩
      exact ⟨front.length + k, by omega, by rw [widthAt_append]; omega⟩
  rw [writtenAt, writtenAt, nameAt?_append, List.getElem?_append_right (Nat.le_add_right _ _),
    Nat.add_sub_cancel_left]
  simp only [hinside]

theorem replaced_append {front rest : Text}
    (hclosed : ∀ j < front.length, j + widthAt (front ++ rest) j ≤ front.length) :
    replaced write (front ++ rest) =
      (List.range front.length).flatMap (writtenAt write (front ++ rest)) ++ replaced write rest := by
  rw [replaced, List.length_append, List.range_add, List.flatMap_append, List.flatMap_map]
  simp only [writtenAt_append hclosed]
  rfl

theorem replaced_cons_plain {c : Char} {rest : Text} (h : leadingName? (c :: rest) = none) :
    replaced write (c :: rest) = c :: replaced write rest := by
  have hname : nameAt? (c :: rest) 0 = none := h
  have hclosed : ∀ j < [c].length, j + widthAt ([c] ++ rest) j ≤ [c].length := by
    intro j hj
    obtain rfl := Nat.lt_one_iff.mp hj
    rw [List.singleton_append, widthAt_eq_zero hname]
    exact Nat.zero_le _
  have hwritten : writtenAt write (c :: rest) 0 = [c] := by
    simp [writtenAt, hname]
  calc
    replaced write (c :: rest)
      = (List.range 1).flatMap (writtenAt write (c :: rest)) ++ replaced write rest :=
        replaced_append hclosed
    _ = c :: replaced write rest := by
        rw [List.range_one, List.flatMap_singleton, hwritten, List.singleton_append]

theorem replaced_source {name : Text} (h : IsName name) (rest : Text) :
    replaced write ((Piece.placeholder name).source ++ rest) = write name ++ replaced write rest := by
  have hfirst : nameAt? ((Piece.placeholder name).source ++ rest) 0 = some name :=
    leadingName?_source h rest
  have hclosed : ∀ j < (Piece.placeholder name).source.length,
      j + widthAt ((Piece.placeholder name).source ++ rest) j ≤
        (Piece.placeholder name).source.length := by
    intro j hj
    rw [length_source] at hj ⊢
    cases j with
    | zero => rw [widthAt_eq hfirst, Nat.zero_add]
    | succ j =>
      rw [widthAt_eq_zero (nameAt?_inside h rest (Nat.succ_pos j) hj)]
      exact hj.le
  have hinside : ∀ j ∈ List.range (name.length + 1),
      writtenAt write ((Piece.placeholder name).source ++ rest) (j + 1) = [] := by
    intro j hj
    rw [List.mem_range] at hj
    rw [writtenAt, nameAt?_inside h rest (Nat.succ_pos j) (by omega)]
    refine if_pos ⟨0, Nat.succ_pos j, ?_⟩
    rw [widthAt_eq hfirst]
    omega
  have hwritten : writtenAt write ((Piece.placeholder name).source ++ rest) 0 = write name := by
    rw [writtenAt, hfirst]
  rw [replaced_append hclosed, length_source, List.range_succ_eq_map, List.flatMap_cons,
    List.flatMap_map, hwritten, List.flatMap_eq_nil_iff.mpr hinside, List.append_nil]

end Replace

theorem eq_literalOf_of_expand {family : Family} {name t : Text}
    (h : (Piece.placeholder name).expand family = .ok t) : t = Token.literalOf family name := by
  rw [Piece.expand] at h
  rw [Token.literalOf]
  cases htoken : Token.ofName? name with
  | none => simp [htoken] at h
  | some token => simpa [htoken, eq_comm] using h

/-- A template that can be expanded is written with all literals in place of their placeholders. -/
theorem eq_replaced_of_expand {family : Family} {template t : Text}
    (h : expand family template = .ok t) : t = replaced (Token.literalOf family) template := by
  induction template using induct_placeholders generalizing t with
  | nil => exact (Except.ok.inj h).symm
  | plain c rest hplain ih =>
    rw [expand_cons_plain hplain, map_eq_ok] at h
    obtain ⟨others, hothers, rfl⟩ := h
    rw [replaced_cons_plain hplain, ih hothers]
  | placeholder name rest hname ih =>
    simp only [expand_of_pieces (pieces_source hname rest), bind_eq_ok, pure_eq_ok] at h
    obtain ⟨literal, hliteral, others, hothers, rfl⟩ := h
    rw [replaced_source hname, eq_literalOf_of_expand hliteral, ih hothers]

/-! ### Templates that stand for themselves -/

theorem open_not_mem_expand_placeholder {family : Family} {name t : Text}
    (h : (Piece.placeholder name).expand family = .ok t) : '{' ∉ t := by
  rw [eq_literalOf_of_expand h, Token.literalOf]
  cases Token.ofName? name with
  | none => simp
  | some token => exact token.open_not_mem_literal family

/-- An expansion brings no opening braces. -/
theorem count_open_le {family : Family} {template t : Text} (h : expand family template = .ok t) :
    t.count '{' ≤ template.count '{' := by
  induction template using induct_placeholders generalizing t with
  | nil =>
    obtain rfl := Except.ok.inj h
    exact Nat.le_refl _
  | plain c rest hplain ih =>
    rw [expand_cons_plain hplain, map_eq_ok] at h
    obtain ⟨others, hothers, rfl⟩ := h
    rw [List.count_cons, List.count_cons]
    exact Nat.add_le_add_right (ih hothers) _
  | placeholder name rest hname ih =>
    simp only [expand_of_pieces (pieces_source hname rest), bind_eq_ok, pure_eq_ok] at h
    obtain ⟨literal, hliteral, others, hothers, rfl⟩ := h
    rw [List.count_append, List.count_append,
      List.count_eq_zero.mpr (open_not_mem_expand_placeholder hliteral), Nat.zero_add]
    exact (ih hothers).trans (Nat.le_add_left _ _)

/-- A placeholder takes its opening brace along, so a template with placeholders changes. -/
theorem ne_of_standsAt {family : Family} {template t name : Text} {i : Nat}
    (hstands : StandsAt template i name) (h : expand family template = .ok t) : t ≠ template := by
  obtain ⟨before, after, rfl, -⟩ := hstands.exists_append
  simp only [expand_append_placeholder hstands.1, bind_eq_ok, pure_eq_ok] at h
  obtain ⟨first, hfirst, literal, hliteral, last, hlast, rfl⟩ := h
  have hopen : 1 ≤ (Piece.placeholder name).source.count '{' :=
    List.count_pos_iff.mpr (by simp [Piece.source])
  have hnone := List.count_eq_zero.mpr (open_not_mem_expand_placeholder hliteral)
  have hbefore := count_open_le hfirst
  have hafter := count_open_le hlast
  intro heq
  have hcount := congrArg (List.count '{') heq
  simp only [List.count_append] at hcount
  omega

theorem expand_eq_self_of_forall {family : Family} {template : Text}
    (h : ∀ i name, ¬StandsAt template i name) : expand family template = .ok template := by
  induction template using induct_placeholders with
  | nil => rfl
  | plain c rest hplain ih =>
    have hrest : ∀ i name, ¬StandsAt rest i name := fun i name hstands =>
      h (1 + i) name ((@standsAt_append [c] rest name i).mpr hstands)
    rw [expand_cons_plain hplain, ih hrest]
    rfl
  | placeholder name rest hname ih =>
    have hfirst : nameAt? ((Piece.placeholder name).source ++ rest) 0 = some name :=
      leadingName?_source hname rest
    exact absurd (nameAt?_eq_some.mp hfirst) (h 0 name)

/-! ### The leftmost failure -/

theorem expand_placeholder_eq_error {family : Family} {name : Text}
    (h : ¬∃ token : Token, token.name = name) :
    (Piece.placeholder name).expand family = .error (.unresolvedToken name family) := by
  rw [Piece.expand]
  cases htoken : Token.ofName? name with
  | none => rfl
  | some token => exact absurd ⟨token, by simpa using List.find?_some htoken⟩ h

/-- Whether a placeholder at a position names no token, and all further left do. -/
def IsFirstUnknown (template : Text) (position : Nat) (name : Text) : Prop :=
  StandsAt template position name ∧ (¬∃ token : Token, token.name = name) ∧
    ∀ start < position, ∀ other, StandsAt template start other → ∃ token : Token, token.name = other

theorem IsFirstUnknown.expand_eq_error {template name : Text} {i : Nat}
    (h : IsFirstUnknown template i name) (family : Family) :
    expand family template = .error (.unresolvedToken name family) := by
  obtain ⟨hstands, hunknown, hleft⟩ := h
  obtain ⟨before, after, rfl, rfl⟩ := hstands.exists_append
  have hbefore : IsKnown before := by
    intro other hother
    obtain ⟨j, hj⟩ := exists_standsAt_iff.mpr hother
    obtain ⟨more, rest, rfl, rfl⟩ := hj.exists_append
    refine hleft more.length ?_ other ⟨hj.1, ?_⟩
    · rw [List.length_append, List.length_append, length_source]
      omega
    · rw [List.append_assoc, List.append_assoc, List.drop_left]
      exact List.prefix_append _ _
  obtain ⟨first, hfirst⟩ := exists_expand_eq_ok.mpr hbefore
  rw [expand_append_placeholder hstands.1, hfirst, expand_placeholder_eq_error hunknown]
  rfl

theorem exists_isFirstUnknown {template : Text}
    (h : ¬∀ i name, StandsAt template i name → ∃ token : Token, token.name = name) :
    ∃ i name, IsFirstUnknown template i name := by
  classical
  have hsome : ∃ i name, StandsAt template i name ∧ ¬∃ token : Token, token.name = name := by
    simpa only [not_forall, exists_prop] using h
  obtain ⟨name, hstands, hunknown⟩ := Nat.find_spec hsome
  refine ⟨Nat.find hsome, name, hstands, hunknown, fun start hstart other hother => ?_⟩
  by_contra hnone
  exact Nat.find_min hsome hstart ⟨other, hother, hnone⟩

theorem isName_name (token : Token) : IsName token.name := by
  cases token <;> exact ⟨by decide, List.all_eq_true.mp (by decide)⟩

/-- Placeholders do not overlap. A template whose placeholders all name tokens expands to the template
with the literals in place of all of them at once; any other fails with the leftmost placeholder that
names none. Only a template without placeholders stands for itself, and no literal is read again, with
what stands around it or by itself. -/
theorem expand_of_positions (family : Family) (template : Text) :
    (∀ i j name other, StandsAt template i name → StandsAt template j other → i < j →
      i + (Piece.placeholder name).source.length ≤ j) ∧
    (∀ t, expand family template = .ok t ↔
      (∀ i name, StandsAt template i name → ∃ token : Token, token.name = name) ∧
        t = replaced (Token.literalOf family) template) ∧
    (∀ e, expand family template = .error e ↔
      ∃ i name, IsFirstUnknown template i name ∧ e = .unresolvedToken name family) ∧
    (expand family template = .ok template ↔ ∀ i name, ¬StandsAt template i name) ∧
    ∀ (token : Token) (before after : Text),
      expand family (before ++ (token.placeholder ++ after)) = (do
        let first ← expand family before
        let last ← expand family after
        return first ++ (token.literal family ++ last)) := by
  have hknown : (∀ i name, StandsAt template i name → ∃ token : Token, token.name = name) ↔
      IsKnown template := by
    simp only [IsKnown, ← exists_standsAt_iff, forall_exists_index]
    exact forall_comm
  refine ⟨fun i j name other hi hj hij => ?_, fun t => ?_, fun e => ?_, ⟨fun h i name hstands => ?_, ?_⟩,
    fun token before after => ?_⟩
  · rw [length_source]
    exact hi.add_le hj hij
  · rw [hknown, ← @exists_expand_eq_ok family]
    constructor
    · exact fun h => ⟨⟨t, h⟩, eq_replaced_of_expand h⟩
    · rintro ⟨⟨written, hwritten⟩, rfl⟩
      rw [hwritten, eq_replaced_of_expand hwritten]
  · constructor
    · intro h
      have hunknown : ¬IsKnown template := fun hall => by
        obtain ⟨t, ht⟩ := exists_expand_eq_ok.mpr hall
        rw [ht] at h
        cases h
      obtain ⟨i, name, hfirst⟩ := exists_isFirstUnknown (mt hknown.mp hunknown)
      rw [hfirst.expand_eq_error] at h
      exact ⟨i, name, hfirst, (Except.error.inj h).symm⟩
    · rintro ⟨i, name, hfirst, rfl⟩
      exact hfirst.expand_eq_error family
  · exact ne_of_standsAt hstands h rfl
  · exact expand_eq_self_of_forall
  · have hliteral : (Piece.placeholder token.name).expand family = .ok (token.literal family) := by
      rw [Piece.expand, Token.ofName?_name]
    exact (expand_append_placeholder (isName_name token) family before after).trans
      (by rw [hliteral]; rfl)

example : expand .unix "{{sh}}" = .ok "{sh}" := by decide

end Template

end DualShell
