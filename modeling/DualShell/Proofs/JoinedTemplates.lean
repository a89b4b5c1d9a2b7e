import DualShell.Proofs.Expansion
import DualShell.Statement.Render

/-!
Templates one after the other. Unless a placeholder starts in the first and ends in the second, they
expand together to what they expand to one by one, and the first of them that cannot be expanded is the
failure. A line that ends with a placeholder is closed in this sense whatever it holds, so portable lines
can be written as one template, and lists of them can be cut anywhere.
-/

namespace DualShell

namespace Template

/-- Whether a placeholder starts in the first text and ends in the second when the one follows the
other. -/
def Straddles (a b : Text) : Prop :=
  ∃ name front back, IsName name ∧ (Piece.placeholder name).source = front ++ back ∧
    front ≠ [] ∧ back ≠ [] ∧ front <:+ a ∧ back <+: b

variable {a b : Text}

theorem Straddles.prepend (h : Straddles a b) (before : Text) : Straddles (before ++ a) b := by
  obtain ⟨name, front, back, hname, hsource, hfront, hback, hends, hstarts⟩ := h
  exact ⟨name, front, back, hname, hsource, hfront, hback,
    hends.trans (List.suffix_append before a), hstarts⟩

/-- A text starts with the same placeholder whatever follows, unless this one ends in what follows. -/
theorem leadingName?_append (hne : a ≠ []) (h : ¬Straddles a b) :
    leadingName? (a ++ b) = leadingName? a := by
  refine Option.ext fun name => ?_
  rw [leadingName?_eq_some, leadingName?_eq_some]
  refine and_congr_right fun hname => ⟨fun hstarts => ?_, fun hstarts => ?_⟩
  · obtain hwithin | ⟨back, hback⟩ :=
      List.prefix_or_prefix_of_prefix hstarts (List.prefix_append a b)
    · exact hwithin
    · by_cases hnil : back = []
      · rw [← hback, hnil, List.append_nil]
      · rw [← hback] at hstarts
        have hrest := (List.prefix_append_right_inj a).mp hstarts
        exact absurd ⟨name, a, back, hname, hback.symm, hne, hnil, List.suffix_rfl, hrest⟩ h
  · exact hstarts.trans (List.prefix_append a b)

/-- What follows goes on with a name or with the closing brace. -/
theorem not_straddles_cons {c : Char} (hname : c.isAlphanum = false) (hclose : c ≠ '}') :
    ¬Straddles a (c :: b) := by
  rintro ⟨name, front, back, hisName, hsource, hfront, hback, -, hstarts⟩
  obtain ⟨first, others, rfl⟩ := List.exists_cons_of_ne_nil hfront
  obtain ⟨d, more, rfl⟩ := List.exists_cons_of_ne_nil hback
  obtain rfl := (List.cons_prefix_cons.mp hstarts).1
  have hmem : d ∈ name ++ ['}'] := by
    rw [Piece.source, List.cons_append, List.cons_append, List.cons.injEq] at hsource
    rw [hsource.2]
    exact List.mem_append_right others List.mem_cons_self
  obtain hmem | hmem := List.mem_append.mp hmem
  · rw [hisName.2 d hmem] at hname
    cases hname
  · exact hclose (List.mem_singleton.mp hmem)

/-- A text that ends with a closing brace is closed. -/
theorem not_straddles_of_getLast? (h : a.getLast? = some '}') : ¬Straddles a b := by
  rintro ⟨name, front, back, hisName, hsource, hfront, hback, ⟨before, rfl⟩, -⟩
  have hmem : '}' ∈ front := by
    rw [List.getLast?_append_of_ne_nil before hfront] at h
    exact List.mem_of_getLast? h
  -- the last character of a placeholder is its only closing brace, and the second text has it
  have hopened : '{' :: name = front ++ back.dropLast := by
    rw [← List.dropLast_append_of_ne_nil hback, ← hsource, Piece.source, List.dropLast_concat]
  have hopen : '}' ∈ '{' :: name := hopened ▸ List.mem_append_left _ hmem
  obtain heq | hmem := List.mem_cons.mp hopen
  · exact absurd heq (by decide)
  · exact absurd (hisName.2 _ hmem) (by decide)

/-- Templates that no placeholder straddles are expanded one after the other. -/
theorem expand_append_of_not_straddles (family : Family) (h : ¬Straddles a b) :
    expand family (a ++ b) = (do
      let first ← expand family a
      let second ← expand family b
      return first ++ second) := by
  induction a using induct_placeholders with
  | nil =>
    rw [List.nil_append]
    cases expand family b <;> rfl
  | plain c rest hplain ih =>
    have hrest : ¬Straddles rest b := fun hstraddles => h (hstraddles.prepend [c])
    have hlater : leadingName? (c :: (rest ++ b)) = none := by
      rw [← hplain]
      exact leadingName?_append (List.cons_ne_nil c rest) h
    rw [List.cons_append, expand_cons_plain hlater, expand_cons_plain hplain, ih hrest]
    cases expand family rest with
    | error e => rfl
    | ok first => cases expand family b <;> rfl
  | placeholder name rest hname ih =>
    have hrest : ¬Straddles rest b := fun hstraddles => h (hstraddles.prepend _)
    rw [List.append_assoc, expand_of_pieces (pieces_source hname _),
      expand_of_pieces (pieces_source hname rest), ih hrest]
    cases (Piece.placeholder name).expand family with
    | error e => rfl
    | ok literal =>
      cases expand family rest with
      | error e => rfl
      | ok first =>
        cases expand family b with
        | error e => rfl
        | ok second => simp [bind, Except.bind, pure, Except.pure]

/-! ### Lines -/

/-- Lines as one template: each of them with a placeholder for the end of a line after it. -/
def ofLines (lines : List Text) : Text := lines.flatMap fun line => line ++ "{lf}"

theorem ofLines_append (xs ys : List Text) : ofLines (xs ++ ys) = ofLines xs ++ ofLines ys :=
  List.flatMap_append

theorem not_straddles_ofLines (lines : List Text) : ¬Straddles (ofLines lines) b := by
  obtain rfl | ⟨others, line, rfl⟩ := List.eq_nil_or_concat' lines
  · rintro ⟨_, front, _, -, -, hfront, -, hends, -⟩
    exact hfront (List.suffix_nil.mp hends)
  · refine not_straddles_of_getLast? ?_
    rw [ofLines_append, ofLines, ofLines, List.flatMap_singleton, List.getLast?_append,
      List.getLast?_append]
    rfl

theorem expand_lineFeed (family : Family) :
    (Piece.placeholder Token.lineFeed.name).expand family = .ok family.lineEnd := by
  cases family <;> decide

theorem expandLines_cons (family : Family) (line : Text) (rest : List Text) :
    expandLines family (line :: rest) = (do
      let first ← expand family line
      let others ← expandLines family rest
      return family.line first ++ others) := by
  rw [expandLines, expandLines, expandAll, expandAll]
  cases hline : expand family line with
  | error e => rw [traverse_cons_error hline]; rfl
  | ok first => rw [traverse_cons_ok hline]; cases traverse (expand family) rest <;> rfl

/-- Lines are expanded as the one template that they make up. -/
theorem expandLines_eq_expand (family : Family) (lines : List Text) :
    expandLines family lines = expand family (ofLines lines) := by
  induction lines with
  | nil => rfl
  | cons line rest ih =>
    have hsplit : ofLines (line :: rest) =
        line ++ ((Piece.placeholder Token.lineFeed.name).source ++ ofLines rest) := by
      rw [ofLines, List.flatMap_cons, List.append_assoc]
      rfl
    have hopen : ¬Straddles line ((Piece.placeholder Token.lineFeed.name).source ++ ofLines rest) :=
      not_straddles_cons (by decide) (by decide)
    rw [expandLines_cons, ih, hsplit, expand_append_of_not_straddles family hopen,
      expand_of_pieces (pieces_source (isName_name .lineFeed) _), expand_lineFeed]
    cases expand family line with
    | error e => rfl
    | ok first =>
      cases expand family (ofLines rest) with
      | error e => rfl
      | ok others => simp [bind, Except.bind, pure, Except.pure, Family.line]

/-- Unless a placeholder starts in one template and ends in the next, the two expand together to what they
expand to one after the other, and the first that cannot be expanded fails the whole. So portable lines
are written as the one template in which each is followed by the placeholder for the end of a line,
whatever a line ends with, and they can be given by several statements as well as by one. -/
theorem expand_joined (family : Family) :
    (∀ a b, ¬Straddles a b →
      expand family (a ++ b) = (do
        let first ← expand family a
        let second ← expand family b
        return first ++ second)) ∧
    (∀ lines, Statement.render family (.interpret lines) = expand family (ofLines lines)) ∧
    ∀ xs ys, Statement.render family (.interpret (xs ++ ys)) =
      Statement.render family (.list [.interpret xs, .interpret ys]) := by
  have hlines (lines : List Text) :
      Statement.render family (.interpret lines) = expand family (ofLines lines) :=
    expandLines_eq_expand family lines
  refine ⟨fun a b h => expand_append_of_not_straddles family h, hlines, fun xs ys => ?_⟩
  rw [hlines, ofLines_append, expand_append_of_not_straddles family (not_straddles_ofLines xs),
    Statement.render, Statement.renderItems, Statement.renderItems, Statement.renderItems, hlines,
    hlines]
  cases expand family (ofLines xs) with
  | error e => rfl
  | ok first =>
    cases expand family (ofLines ys) with
    | error e => rfl
    | ok second => simp [bind, Except.bind, pure, Except.pure]

/-- A brace opens in the first template and one closes in the second, but no name stands between them. -/
theorem expand_joined_brokenName :
    ¬Straddles "{fs}\x7bs" "-h\x7d{nope}" ∧
    expand .unix ("{fs}\x7bs" ++ "-h\x7d{nope}" : Text) = (do
      let first ← expand .unix "{fs}\x7bs"
      let second ← expand .unix "-h\x7d{nope}"
      return first ++ second) ∧
    expand .unix "{fs}\x7bs" = .ok "/\x7bs" ∧
    expand .unix "-h\x7d{nope}" = .error (.unresolvedToken "nope" .unix) := by
  have hbroken : ¬Straddles "{fs}\x7bs" "-h\x7d{nope}" :=
    not_straddles_cons (by decide) (by decide)
  exact ⟨hbroken, (expand_joined .unix).1 _ _ hbroken, by decide, by decide⟩

end Template

end DualShell
