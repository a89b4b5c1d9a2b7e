import DualShell.Proofs.LineEnds
import DualShell.Text.Split

/-!
How a POSIX shell takes a script apart: a command goes up to the first line feed that no quote and no
backslash protects, and each here document that it opens goes up to the first line that is nothing but
the end of a here document. Substitutions are read as the characters that they are written with.
-/

namespace DualShell

namespace Text

theorem split_cons_of_ne {separator c : Char} (h : c ≠ separator) (t : Text) :
    split separator (c :: t) =
      (c :: (split separator t).headD []) :: (split separator t).tail := by
  rw [split, if_neg h]
  cases split separator t <;> rfl

theorem split_append_cons (separator : Char) (s t : Text) :
    split separator (s ++ separator :: t) = split separator s ++ split separator t := by
  induction s with
  | nil => simp [split]
  | cons c rest ih =>
    by_cases hc : c = separator
    · subst hc
      simp [split, ih]
    · obtain ⟨line, others, hsplit⟩ := List.exists_cons_of_ne_nil (split_ne_nil separator rest)
      rw [List.cons_append, split_cons_of_ne hc, split_cons_of_ne hc, ih, hsplit]
      rfl

theorem split_of_not_mem {separator : Char} {s : Text} (h : separator ∉ s) :
    split separator s = [s] := by
  induction s with
  | nil => rfl
  | cons c rest ih =>
    obtain ⟨hc, hrest⟩ := not_or.mp (mt List.mem_cons.mpr h)
    rw [split_cons_of_ne (Ne.symm hc), ih hrest]
    rfl

theorem takeWhile_append_of_boundary {p : Char → Bool} {name rest : Text}
    (hname : ∀ c ∈ name, p c = true) (hrest : ∀ c ∈ rest.head?, p c = false) :
    (name ++ rest).takeWhile p = name := by
  rw [List.takeWhile_append_of_pos hname]
  cases rest with
  | nil => simp
  | cons c others => simp [hrest c rfl]

/-- A text is cut at its first separator in one way only. -/
theorem append_cons_injective {separator : Char} {s t u v : Text} (hs : separator ∉ s)
    (ht : separator ∉ t) (h : s ++ separator :: u = t ++ separator :: v) : s = t ∧ u = v := by
  have hsplit := congrArg (split separator) h
  rw [split_append_cons, split_append_cons, split_of_not_mem hs, split_of_not_mem ht] at hsplit
  obtain ⟨rfl, -⟩ := List.cons.inj hsplit
  exact ⟨rfl, (List.cons.inj (List.append_cancel_left h)).2⟩

end Text

namespace ShellReading

/-- Where a command is read with regard to quotes. -/
inductive QuoteState where
  | bare
  | escaped
  | single
  | double
  | doubleEscaped
  deriving DecidableEq

def QuoteState.next : QuoteState → Char → QuoteState
  | .bare, c =>
    if c = '\'' then .single else if c = '"' then .double else if c = '\\' then .escaped else .bare
  | .escaped, _ => .bare
  | .single, c => if c = '\'' then .bare else .single
  | .double, c => if c = '"' then .bare else if c = '\\' then .doubleEscaped else .double
  | .doubleEscaped, _ => .double

/-- The state at the end of a text, unless a bare line feed ends the command within it. -/
def scan : QuoteState → Text → Option QuoteState
  | state, [] => some state
  | state, c :: rest => if state = .bare ∧ c = '\n' then none else scan (state.next c) rest

/-- A command and the text after the line feed that ends it. -/
def readCommand : QuoteState → Text → Option (Text × Text)
  | _, [] => none
  | state, c :: rest =>
    if state = .bare ∧ c = '\n' then some ([], rest)
    else (readCommand (state.next c) rest).map fun read => (c :: read.1, read.2)

def documentOperator : Text := "<<'" ++ RunScript.documentEnd ++ "'"

/-- The number of here documents that a text opens outside quotes. -/
def opened : QuoteState → Text → Nat
  | _, [] => 0
  | state, c :: rest =>
    (if state = .bare ∧ documentOperator.isPrefixOf (c :: rest) then 1 else 0) +
      opened (state.next c) rest

/-- The line that ends a here document. -/
def closing : Text := Family.unix.line RunScript.documentEnd

/-- The content of a here document and the text after the line that ends it; `start` says whether a
line starts at the text. -/
def readDocument : Bool → Text → Option (Text × Text)
  | _, [] => none
  | start, c :: rest =>
    if start = true ∧ closing.isPrefixOf (c :: rest) then
      some ([], (c :: rest).drop closing.length)
    else (readDocument (c == '\n') rest).map fun read => (c :: read.1, read.2)

def readDocuments : Nat → Text → Option (List Text × Text)
  | 0, text => some ([], text)
  | count + 1, text => do
    let first ← readDocument true text
    let others ← readDocuments count first.2
    return (first.1 :: others.1, others.2)

/-- A command with the contents of the here documents that it opens. -/
structure Item where
  command : Text
  documents : List Text

/-- Whether a text is read as these commands, to its end. -/
inductive Reads : Text → List Item → Prop
  | done : Reads [] []
  | command {text rest after command : Text} {documents : List Text} {items : List Item} :
    readCommand .bare text = some (command, rest) →
    readDocuments (opened .bare command) rest = some (documents, after) →
    Reads after items → Reads text (⟨command, documents⟩ :: items)

theorem Reads.unique {text : Text} {items others : List Item} (h : Reads text items)
    (hother : Reads text others) : items = others := by
  induction h generalizing others with
  | done =>
    cases hother with
    | done => rfl
    | command hcommand => simp [readCommand] at hcommand
  | command hcommand hdocuments _ ih =>
    cases hother with
    | done => simp [readCommand] at hcommand
    | command hcommand' hdocuments' hrest' =>
      obtain ⟨rfl, rfl⟩ := Prod.mk.inj (Option.some.inj (hcommand.symm.trans hcommand'))
      obtain ⟨rfl, rfl⟩ := Prod.mk.inj (Option.some.inj (hdocuments.symm.trans hdocuments'))
      rw [ih hrest']

theorem readCommand_eq_some {state : QuoteState} {text command rest : Text} :
    readCommand state text = some (command, rest) ↔
      text = command ++ '\n' :: rest ∧ scan state command = some .bare := by
  induction text generalizing state command with
  | nil => simp [readCommand]
  | cons c others ih =>
    rw [readCommand]
    by_cases hend : state = .bare ∧ c = '\n'
    · obtain ⟨rfl, rfl⟩ := hend
      cases command with
      | nil => simp [scan, eq_comm]
      | cons d more =>
        simp only [true_and, if_true, Option.some.injEq, Prod.mk.injEq, List.nil_eq, reduceCtorEq,
          false_and, List.cons_append, List.cons.injEq, false_iff, not_and]
        rintro ⟨rfl, -⟩
        simp [scan]
    · rw [if_neg hend, Option.map_eq_some_iff]
      cases command with
      | nil =>
        simp only [Prod.mk.injEq, reduceCtorEq, false_and, and_false, exists_false, List.nil_append,
          List.cons.injEq, scan, Option.some.injEq, false_iff, not_and]
        rintro ⟨rfl, -⟩ rfl
        exact hend ⟨rfl, rfl⟩
      | cons d more =>
        simp only [Prod.exists, Prod.mk.injEq, List.cons.injEq, List.cons_append]
        constructor
        · rintro ⟨_, _, hread, ⟨rfl, rfl⟩, rfl⟩
          obtain ⟨rfl, hscan⟩ := ih.mp hread
          exact ⟨⟨rfl, rfl⟩, by rw [scan, if_neg hend, hscan]⟩
        · rintro ⟨⟨rfl, rfl⟩, hscan⟩
          rw [scan, if_neg hend] at hscan
          exact ⟨more, rest, ih.mpr ⟨rfl, hscan⟩, ⟨rfl, rfl⟩, rfl⟩

theorem readDocument_false {line : Text} (h : '\n' ∉ line) (rest : Text) :
    readDocument false (line ++ '\n' :: rest) =
      (readDocument true rest).map fun read => (line ++ '\n' :: read.1, read.2) := by
  induction line with
  | nil => simp [readDocument]
  | cons c others ih =>
    obtain ⟨hc, hothers⟩ := not_or.mp (mt List.mem_cons.mpr h)
    have hstart : (c == '\n') = false := by simpa using Ne.symm hc
    rw [List.cons_append, readDocument, if_neg (by simp), hstart, ih hothers, Option.map_map]
    rfl

theorem closing_eq : closing = RunScript.documentEnd ++ '\n' :: [] := rfl

theorem lf_not_mem_documentEnd : '\n' ∉ RunScript.documentEnd := by decide

theorem closing_isPrefixOf_iff {line : Text} (h : '\n' ∉ line) (rest : Text) :
    closing.isPrefixOf (line ++ '\n' :: rest) = true ↔ line = RunScript.documentEnd := by
  rw [List.isPrefixOf_iff_prefix, closing_eq]
  constructor
  · rintro ⟨others, hothers⟩
    rw [List.append_assoc] at hothers
    exact (Text.append_cons_injective lf_not_mem_documentEnd h hothers).1.symm
  · rintro rfl
    exact ⟨rest, by simp⟩

theorem readDocument_line {line : Text} (h : '\n' ∉ line) (rest : Text) :
    readDocument true (line ++ '\n' :: rest) =
      if line = RunScript.documentEnd then some ([], rest)
      else (readDocument true rest).map fun read => (line ++ '\n' :: read.1, read.2) := by
  have hstarts := closing_isPrefixOf_iff h rest
  by_cases hend : line = RunScript.documentEnd
  · rw [if_pos hend]
    have hopen := hstarts.mpr hend
    have hdrop : (line ++ '\n' :: rest).drop closing.length = rest := by
      rw [hend, List.append_cons]
      exact List.drop_left
    cases line with
    | nil => exact absurd hend (by decide)
    | cons c others =>
      rw [List.cons_append] at hopen hdrop ⊢
      rw [readDocument, if_pos ⟨rfl, hopen⟩, hdrop]
  · rw [if_neg hend]
    have hopen : ¬closing.isPrefixOf (line ++ '\n' :: rest) = true := mt hstarts.mp hend
    cases line with
    | nil =>
      rw [List.nil_append] at hopen ⊢
      rw [readDocument, if_neg (by simpa using hopen)]
      simp
    | cons c others =>
      obtain ⟨hc, hothers⟩ := not_or.mp (mt List.mem_cons.mpr h)
      have hstart : (c == '\n') = false := by simpa using Ne.symm hc
      rw [List.cons_append] at hopen ⊢
      rw [readDocument, if_neg (by simpa using hopen), hstart, readDocument_false hothers,
        Option.map_map]
      rfl

theorem readDocument_eq_none {text : Text} (h : '\n' ∉ text) (start : Bool) :
    readDocument start text = none := by
  induction text generalizing start with
  | nil => rfl
  | cons c rest ih =>
    have hopen : ¬closing.isPrefixOf (c :: rest) = true := by
      rw [List.isPrefixOf_iff_prefix]
      intro hstarts
      exact h (hstarts.subset (by decide))
    obtain ⟨-, hrest⟩ := not_or.mp (mt List.mem_cons.mpr h)
    rw [readDocument, if_neg (by simp [hopen]), ih hrest, Option.map_none]

/-- The content of a here document ends its last line and has no line that ends the document. -/
def IsContent (content : Text) : Prop :=
  Text.IsEnded content ∧ RunScript.documentEnd ∉ Text.split '\n' content

theorem isContent_line {line rest : Text} (h : '\n' ∉ line) :
    IsContent (line ++ '\n' :: rest) ↔ line ≠ RunScript.documentEnd ∧ IsContent rest := by
  have hended : Text.IsEnded (line ++ '\n' :: rest) ↔ Text.IsEnded rest := by
    rw [List.append_cons]
    exact ⟨Text.IsEnded.of_append, (Text.isEnded_line .unix line).append⟩
  rw [IsContent, IsContent, hended, Text.split_append_cons, Text.split_of_not_mem h,
    List.singleton_append, List.mem_cons, not_or]
  constructor
  · rintro ⟨hrest, hline, hlines⟩
    exact ⟨Ne.symm hline, hrest, hlines⟩
  · rintro ⟨hline, hrest, hlines⟩
    exact ⟨hrest, Ne.symm hline, hlines⟩

theorem isContent_nil : IsContent [] := by
  refine ⟨Or.inl rfl, ?_⟩
  decide

instance (content : Text) : Decidable (IsContent content) :=
  inferInstanceAs (Decidable ((_ ∨ _) ∧ _))

/-- The line that ends a document is not empty, so it is a line of one of two texts when it is a line
of the two together. -/
theorem isContent_append {s t : Text} (hs : Text.IsEnded s) :
    IsContent (s ++ t) ↔ IsContent s ∧ IsContent t := by
  by_cases hnil : s = []
  · simp [hnil, isContent_nil]
  · obtain ⟨lines, rfl⟩ := List.getLast?_eq_some_iff.mp (hs.resolve_left hnil)
    have hne : RunScript.documentEnd ≠ [] := by decide
    have hended : Text.IsEnded (lines ++ ['\n'] ++ t) ↔ Text.IsEnded t :=
      ⟨Text.IsEnded.of_append, hs.append⟩
    simp only [IsContent, hended, hs, true_and]
    rw [List.append_assoc, List.singleton_append, Text.split_append_cons, Text.split_append_cons,
      List.mem_append, List.mem_append]
    simp only [Text.split, List.mem_singleton, hne, or_false, not_or]
    constructor
    · rintro ⟨ht, hlines, hrest⟩
      exact ⟨hlines, ht, hrest⟩
    · rintro ⟨hlines, ht, hrest⟩
      exact ⟨ht, hlines, hrest⟩

theorem isContent_flatMap {α : Type} {items : List α} {write : α → Text}
    (h : ∀ a ∈ items, IsContent (write a)) : IsContent (items.flatMap write) := by
  induction items with
  | nil => exact isContent_nil
  | cons a rest ih =>
    obtain ⟨ha, hrest⟩ := List.forall_mem_cons.mp h
    exact (isContent_append ha.1).mpr ⟨ha, ih hrest⟩

theorem eq_nil_or_exists_of_append_closing {line rest content after : Text} (hline : '\n' ∉ line)
    (hended : Text.IsEnded content) (h : line ++ '\n' :: rest = content ++ closing ++ after) :
    (content = [] ∧ line = RunScript.documentEnd ∧ rest = after) ∨
      ∃ more, content = line ++ '\n' :: more ∧ rest = more ++ closing ++ after := by
  by_cases hne : content = []
  · subst hne
    rw [List.nil_append, closing_eq, List.append_assoc] at h
    exact Or.inl ⟨rfl, Text.append_cons_injective hline lf_not_mem_documentEnd h⟩
  · obtain ⟨first, more, hfirst, -, rfl⟩ := hended.exists_line hne
    rw [List.append_assoc, List.append_assoc, List.cons_append] at h
    obtain ⟨rfl, rfl⟩ := Text.append_cons_injective hline hfirst h
    exact Or.inr ⟨more, rfl, by rw [List.append_assoc]⟩

/-- A here document is read up to the first line that ends one. -/
theorem readDocument_eq_some {text content after : Text} :
    readDocument true text = some (content, after) ↔
      text = content ++ closing ++ after ∧ IsContent content := by
  -- by the lines of the text: the document ends at the first one, or that line belongs to its content
  induction hlength : text.length using Nat.strong_induction_on generalizing text content with
  | _ n ih =>
    by_cases hlf : '\n' ∈ text
    · obtain ⟨line, rest, rfl, hline⟩ := List.eq_append_cons_of_mem hlf
      have hrest {more : Text} : readDocument true rest = some (more, after) ↔
          rest = more ++ closing ++ after ∧ IsContent more :=
        ih rest.length (by simp at hlength; omega) rfl
      rw [readDocument_line hline]
      by_cases hend : line = RunScript.documentEnd
      · rw [if_pos hend]
        constructor
        · intro h
          obtain ⟨rfl, rfl⟩ := Prod.mk.inj (Option.some.inj h)
          exact ⟨by simp [hend, closing_eq], isContent_nil⟩
        · rintro ⟨htext, hcontent⟩
          rcases eq_nil_or_exists_of_append_closing hline hcontent.1 htext with
            ⟨rfl, -, rfl⟩ | ⟨more, rfl, -⟩
          · rfl
          · exact absurd hend ((isContent_line hline).mp hcontent).1
      · rw [if_neg hend, Option.map_eq_some_iff]
        constructor
        · rintro ⟨⟨more, _⟩, hread, heq⟩
          obtain ⟨rfl, rfl⟩ := Prod.mk.inj heq
          obtain ⟨rfl, hmore⟩ := hrest.mp hread
          exact ⟨by simp, (isContent_line hline).mpr ⟨hend, hmore⟩⟩
        · rintro ⟨htext, hcontent⟩
          rcases eq_nil_or_exists_of_append_closing hline hcontent.1 htext with
            ⟨-, hline', -⟩ | ⟨more, rfl, hmore⟩
          · exact absurd hline' hend
          · exact ⟨(more, after), hrest.mpr ⟨hmore, ((isContent_line hline).mp hcontent).2⟩, rfl⟩
    · rw [readDocument_eq_none hlf]
      constructor
      · simp
      · rintro ⟨rfl, -⟩
        simp [closing_eq] at hlf

theorem readDocuments_eq_some {count : Nat} {text after : Text} {documents : List Text} :
    readDocuments count text = some (documents, after) ↔
      documents.length = count ∧ text = documents.flatMap (· ++ closing) ++ after ∧
        ∀ content ∈ documents, IsContent content := by
  induction count generalizing text documents with
  | zero =>
    cases documents with
    | nil => simp [readDocuments, eq_comm]
    | cons first others => simp [readDocuments]
  | succ count ih =>
    simp only [readDocuments, bind, Option.bind_eq_some_iff, pure, Option.some.injEq, Prod.exists]
    cases documents with
    | nil => simp
    | cons first others =>
      rw [List.flatMap_cons, List.forall_mem_cons, List.length_cons, Nat.add_right_cancel_iff]
      constructor
      · rintro ⟨_, rest, hfirst, _, _, hothers, hpair⟩
        obtain ⟨hdocuments, rfl⟩ := Prod.mk.inj hpair
        obtain ⟨rfl, rfl⟩ := List.cons.inj hdocuments
        obtain ⟨rfl, hcontent⟩ := readDocument_eq_some.mp hfirst
        obtain ⟨hcount, rfl, hcontents⟩ := ih.mp hothers
        exact ⟨hcount, by simp, hcontent, hcontents⟩
      · rintro ⟨hcount, rfl, hcontent, hcontents⟩
        refine ⟨first, others.flatMap (· ++ closing) ++ after,
          readDocument_eq_some.mpr ⟨by simp, hcontent⟩, others, after, ?_, rfl⟩
        exact ih.mpr ⟨hcount, rfl, hcontents⟩

/-- Whether a text is a whole command that opens a number of here documents. -/
def IsCommand (documents : Nat) (command : Text) : Prop :=
  scan .bare command = some .bare ∧ opened .bare command = documents

instance (documents : Nat) (command : Text) : Decidable (IsCommand documents command) :=
  inferInstanceAs (Decidable (_ ∧ _))

def Item.source (item : Item) : Text :=
  Family.unix.line item.command ++ item.documents.flatMap (· ++ closing)

/-- Whether an item is read back: its command is a whole one that opens its documents, and these
end where they should. -/
def Item.IsReadable (item : Item) : Prop :=
  IsCommand item.documents.length item.command ∧ ∀ content ∈ item.documents, IsContent content

/-- Commands are read from the texts that they are read back from, and from no others. -/
theorem reads_iff {text : Text} {items : List Item} :
    Reads text items ↔ text = items.flatMap Item.source ∧ ∀ item ∈ items, item.IsReadable := by
  induction items generalizing text with
  | nil =>
    constructor
    · rintro ⟨⟩
      exact ⟨rfl, List.forall_mem_nil _⟩
    · rintro ⟨rfl, -⟩
      exact .done
  | cons item others ih =>
    rw [List.flatMap_cons, List.forall_mem_cons]
    constructor
    · intro h
      cases h with
      | command hcommand hdocuments hothers =>
        obtain ⟨rfl, hscan⟩ := readCommand_eq_some.mp hcommand
        obtain ⟨hopened, rfl, hcontents⟩ := readDocuments_eq_some.mp hdocuments
        obtain ⟨rfl, hreadable⟩ := ih.mp hothers
        exact ⟨by simp [Item.source, Family.line, Family.lineEnd],
          ⟨⟨hscan, hopened.symm⟩, hcontents⟩, hreadable⟩
    · rintro ⟨rfl, ⟨⟨hscan, hopened⟩, hcontents⟩, hreadable⟩
      refine .command (readCommand_eq_some.mpr ⟨?_, hscan⟩)
        (readDocuments_eq_some.mpr ⟨hopened.symm, rfl, hcontents⟩) (ih.mpr ⟨rfl, hreadable⟩)
      simp [Item.source, Family.line, Family.lineEnd]

/-! ### Whole commands -/

/-- Whether reading a text leads from one state to another and opens no here document on the way,
whatever follows. -/
def Moves (state reached : QuoteState) (t : Text) : Prop :=
  ∀ rest, scan state (t ++ rest) = scan reached rest ∧ opened state (t ++ rest) = opened reached rest

theorem Moves.append {state between reached : QuoteState} {s t : Text} (hs : Moves state between s)
    (ht : Moves between reached t) : Moves state reached (s ++ t) := by
  intro rest
  rw [List.append_assoc]
  exact ⟨(hs (t ++ rest)).1.trans (ht rest).1, (hs (t ++ rest)).2.trans (ht rest).2⟩

theorem Moves.isCommand {state : QuoteState} {s t : Text} {documents : Nat} (hs : Moves .bare state s)
    (hscan : scan state t = some .bare) (hopened : opened state t = documents) :
    IsCommand documents (s ++ t) :=
  ⟨(hs t).1.trans hscan, (hs t).2.trans hopened⟩

theorem Moves.cons {state reached : QuoteState} {c : Char} {t : Text}
    (hend : ¬(state = .bare ∧ c = '\n')) (hopen : state = .bare → c ≠ '<')
    (h : Moves (state.next c) reached t) : Moves state reached (c :: t) := by
  intro rest
  have hoperator : ¬(state = .bare ∧ documentOperator.isPrefixOf (c :: (t ++ rest)) = true) := by
    rintro ⟨hbare, hstarts⟩
    rw [List.isPrefixOf_iff_prefix] at hstarts
    exact hopen hbare (List.cons_prefix_cons.mp hstarts).1.symm
  rw [List.cons_append, scan, opened, if_neg hend, if_neg hoperator, Nat.zero_add]
  exact h rest

/-- A text without the character that starts the operator opens nothing. -/
theorem moves_of_scan {state reached : QuoteState} {t : Text} (hscan : scan state t = some reached)
    (hmem : '<' ∉ t) : Moves state reached t := by
  induction t generalizing state with
  | nil =>
    obtain rfl := Option.some.inj hscan
    exact fun rest => ⟨rfl, rfl⟩
  | cons c others ih =>
    obtain ⟨hc, hothers⟩ := not_or.mp (mt List.mem_cons.mpr hmem)
    rw [scan] at hscan
    split at hscan
    · simp at hscan
    · next hend => exact (ih hscan hothers).cons hend fun _ => Ne.symm hc

/-- Whether a text holds nothing that has a meaning between double quotes but references. -/
def IsPlain (t : Text) : Prop := ∀ c ∈ t, Quoting.isEscapedInDoubleQuotes c = false

instance (t : Text) : Decidable (IsPlain t) := List.decidableBAll _ t

theorem IsPlain.moves {t : Text} (h : IsPlain t) : Moves .double .double t := by
  induction t with
  | nil => exact fun rest => ⟨rfl, rfl⟩
  | cons c others ih =>
    obtain ⟨hc, hothers⟩ := List.forall_mem_cons.mp h
    have hnext : QuoteState.double.next c = .double := by
      simp only [Quoting.isEscapedInDoubleQuotes, Bool.or_eq_false_iff, beq_eq_false_iff_ne] at hc
      simp [QuoteState.next, hc]
    refine Moves.cons (by simp) (by simp) ?_
    rw [hnext]
    exact ih hothers

end ShellReading

end DualShell
