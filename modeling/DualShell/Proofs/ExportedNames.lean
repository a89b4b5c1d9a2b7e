import DualShell.Proofs.Environments

/-!
The names that keys are exported under. A key without lower-case letters is its own name. Any other is
put into upper case, with an underscore wherever a capital follows a lower-case letter or a digit. A name
has no lower-case letters, so it is not changed again, and it tells keys apart up to underscores and case.
-/

namespace DualShell.Variable

/-- Whether a capital that follows a lower-case letter or a digit stands at a position of the key. -/
def beginsWord (key : Text) (position : Nat) : Bool :=
  position != 0 && key[position - 1]?.any (fun c => c.isLower || c.isDigit) &&
    key[position]?.any Char.isUpper

/-- What is written for the character at a position: the character in upper case, after an underscore
where a word begins. -/
def snakeAt (key : Text) (position : Nat) : Text :=
  (if beginsWord key position then ['_'] else []) ++ (Text.upper key)[position]?.toList

/-- What is left of a key when underscores and case do not count. -/
def folded (key : Text) : Text := Text.upper (key.filter (· ≠ '_'))

theorem endsWord_eq (before : Option Char) :
    endsWord before = before.any fun c => c.isLower || c.isDigit := by
  cases before <;> rfl

/-- The character to the left of a position, where `before` stands to the left of the key. -/
def leftOf (before : Option Char) (key : Text) : Nat → Option Char
  | 0 => before
  | position + 1 => key[position]?

theorem upperSnake_eq_flatMap (before : Option Char) (key : Text) :
    upperSnake before key = (List.range key.length).flatMap fun position =>
      (if endsWord (leftOf before key position) && key[position]?.any Char.isUpper then ['_'] else []) ++
        (Text.upper key)[position]?.toList := by
  induction key generalizing before with
  | nil => rfl
  | cons c rest ih =>
    have hleft : ∀ position, leftOf before (c :: rest) (position + 1) = leftOf (some c) rest position := by
      intro position
      cases position <;> rfl
    have hwritten : upperSnake before (c :: rest) =
        ((if endsWord before && c.isUpper then ['_'] else []) ++ [c.toUpper]) ++
          upperSnake (some c) rest := by
      rw [upperSnake, Bool.and_comm]
      split
      · next hword =>
        have hupper : c.toUpper = c :=
          Text.toUpper_eq_self (Text.isLower_eq_false_of_isUpper (Bool.and_eq_true_iff.mp hword).2)
        rw [hupper]
        rfl
      · rfl
    rw [hwritten, ih, List.length_cons, List.range_succ_eq_map, List.flatMap_cons, List.flatMap_map]
    simp only [hleft]
    rfl

theorem upperSnake_eq_flatMap_snakeAt (key : Text) :
    upperSnake none key = (List.range key.length).flatMap (snakeAt key) := by
  rw [upperSnake_eq_flatMap]
  refine List.flatMap_congr fun position _ => ?_
  rw [snakeAt, beginsWord, endsWord_eq]
  cases position <;> rfl

theorem isLower_of_mem_exportedName {key : Text} : ∀ c ∈ exportedName key, c.isLower = false := by
  intro c hc
  rw [← Environment.upper_exportedName] at hc
  obtain ⟨d, -, rfl⟩ := List.mem_map.mp hc
  exact Text.isLower_toUpper d

theorem exportedName_of_forall_isLower {key : Text} (h : ∀ c ∈ key, c.isLower = false) :
    exportedName key = key := by
  refine if_neg ?_
  rw [List.any_eq_true]
  rintro ⟨c, hc, hlower⟩
  exact Bool.false_ne_true ((h c hc).symm.trans hlower)

theorem exportedName_of_isLower {key : Text} (h : ∃ c ∈ key, c.isLower = true) :
    exportedName key = upperSnake none key :=
  if_pos (List.any_eq_true.mpr h)

theorem toUpper_eq_underscore_iff {c : Char} : c.toUpper = '_' ↔ c = '_' := by
  constructor
  · intro h
    by_contra hne
    exact Text.toUpper_ne (by decide) hne h
  · rintro rfl
    decide

theorem filter_upperSnake (before : Option Char) (key : Text) :
    (upperSnake before key).filter (· ≠ '_') = folded key := by
  induction key generalizing before with
  | nil => rfl
  | cons c rest ih =>
    have hrest : (c.toUpper :: upperSnake (some c) rest).filter (· ≠ '_') = folded (c :: rest) := by
      by_cases hc : c = '_'
      · subst hc
        exact ih (some '_')
      · have hupper : c.toUpper ≠ '_' := mt toUpper_eq_underscore_iff.mp hc
        rw [List.filter_cons_of_pos (by simpa using hupper), ih, folded, folded,
          List.filter_cons_of_pos (by simpa using hc)]
        rfl
    rw [upperSnake]
    split
    · next hword =>
      have hupper : c.toUpper = c :=
        Text.toUpper_eq_self (Text.isLower_eq_false_of_isUpper (Bool.and_eq_true_iff.mp hword).1)
      rw [List.filter_cons_of_neg (by decide), ← hrest, hupper]
    · exact hrest

theorem filter_exportedName (key : Text) : (exportedName key).filter (· ≠ '_') = folded key := by
  rw [exportedName]
  split
  · exact filter_upperSnake none key
  · next hlower =>
    rw [List.any_eq_true, not_exists] at hlower
    refine (Text.upper_eq_self fun c hc => ?_).symm
    simpa [List.mem_of_mem_filter hc] using hlower c

/-- The name of a key has no lower-case letters and is its own name. A key without lower-case letters is
its own name; that of any other is the key in upper case, with one underscore before each capital that
follows a lower-case letter or a digit, and none elsewhere. Keys with one name are the same up to
underscores and case. -/
theorem exportedName_normalises (key : Text) :
    (∀ c ∈ exportedName key, c.isLower = false) ∧
    exportedName (exportedName key) = exportedName key ∧
    ((∀ c ∈ key, c.isLower = false) → exportedName key = key) ∧
    ((∃ c ∈ key, c.isLower = true) →
      exportedName key = (List.range key.length).flatMap (snakeAt key)) ∧
    ∀ other, exportedName key = exportedName other → folded key = folded other := by
  refine ⟨isLower_of_mem_exportedName, exportedName_of_forall_isLower isLower_of_mem_exportedName,
    exportedName_of_forall_isLower, fun hlower => ?_, fun other hsame => ?_⟩
  · rw [exportedName_of_isLower hlower, upperSnake_eq_flatMap_snakeAt]
  · rw [← filter_exportedName, hsame, filter_exportedName]

/-- A digit ends a word, and an underscore does not. -/
example : exportedName "log2Dir_A" = "LOG2_DIR_A" := by decide

end DualShell.Variable
