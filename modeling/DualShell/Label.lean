import DualShell.Text

/-!
Labels are the identifiers under which functions are defined and called. Every name has a label,
labels are compared without regard to case because the Windows interpreter does so, and some labels
belong to the scripts' own frame.
-/

namespace DualShell.Label

/-- The character itself where identifiers hold it, else an underscore. -/
def identifierChar (c : Char) : Char := if isWordChar c then c else '_'

/-- The name with every other character turned into an underscore, and an underscore in front where
no identifier starts. -/
def ofName (name : Text) : Text :=
  match name.map identifierChar with
  | [] => ['_']
  | c :: rest => if c.isDigit then '_' :: c :: rest else c :: rest

/-- Whether two names have the same label but for ASCII case. -/
def same (a b : Text) : Bool := (ofName a).upper = (ofName b).upper

/-- Where a dispatch table ends. -/
def endSwitch : Text := "END_SWITCH"

/-- Where the section of function definitions ends. -/
def functionEnd : Text := "FUNCTION_END"

/-- The subroutine around a body whose exit status is captured. -/
def capturedBody : Text := "CAPTURED_BODY"

/-- What the labels of dispatch arms start with. -/
def armStem : Text := "CASE_"

def arm (index : Nat) : Text := armStem ++ Text.ofNat index

/-- Whether a name has a label that a Windows script writes for itself, but for ASCII case. -/
def isInternal (name : Text) : Bool :=
  let label := (ofName name).upper
  [endSwitch, functionEnd, capturedBody].contains label ||
    (armStem.isPrefixOf label && Text.isNumeral (label.drop armStem.length))

/-- An identifier: word characters only, at least one of them, and no digit in front. -/
def IsIdentifier (t : Text) : Prop :=
  (∀ c ∈ t, isWordChar c = true) ∧ ∃ c rest, t = c :: rest ∧ c.isDigit = false

/-- What is no word character stands in no identifier. -/
theorem IsIdentifier.notMem {t : Text} {c : Char} (h : IsIdentifier t) (hc : isWordChar c = false) :
    c ∉ t :=
  fun hmem => Bool.false_ne_true (hc.symm.trans (h.1 c hmem))

/-- A text without word characters has no character in common with an identifier. -/
theorem IsIdentifier.notMem_of_mem {t others : Text} {c : Char} (h : IsIdentifier t)
    (hothers : others.all (fun d => !isWordChar d) = true) (hc : c ∈ others) : c ∉ t := by
  have hother : (!isWordChar c) = true := List.all_eq_true.mp hothers c hc
  exact h.notMem (by simpa using hother)

theorem isWordChar_identifierChar (c : Char) : isWordChar (identifierChar c) = true := by
  by_cases h : isWordChar c = true
  · simp [identifierChar, h]
  · rw [identifierChar, if_neg h]
    decide

theorem isIdentifier_ofName (name : Text) : IsIdentifier (ofName name) := by
  have hword : ∀ c ∈ name.map identifierChar, isWordChar c = true := by
    intro c hc
    obtain ⟨d, -, rfl⟩ := List.mem_map.mp hc
    exact isWordChar_identifierChar d
  have hunderscore : isWordChar '_' = true := by decide
  rw [ofName]
  split
  · exact ⟨by simpa using hunderscore, '_', [], rfl, by decide⟩
  · next c rest hmap =>
    rw [hmap] at hword
    split
    · refine ⟨?_, '_', c :: rest, rfl, by decide⟩
      intro d hd
      rcases List.mem_cons.mp hd with rfl | hd
      · exact hunderscore
      · exact hword d hd
    · next hc => exact ⟨hword, c, rest, rfl, by simpa using hc⟩

theorem ofName_eq_self {t : Text} (h : IsIdentifier t) : ofName t = t := by
  obtain ⟨hword, c, rest, rfl, hc⟩ := h
  have hmap : (c :: rest).map identifierChar = (c :: rest).map id := by
    apply List.map_congr_left
    intro d hd
    simp [identifierChar, hword d hd]
  rw [List.map_id] at hmap
  simp [ofName, hmap, hc]

end DualShell.Label
