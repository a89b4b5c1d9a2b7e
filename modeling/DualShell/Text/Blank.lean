import DualShell.Text

/-!
White space in the sense of the Unicode property `White_Space`: trimming a text at both ends, and
texts that hold nothing else. Trimming leaves a text that neither starts nor ends with white space.
-/

namespace DualShell

/-- The characters with the Unicode property `White_Space`. -/
def whiteSpace : List Char :=
  ['\x09', '\x0a', '\x0b', '\x0c', '\x0d', '\x20', '\u0085', '\u00a0', '\u1680', '\u2000',
    '\u2001', '\u2002', '\u2003', '\u2004', '\u2005', '\u2006', '\u2007', '\u2008', '\u2009',
    '\u200a', '\u2028', '\u2029', '\u202f', '\u205f', '\u3000']

def isWhiteSpace (c : Char) : Bool := whiteSpace.contains c

namespace Text

/-- Nothing but white space, if anything. -/
def isBlank (t : Text) : Bool := t.all isWhiteSpace

def trimStart (t : Text) : Text := t.dropWhile isWhiteSpace

def trimEnd (t : Text) : Text := (t.reverse.dropWhile isWhiteSpace).reverse

def trim (t : Text) : Text := trimEnd (trimStart t)

theorem dropWhile_isWhiteSpace_eq_nil_iff {t : Text} :
    t.dropWhile isWhiteSpace = [] ↔ ∀ c ∈ t, isWhiteSpace c = true := by
  induction t with
  | nil => simp
  | cons c rest ih => by_cases hc : isWhiteSpace c = true <;> simp [hc, ih]

theorem trim_eq_nil_iff {t : Text} : trim t = [] ↔ isBlank t = true := by
  have hstart : trimStart t = [] ↔ isBlank t = true := by
    rw [trimStart, dropWhile_isWhiteSpace_eq_nil_iff, isBlank, List.all_eq_true]
  rw [← hstart]
  constructor
  · intro h
    have hall : ∀ c ∈ trimStart t, isWhiteSpace c = true := by
      simpa [trim, trimEnd, dropWhile_isWhiteSpace_eq_nil_iff] using h
    cases hs : trimStart t with
    | nil => rfl
    | cons c rest =>
      have hfirst := List.head?_dropWhile_not isWhiteSpace t
      have hc := hall c (by simp [hs])
      simp only [trimStart] at hs
      simp [hs, hc] at hfirst
  · intro h
    simp [trim, trimEnd, h]

end Text

end DualShell
