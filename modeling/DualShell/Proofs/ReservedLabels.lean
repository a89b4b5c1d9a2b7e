import DualShell.Dispatch
import DualShell.Scope.Registry
import Mathlib.Data.List.Nodup

/-!
The labels that scripts keep for themselves: those of the library functions, of the arms and the end
of a dispatch table, and of the places of a script's frame. They differ from each other whatever the
case, and a name is reserved exactly when its label is one of them.
-/

namespace DualShell

namespace Text

/-! ### The case of characters -/

theorem isLower_iff {c : Char} : c.isLower = true ↔ 'a'.val ≤ c.val ∧ c.val ≤ 'z'.val := by
  delta Char.isLower
  rw [Bool.and_eq_true, decide_eq_true_iff, decide_eq_true_iff, ge_iff_le]

theorem isUpper_iff {c : Char} : c.isUpper = true ↔ 'A'.val ≤ c.val ∧ c.val ≤ 'Z'.val := by
  delta Char.isUpper
  rw [decide_eq_true_iff, ge_iff_le]

theorem isLower_eq_false_of_isUpper {c : Char} (h : c.isUpper = true) : c.isLower = false := by
  rw [isUpper_iff] at h
  rw [← Bool.not_eq_true, isLower_iff]
  grind

theorem isLower_eq_false_of_isDigit {c : Char} (h : c.isDigit = true) : c.isLower = false := by
  simp only [Char.isDigit, Bool.and_eq_true, decide_eq_true_eq] at h
  rw [← Bool.not_eq_true, isLower_iff]
  grind

theorem toUpper_eq_self {c : Char} (h : c.isLower = false) : c.toUpper = c := by
  delta Char.toUpper
  exact dif_neg fun hlower => Bool.false_ne_true (h.symm.trans (isLower_iff.mpr hlower))

theorem isUpper_toUpper {c : Char} (h : c.isLower = true) : c.toUpper.isUpper = true := by
  have hval : c.toUpper.val = c.val + ('A'.val - 'a'.val) := by
    delta Char.toUpper
    rw [dif_pos (isLower_iff.mp h)]
  rw [isLower_iff] at h
  rw [isUpper_iff, hval]
  grind

theorem isLower_toUpper (c : Char) : c.toUpper.isLower = false := by
  cases hlower : c.isLower with
  | true => exact isLower_eq_false_of_isUpper (isUpper_toUpper hlower)
  | false => rw [toUpper_eq_self hlower, hlower]

/-- Only letters come of a change of case. -/
theorem toUpper_ne {c d : Char} (hd : d.isUpper = false) (h : c ≠ d) : c.toUpper ≠ d := by
  intro heq
  cases hlower : c.isLower with
  | true =>
    rw [← heq, isUpper_toUpper hlower] at hd
    exact Bool.false_ne_true hd.symm
  | false => exact h ((toUpper_eq_self hlower).symm.trans heq)

theorem upper_eq_self {t : Text} (h : ∀ c ∈ t, c.isLower = false) : upper t = t := by
  calc
    upper t = t.map id := List.map_congr_left fun c hc => toUpper_eq_self (h c hc)
    _ = t := List.map_id t

/-! ### Numerals -/

theorem upper_eq_self_of_isNumeral {digits : Text} (h : isNumeral digits = true) :
    upper digits = digits := by
  rw [isNumeral, Bool.and_eq_true, List.all_eq_true] at h
  exact upper_eq_self fun c hc => isLower_eq_false_of_isDigit (h.2 c hc)

theorem isNumeral_ofNat (n : Nat) : isNumeral (ofNat n) = true := by
  rw [isNumeral, ofNat, Bool.and_eq_true, List.all_eq_true]
  refine ⟨?_, fun c hc => Nat.isDigit_of_mem_toDigits (by decide) (by decide) hc⟩
  simp [Nat.toDigits_ne_nil]

theorem ofNat_injective {m n : Nat} (h : ofNat m = ofNat n) : m = n := by
  have hm := Nat.ofDigitChars_toDigits (b := 10) (n := m) (by decide) (by decide)
  have hn := Nat.ofDigitChars_toDigits (b := 10) (n := n) (by decide) (by decide)
  rw [← hm, ← hn]
  exact congrArg (Nat.ofDigitChars 10 · 0) h

end Text

namespace Label

/-- Whether a label is, but for case, one that a Windows script writes for itself. -/
def IsFrame (label : Text) : Prop :=
  label.upper ∈ [endSwitch, functionEnd, capturedBody] ∨
    ∃ digits, Text.isNumeral digits = true ∧ label.upper = armStem ++ digits

/-- Whether a label is, but for case, that of a library function or one that a Windows script writes
for itself. -/
def IsReserved (label : Text) : Prop :=
  (∃ f : LibraryFunction, label.upper = f.name.upper) ∨ IsFrame label

theorem isInternal_iff {name : Text} : isInternal name = true ↔ IsFrame (ofName name) := by
  simp only [isInternal, IsFrame, Bool.or_eq_true, Bool.and_eq_true, List.contains_iff_mem,
    List.isPrefixOf_iff_prefix]
  refine or_congr Iff.rfl ⟨?_, ?_⟩
  · rintro ⟨⟨digits, hdigits⟩, hnumeral⟩
    rw [← hdigits, List.drop_left] at hnumeral
    exact ⟨digits, hnumeral, hdigits.symm⟩
  · rintro ⟨digits, hnumeral, hdigits⟩
    rw [hdigits, List.drop_left]
    exact ⟨List.prefix_append _ _, hnumeral⟩

theorem upper_arm (index : Nat) : (arm index).upper = arm index := by
  have hstem : Text.upper armStem = armStem := by decide
  rw [arm, Text.upper_append, hstem, Text.upper_eq_self_of_isNumeral (Text.isNumeral_ofNat index)]

theorem isFrame_arm (index : Nat) : IsFrame (arm index) :=
  Or.inr ⟨Text.ofNat index, Text.isNumeral_ofNat index, upper_arm index⟩

theorem isFrame_endSwitch : IsFrame endSwitch := Or.inl (by decide)

theorem isFrame_functionEnd : IsFrame functionEnd := Or.inl (by decide)

theorem isFrame_capturedBody : IsFrame capturedBody := Or.inl (by decide)

theorem IsFrame.congr {a b : Text} (h : a.upper = b.upper) : IsFrame a ↔ IsFrame b := by
  rw [IsFrame, IsFrame, h]

theorem upper_arm_injective {m n : Nat} (h : (arm m).upper = (arm n).upper) : m = n := by
  rw [upper_arm, upper_arm] at h
  exact Text.ofNat_injective (List.append_cancel_left h)

/-- The places of the frame do not start like an arm. -/
theorem upper_arm_ne {label : Text} (hlabel : ¬armStem <+: label.upper) (index : Nat) :
    (arm index).upper ≠ label.upper := by
  rintro h
  rw [← h, upper_arm] at hlabel
  exact hlabel (List.prefix_append _ _)

end Label

theorem Scope.isReservedName_iff {name : Text} :
    isReservedName name = true ↔ Label.IsReserved (Label.ofName name) := by
  rw [isReservedName, Bool.or_eq_true, Label.isInternal_iff, Label.IsReserved]
  refine or_congr ?_ Iff.rfl
  simp only [List.any_eq_true, decide_eq_true_eq, LibraryFunction.mem_all, true_and]
  exact exists_congr fun f => eq_comm

namespace Dispatch

/-- The labels of a table with this many arms: those of the arms, then that of its end. -/
def labels (size : Nat) : List Text := (List.range size).map Label.arm ++ [Label.endSwitch]

theorem isFrame_of_mem_labels {size : Nat} {place : Text} (h : place ∈ labels size) :
    Label.IsFrame place := by
  rcases List.mem_append.mp h with harm | hend
  · obtain ⟨index, -, rfl⟩ := List.mem_map.mp harm
    exact Label.isFrame_arm index
  · rw [List.mem_singleton.mp hend]
    exact Label.isFrame_endSwitch

theorem endSwitch_mem_labels (size : Nat) : Label.endSwitch ∈ labels size :=
  List.mem_append_right _ (List.mem_singleton_self _)

theorem arm_mem_labels {size index : Nat} (h : index < size) : Label.arm index ∈ labels size :=
  List.mem_append_left _ (List.mem_map_of_mem (List.mem_range.mpr h))

/-- The labels of one table are told apart whatever the case. -/
theorem pairwise_upper_labels (size : Nat) :
    (labels size).Pairwise fun a b => a.upper ≠ b.upper := by
  rw [labels, List.pairwise_append]
  refine ⟨?_, List.pairwise_singleton _ _, ?_⟩
  · rw [List.pairwise_map]
    exact List.nodup_range.imp fun hne h => hne (Label.upper_arm_injective h)
  · intro a ha b hb
    obtain ⟨index, -, rfl⟩ := List.mem_map.mp ha
    rw [List.mem_singleton.mp hb]
    exact Label.upper_arm_ne (by decide) index

end Dispatch

/-- A usable name has a label that no script writes for itself. -/
theorem Scope.IsUsableName.not_isFrame {name : Text} (h : IsUsableName name) :
    ¬Label.IsFrame (Label.ofName name) := by
  intro hframe
  have hreserved := isReservedName_iff.mpr (Or.inr hframe)
  rw [h.2] at hreserved
  exact Bool.false_ne_true hreserved

end DualShell
