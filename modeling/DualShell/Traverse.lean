/-!
Passes over a list from left to right that can fail. The first failure ends the pass, and a pass
over two lists one after the other is the pass over the first, then the second.
-/

namespace DualShell

variable {α β ε : Type}

/-- The results for the items in order, or the first failure. -/
def traverse (f : α → Except ε β) : List α → Except ε (List β)
  | [] => .ok []
  | a :: rest => do
    let b ← f a
    let others ← traverse f rest
    return b :: others

theorem traverse_cons_ok {f : α → Except ε β} {a : α} {b : β} (h : f a = .ok b) (rest : List α) :
    traverse f (a :: rest) = (traverse f rest).map (b :: ·) := by
  rw [traverse, h]
  cases traverse f rest <;> rfl

theorem traverse_cons_error {f : α → Except ε β} {a : α} {e : ε} (h : f a = .error e)
    (rest : List α) : traverse f (a :: rest) = .error e := by
  rw [traverse, h]
  rfl

theorem traverse_append (f : α → Except ε β) (xs ys : List α) :
    traverse f (xs ++ ys) = (do
      let first ← traverse f xs
      let second ← traverse f ys
      return first ++ second) := by
  induction xs with
  | nil => cases h : traverse f ys <;> simp [traverse, h] <;> rfl
  | cons a rest ih =>
    rw [List.cons_append]
    cases ha : f a with
    | error e => rw [traverse_cons_error ha, traverse_cons_error ha]; rfl
    | ok b =>
      rw [traverse_cons_ok ha, traverse_cons_ok ha, ih]
      cases traverse f rest with
      | error e => rfl
      | ok first => cases traverse f ys <;> rfl

end DualShell
