import DualShell.Proofs.LineEnds
import DualShell.Proofs.WordRuns

/-!
What becomes of a statement when it ends the script instead of returning. On Unix the word changes and
no other; once more changes nothing; and a list is treated item by item, since what is written for an
item ends its line and so does not run into the words of the next.
-/

namespace DualShell

open Passes

/-- What is made of each item first can be made of it during the pass. -/
theorem traverse_of_map {α β γ ε : Type} (f : β → Except ε γ) (g : α → β) (items : List α) :
    traverse f (items.map g) = traverse (fun a => f (g a)) items := by
  induction items with
  | nil => rfl
  | cons a rest ih => rw [List.map_cons, traverse, traverse, ih]

namespace Statement

theorem isOfKind_return : Text.IsOfKind true (Token.returnCommand.literal .unix) :=
  ⟨by decide, List.all_eq_true.mp (by decide)⟩

theorem isOfKind_exit : Text.IsOfKind true (Token.exitCommand.literal .unix) :=
  ⟨by decide, List.all_eq_true.mp (by decide)⟩

theorem return_ne_exit : Token.returnCommand.literal .unix ≠ Token.exitCommand.literal .unix := by
  decide

theorem exitForReturn_idem (family : Family) (text : Text) :
    exitForReturn family (exitForReturn family text) = exitForReturn family text := by
  cases family with
  | unix =>
    exact Text.replaceWord_eq_self isOfKind_return
      (Text.not_mem_runs_replaceWord isOfKind_return isOfKind_exit return_ne_exit text)
  | windows => simp only [exitForReturn_windows]

/-- Texts that end their lines have their returns replaced one by one. -/
theorem exitForReturn_append (family : Family) {s : Text} (hs : Text.IsEnded s) (t : Text) :
    exitForReturn family (s ++ t) = exitForReturn family s ++ exitForReturn family t := by
  have hnil : exitForReturn family [] = [] := by cases family <;> rfl
  rcases hs with rfl | hlast
  · rw [hnil, List.nil_append, List.nil_append]
  · obtain ⟨before, rfl⟩ := List.getLast?_eq_some_iff.mp hlast
    rw [List.append_assoc, List.singleton_append, exitForReturn_append_lf,
      exitForReturn_append_lf, hnil, List.append_assoc, List.singleton_append]

theorem exitForReturn_flatten (family : Family) {texts : List Text}
    (h : ∀ t ∈ texts, Text.IsEnded t) :
    exitForReturn family texts.flatten = (texts.map (exitForReturn family)).flatten := by
  induction texts with
  | nil => cases family <;> rfl
  | cons t rest ih =>
    obtain ⟨ht, hrest⟩ := List.forall_mem_cons.mp h
    rw [List.flatten_cons, exitForReturn_append family ht, ih hrest, List.map_cons,
      List.flatten_cons]

/-- A list that exits instead of returning is the list of its items doing so. -/
theorem render_exitInsteadOfReturn_list (family : Family) (items : List Statement) :
    render family (.exitInsteadOfReturn (.list items)) =
      render family (.list (items.map .exitInsteadOfReturn)) := by
  have hitems : traverse (render family) (items.map .exitInsteadOfReturn) =
      (traverse (render family) items).map (List.map (exitForReturn family)) := by
    rw [traverse_of_map, ← traverse_map]
    rfl
  rw [render, render, render, renderItems_eq, renderItems_eq, Text.collect, Text.collect, hitems]
  cases htexts : traverse (render family) items with
  | error e => rfl
  | ok texts =>
    have hended : ∀ t ∈ texts, Text.IsEnded t :=
      forall_mem_of_traverse_eq_ok (fun _ _ _ => isEnded_of_render) htexts
    exact congrArg Except.ok (exitForReturn_flatten family hended)

/-- On Unix a statement that exits instead of returning has no word `return`, and one word `exit` more
for each word `return` of the statement; on Windows it is written as the statement is. For each family,
doing so twice changes nothing more, and a list does so item by item. -/
theorem render_exitInsteadOfReturn (s : Statement) :
    (∀ text, render .unix s = .ok text →
      ∃ exited, render .unix (.exitInsteadOfReturn s) = .ok exited ∧
        ("return" : Text) ∉ Text.runs exited ∧
        Text.runCount "exit" exited = Text.runCount "exit" text + Text.runCount "return" text) ∧
    render .windows (.exitInsteadOfReturn s) = render .windows s ∧
    (∀ family, render family (.exitInsteadOfReturn (.exitInsteadOfReturn s)) =
      render family (.exitInsteadOfReturn s)) ∧
    ∀ family items, render family (.exitInsteadOfReturn (.list items)) =
      render family (.list (items.map .exitInsteadOfReturn)) := by
  refine ⟨fun text htext => ?_, ?_, fun family => ?_, render_exitInsteadOfReturn_list⟩
  · refine ⟨exitForReturn .unix text, map_eq_ok.mpr ⟨text, htext, rfl⟩, ?_, ?_⟩
    · exact Text.not_mem_runs_replaceWord isOfKind_return isOfKind_exit return_ne_exit text
    · exact Text.runCount_replaceWord isOfKind_return isOfKind_exit return_ne_exit text
  · rw [render]
    cases render .windows s with
    | error e => rfl
    | ok text => exact congrArg Except.ok (exitForReturn_windows text)
  · rw [render, render]
    cases render family s with
    | error e => rfl
    | ok text => exact congrArg Except.ok (exitForReturn_idem family text)

end Statement

end DualShell
