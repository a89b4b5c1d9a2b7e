import DualShell.Text

/-!
When passes that can fail succeed, and with what: one step after another, and one pass over a list.
A pass over a list succeeds exactly when it succeeds at every item, and otherwise ends with the
failure of the first item that has one.
-/

namespace DualShell

variable {α β ε : Type}

namespace Passes

theorem bind_eq_ok {x : Except ε α} {f : α → Except ε β} {b : β} :
    (x >>= f) = .ok b ↔ ∃ a, x = .ok a ∧ f a = .ok b := by
  cases x <;> simp [bind, Except.bind]

theorem map_eq_ok {x : Except ε α} {f : α → β} {b : β} :
    x.map f = .ok b ↔ ∃ a, x = .ok a ∧ f a = b := by
  cases x <;> simp [Except.map]

theorem map_eq_error {x : Except ε α} {f : α → β} {e : ε} : x.map f = .error e ↔ x = .error e := by
  cases x <;> simp [Except.map]

theorem mapError_eq_ok {ε' : Type} {x : Except ε α} {f : ε → ε'} {a : α} :
    x.mapError f = .ok a ↔ x = .ok a := by
  cases x with
  | error e => exact ⟨nofun, nofun⟩
  | ok b =>
    change (Except.ok b : Except ε' α) = .ok a ↔ _
    rw [Except.ok.injEq, Except.ok.injEq]

theorem pure_eq_ok {a b : α} : (pure a : Except ε α) = .ok b ↔ a = b := by
  simp [pure, Except.pure]

theorem exists_eq_ok_iff {x : Except ε α} : (∃ a, x = .ok a) ↔ x.isOk = true := by
  cases x <;> simp [Except.isOk, Except.toBool]

theorem exists_map_eq_ok {x : Except ε α} (f : α → β) :
    (∃ b, x.map f = .ok b) ↔ ∃ a, x = .ok a := by
  cases x <;> simp [Except.map]

end Passes

open Passes

theorem traverse_cons_eq_ok {f : α → Except ε β} {a : α} {rest : List α} {bs : List β} :
    traverse f (a :: rest) = .ok bs ↔
      ∃ b others, f a = .ok b ∧ traverse f rest = .ok others ∧ b :: others = bs := by
  simp only [traverse, bind_eq_ok, pure_eq_ok]
  constructor
  · rintro ⟨b, hb, others, hothers, rfl⟩
    exact ⟨b, others, hb, hothers, rfl⟩
  · rintro ⟨b, others, hb, hothers, rfl⟩
    exact ⟨b, hb, others, hothers, rfl⟩

/-- What is made of each result of a pass can be made of them after the pass. -/
theorem traverse_map {γ : Type} (f : α → Except ε β) (g : β → γ) (items : List α) :
    traverse (fun a => (f a).map g) items = (traverse f items).map (List.map g) := by
  induction items with
  | nil => rfl
  | cons a rest ih =>
    rw [traverse, traverse, ih]
    cases f a with
    | error e => rfl
    | ok b => cases traverse f rest <;> rfl

theorem traverse_eq_ok_map {f : α → Except ε β} {g : α → β} {items : List α}
    (h : ∀ a ∈ items, f a = .ok (g a)) : traverse f items = .ok (items.map g) := by
  induction items with
  | nil => rfl
  | cons a rest ih =>
    obtain ⟨ha, hrest⟩ := List.forall_mem_cons.mp h
    exact traverse_cons_eq_ok.mpr ⟨g a, rest.map g, ha, ih hrest, rfl⟩

/-- A pass succeeds exactly when it does at every item. -/
theorem exists_traverse_eq_ok {f : α → Except ε β} {items : List α} :
    (∃ bs, traverse f items = .ok bs) ↔ ∀ a ∈ items, ∃ b, f a = .ok b := by
  induction items with
  | nil => simp [traverse]
  | cons a rest ih =>
    simp only [traverse_cons_eq_ok, List.forall_mem_cons, ← ih]
    constructor
    · rintro ⟨_, b, others, hb, hothers, -⟩
      exact ⟨⟨b, hb⟩, others, hothers⟩
    · rintro ⟨⟨b, hb⟩, others, hothers⟩
      exact ⟨b :: others, b, others, hb, hothers, rfl⟩

theorem mem_of_traverse_eq_ok {f : α → Except ε β} {items : List α} {bs : List β}
    (h : traverse f items = .ok bs) {b : β} : b ∈ bs ↔ ∃ a ∈ items, f a = .ok b := by
  induction items generalizing bs with
  | nil =>
    obtain rfl : [] = bs := by simpa [traverse] using h
    simp
  | cons a rest ih =>
    obtain ⟨first, others, hfirst, hothers, rfl⟩ := traverse_cons_eq_ok.mp h
    have hb : f a = .ok b ↔ b = first := by simp [hfirst, eq_comm]
    rw [List.mem_cons, ih hothers, ← hb]
    simp

theorem forall_mem_of_traverse_eq_ok {f : α → Except ε β} {P : β → Prop} {items : List α}
    (hP : ∀ a ∈ items, ∀ b, f a = .ok b → P b) {bs : List β} (h : traverse f items = .ok bs) :
    ∀ b ∈ bs, P b := by
  intro b hb
  obtain ⟨a, ha, hab⟩ := (mem_of_traverse_eq_ok h).mp hb
  exact hP a ha b hab

/-- What the results of a pass show of the items is what the items show themselves. -/
theorem map_of_traverse_eq_ok {γ : Type} {f : α → Except ε β} {view : β → γ} {key : α → γ}
    (hview : ∀ a b, f a = .ok b → view b = key a) {items : List α} {bs : List β}
    (h : traverse f items = .ok bs) : bs.map view = items.map key := by
  induction items generalizing bs with
  | nil =>
    obtain rfl : [] = bs := by simpa [traverse] using h
    rfl
  | cons a rest ih =>
    obtain ⟨first, others, hfirst, hothers, rfl⟩ := traverse_cons_eq_ok.mp h
    rw [List.map_cons, List.map_cons, hview a first hfirst, ih hothers]

/-- The first item that fails decides how a pass fails. -/
theorem traverse_append_cons_error {f : α → Except ε β} {before after : List α} {a : α} {e : ε}
    (hbefore : ∀ x ∈ before, ∃ b, f x = .ok b) (ha : f a = .error e) :
    traverse f (before ++ a :: after) = .error e := by
  obtain ⟨bs, hbs⟩ := exists_traverse_eq_ok.mpr hbefore
  rw [traverse_append, hbs, traverse_cons_error ha]
  rfl

/-- Of the items that are not as they should be, one comes first. -/
theorem exists_first_not {P : α → Prop} {items : List α} (h : ¬∀ a ∈ items, P a) :
    ∃ before a after, items = before ++ a :: after ∧ (∀ x ∈ before, P x) ∧ ¬P a := by
  classical
  have hsome : (items.find? fun a => decide ¬P a).isSome = true :=
    List.find?_isSome.mpr (by simpa using h)
  obtain ⟨a, hfind⟩ := Option.isSome_iff_exists.mp hsome
  obtain ⟨ha, before, after, rfl, hbefore⟩ := List.find?_eq_some_iff_append.mp hfind
  exact ⟨before, a, after, rfl, by simpa using hbefore, of_decide_eq_true ha⟩

theorem traverse_eq_error_iff {f : α → Except ε β} {items : List α} {e : ε} :
    traverse f items = .error e ↔
      ∃ before a after, items = before ++ a :: after ∧ (∀ x ∈ before, ∃ b, f x = .ok b) ∧
        f a = .error e := by
  constructor
  · intro h
    have hfails : ¬∀ a ∈ items, ∃ b, f a = .ok b := by
      intro hall
      obtain ⟨bs, hbs⟩ := exists_traverse_eq_ok.mpr hall
      rw [h] at hbs
      cases hbs
    obtain ⟨before, a, after, rfl, hbefore, ha⟩ := exists_first_not hfails
    cases hfa : f a with
    | ok b => exact absurd ⟨b, hfa⟩ ha
    | error first =>
      rw [traverse_append_cons_error hbefore hfa] at h
      obtain rfl := Except.error.inj h
      exact ⟨before, a, after, rfl, hbefore, hfa⟩
  · rintro ⟨before, a, after, rfl, hbefore, ha⟩
    exact traverse_append_cons_error hbefore ha

theorem Text.exists_collect_eq_ok {write : α → Except ε Text} {items : List α} :
    (∃ t, Text.collect write items = .ok t) ↔ ∀ a ∈ items, ∃ t, write a = .ok t := by
  rw [Text.collect, exists_map_eq_ok, exists_traverse_eq_ok]

end DualShell
