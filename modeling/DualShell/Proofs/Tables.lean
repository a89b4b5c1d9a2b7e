import DualShell.Proofs.DistinctLists
import DualShell.Table

/-!
What a table holds, and what it holds after insertions. A table is known by its names and their values.
A name keeps the place of its first insertion and has the value of its last one; pairs with different
names are held as they are.
-/

namespace DualShell

variable {α : Type} {key name : Text} {value : α}

theorem insertEntry_of_notMem {name : Text} {value : α} {entries : List (Text × α)}
    (h : name ∉ entries.map Prod.fst) :
    insertEntry name value entries = entries ++ [(name, value)] := by
  induction entries with
  | nil => rfl
  | cons entry rest ih =>
    obtain ⟨other, old⟩ := entry
    rw [List.map_cons, List.mem_cons, not_or] at h
    rw [insertEntry, if_neg (Ne.symm h.1), ih h.2, List.cons_append]

theorem map_fst_insertEntry {entries : List (Text × α)} :
    (insertEntry name value entries).map Prod.fst =
      if name ∈ entries.map Prod.fst then entries.map Prod.fst
      else entries.map Prod.fst ++ [name] := by
  induction entries with
  | nil => simp [insertEntry]
  | cons entry rest ih =>
    obtain ⟨other, old⟩ := entry
    by_cases h : other = name
    · simp [insertEntry, h]
    · rw [insertEntry, if_neg h, List.map_cons, ih]
      grind

theorem find?_insertEntry {entries : List (Text × α)} :
    (insertEntry name value entries).find? (·.1 = key) =
      if name = key then some (name, value) else entries.find? (·.1 = key) := by
  induction entries with
  | nil => by_cases h : name = key <;> simp [insertEntry, h]
  | cons entry rest ih =>
    obtain ⟨other, old⟩ := entry
    by_cases h : other = name
    · by_cases hkey : name = key <;> simp [insertEntry, h, hkey]
    · rw [insertEntry, if_neg h, List.find?_cons, ih, List.find?_cons]
      grind

namespace Table

variable {table other : Table α}

theorem eq_of_entries_eq (h : table.entries = other.entries) : table = other := by
  cases table
  cases other
  exact (Table.mk.injEq ..).mpr h

theorem mem_entries_iff : (name, value) ∈ table.entries ↔ table.get? name = some value := by
  rw [get?, Option.map_eq_some_iff]
  constructor
  · intro hmem
    cases hfind : table.entries.find? (·.1 = name) with
    | none => exact absurd (decide_eq_true rfl) (List.find?_eq_none.mp hfind _ hmem)
    | some entry =>
      have hname : entry.1 = name := by simpa using List.find?_some hfind
      -- names do not repeat, so the entry that is found is the one that is there
      have heq : entry = (name, value) :=
        List.inj_on_of_nodup_map table.nodup (List.mem_of_find?_eq_some hfind) hmem hname
      exact ⟨entry, rfl, by rw [heq]⟩
  · rintro ⟨entry, hfind, rfl⟩
    have hname : entry.1 = name := by simpa using List.find?_some hfind
    rw [← hname]
    exact List.mem_of_find?_eq_some hfind

theorem get?_eq_none_iff : table.get? name = none ↔ name ∉ table.keys := by
  rw [get?, Option.map_eq_none_iff, List.find?_eq_none, keys, List.mem_map]
  simp only [decide_eq_true_eq, not_exists, not_and]

/-- A table lists its names with their values. -/
theorem entries_eq_filterMap (table : Table α) :
    table.entries = table.keys.filterMap fun name => (table.get? name).map (name, ·) := by
  have hentry : ∀ entry ∈ table.entries,
      (table.get? entry.1).map (entry.1, ·) = some entry := by
    intro entry hentry
    rw [mem_entries_iff.mp hentry]
    rfl
  rw [keys, List.filterMap_map]
  exact (List.filterMap_some.symm.trans
    (List.filterMap_congr fun entry h => (hentry entry h).symm))

/-- Tables with the same names in the same order and with the same values are the same. -/
theorem eq_of_get?_eq (hkeys : table.keys = other.keys)
    (hget : ∀ name, table.get? name = other.get? name) : table = other := by
  refine eq_of_entries_eq ?_
  rw [entries_eq_filterMap, entries_eq_filterMap, hkeys]
  simp only [hget]

theorem entries_insertAll {pairs : List (Text × α)}
    (h : ((table.entries ++ pairs).map Prod.fst).Nodup) :
    (table.insertAll pairs).entries = table.entries ++ pairs := by
  induction pairs generalizing table with
  | nil => simp [insertAll]
  | cons pair rest ih =>
    have hnew : pair.1 ∉ table.entries.map Prod.fst := by
      rw [List.map_append, List.nodup_append] at h
      exact fun hmem => h.2.2 _ hmem _ (by simp) rfl
    have hinsert : (table.insert pair.1 pair.2).entries = table.entries ++ [pair] :=
      insertEntry_of_notMem hnew
    have hrest : ((table.insert pair.1 pair.2).insertAll rest).entries =
        (table.insert pair.1 pair.2).entries ++ rest :=
      ih (by simpa [hinsert] using h)
    simpa [insertAll, hinsert] using hrest

/-- A table made from pairs with different names holds just these pairs. -/
theorem entries_ofList {pairs : List (Text × α)} (h : (pairs.map Prod.fst).Nodup) :
    (ofList pairs).entries = pairs := by
  rw [ofList, entries_insertAll]
  · rfl
  · exact h

theorem insertAll_concat (table : Table α) (pairs : List (Text × α)) (pair : Text × α) :
    table.insertAll (pairs ++ [pair]) = (table.insertAll pairs).insert pair.1 pair.2 := by
  rw [insertAll_append]
  rfl

/-- Names keep the place of their first insertion. -/
theorem keys_insertAll (table : Table α) (pairs : List (Text × α)) :
    (table.insertAll pairs).keys = distinct (table.keys ++ pairs.map Prod.fst) := by
  induction pairs using List.reverseRecOn with
  | nil =>
    rw [List.map_nil, List.append_nil]
    exact (distinct_eq_self table.nodup).symm
  | append_singleton pairs pair ih =>
    rw [insertAll_concat, keys, insert, map_fst_insertEntry, ← keys, ih, List.map_append,
      List.map_singleton, ← List.append_assoc, distinct_concat]
    by_cases h : pair.1 ∈ table.keys ++ pairs.map Prod.fst
    · rw [if_pos (mem_distinct.mpr h), if_pos h]
    · rw [if_neg (mt mem_distinct.mp h), if_neg h]

/-- The last value that is inserted for a name is the one that it has. -/
theorem get?_insertAll (table : Table α) (pairs : List (Text × α)) (key : Text) :
    (table.insertAll pairs).get? key =
      ((pairs.findRev? (·.1 = key)).map Prod.snd).or (table.get? key) := by
  rw [List.findRev?_eq_find?_reverse]
  induction pairs using List.reverseRecOn with
  | nil => rfl
  | append_singleton pairs pair ih =>
    rw [get?] at ih
    rw [insertAll_concat, get?, insert, find?_insertEntry, List.reverse_concat, List.find?_cons]
    by_cases h : pair.1 = key
    · simp [h]
    · simp [h, ih]

theorem keys_ofList (pairs : List (Text × α)) :
    (ofList pairs).keys = (pairs.map Prod.fst).eraseDups := by
  rw [eraseDups_eq_distinct]
  exact keys_insertAll empty pairs

theorem get?_ofList (pairs : List (Text × α)) (key : Text) :
    (ofList pairs).get? key = (pairs.findRev? (·.1 = key)).map Prod.snd := by
  have hinsert := get?_insertAll empty pairs key
  rwa [show (empty : Table α).get? key = none from rfl, Option.or_none] at hinsert

/-- A table is made again of the entries that it holds. -/
theorem ofList_entries (table : Table α) : ofList table.entries = table :=
  eq_of_entries_eq (entries_ofList table.nodup)

end Table

end DualShell
