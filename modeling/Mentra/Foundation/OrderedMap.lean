import Mathlib

/-!
# Maps in key order

A finite map as the list of its entries, smallest key first, each key once.
The order is a field of the map, so iterating over it is reading the list.
-/

namespace Mentra.Foundation

open List

/-- A finite map whose entries stand in key order. -/
structure OrderedMap (κ α : Type) [LinearOrder κ] where
  entries : List (κ × α)
  sorted : entries.Pairwise fun earlier later => earlier.1 < later.1

namespace OrderedMap

variable {κ α : Type} [LinearOrder κ]

def empty : OrderedMap κ α :=
  ⟨[], .nil⟩

/-- Enter a value into entries in key order, in place of the key's old value. -/
def insertEntry (key : κ) (value : α) : List (κ × α) → List (κ × α)
  | [] => [(key, value)]
  | entry :: rest =>
    if key < entry.1 then (key, value) :: entry :: rest
    else if key = entry.1 then (key, value) :: rest
    else entry :: insertEntry key value rest

variable {key : κ}

theorem mem_insertEntry {value : α} {entries : List (κ × α)} {entry : κ × α}
    (mem : entry ∈ insertEntry key value entries) : entry = (key, value) ∨ entry ∈ entries := by
  induction entries with
  | nil => exact .inl (mem_singleton.mp mem)
  | cons first rest ih =>
    rw [insertEntry] at mem
    split at mem
    · exact mem_cons.mp mem
    · split at mem
      · rcases mem_cons.mp mem with new | old
        · exact .inl new
        · exact .inr (mem_cons_of_mem first old)
      · rcases mem_cons.mp mem with rfl | later
        · exact .inr mem_cons_self
        · exact (ih later).imp_right (mem_cons_of_mem first)

theorem sorted_insertEntry {value : α} {entries : List (κ × α)}
    (sorted : entries.Pairwise fun earlier later => earlier.1 < later.1) :
    (insertEntry key value entries).Pairwise fun earlier later => earlier.1 < later.1 := by
  induction entries with
  | nil => exact pairwise_singleton _ _
  | cons first rest ih =>
    obtain ⟨smallest, sortedRest⟩ := pairwise_cons.mp sorted
    rw [insertEntry]
    split
    · rename_i before
      refine pairwise_cons.mpr ⟨?_, sorted⟩
      intro entry mem
      rcases mem_cons.mp mem with rfl | later
      · exact before
      · exact lt_trans before (smallest entry later)
    · rename_i notBefore
      split
      · rename_i same
        exact pairwise_cons.mpr ⟨same ▸ smallest, sortedRest⟩
      · rename_i differs
        refine pairwise_cons.mpr ⟨?_, ih sortedRest⟩
        intro entry mem
        rcases mem_insertEntry mem with rfl | old
        · exact lt_of_le_of_ne (not_lt.mp notBefore) (Ne.symm differs)
        · exact smallest entry old

variable (map : OrderedMap κ α)

def insert (key : κ) (value : α) : OrderedMap κ α :=
  ⟨insertEntry key value map.entries, sorted_insertEntry map.sorted⟩

def get? (key : κ) : Option α :=
  (map.entries.find? fun entry => entry.1 = key).map Prod.snd

def values : List α :=
  map.entries.map Prod.snd

/-! ## Lookups -/

@[simp]
theorem get?_empty (key : κ) : (empty : OrderedMap κ α).get? key = none :=
  rfl

theorem find?_insertEntry_self (key : κ) (value : α) (entries : List (κ × α)) :
    (insertEntry key value entries).find? (fun entry => entry.1 = key) = some (key, value) := by
  induction entries with
  | nil => simp [insertEntry]
  | cons first rest ih =>
    rw [insertEntry]
    split
    · simp
    · split
      · simp
      · rename_i differs
        rw [find?_cons_of_neg (by simpa using Ne.symm differs), ih]

theorem find?_insertEntry_of_ne {other : κ} (differs : other ≠ key) (value : α)
    (entries : List (κ × α)) :
    (insertEntry key value entries).find? (fun entry => entry.1 = other) =
      entries.find? fun entry => entry.1 = other := by
  induction entries with
  | nil => simp [insertEntry, differs.symm]
  | cons first rest ih =>
    rw [insertEntry]
    split
    · rw [find?_cons_of_neg (by simpa using differs.symm)]
    · split
      · rename_i same
        rw [find?_cons_of_neg (by simpa using differs.symm),
          find?_cons_of_neg (by simpa [same] using differs.symm)]
      · rw [find?_cons, find?_cons, ih]

@[simp]
theorem get?_insert_self (key : κ) (value : α) : (map.insert key value).get? key = some value := by
  rw [get?, insert, find?_insertEntry_self]
  rfl

theorem get?_insert_of_ne {other : κ} (differs : other ≠ key) (map : OrderedMap κ α)
    (value : α) : (map.insert key value).get? other = map.get? other := by
  rw [get?, insert, find?_insertEntry_of_ne differs]
  rfl

theorem mem_of_get? {map : OrderedMap κ α} {value : α}
    (found : map.get? key = some value) : (key, value) ∈ map.entries := by
  obtain ⟨entry, first, rfl⟩ := Option.map_eq_some_iff.mp found
  have same : entry.1 = key := by simpa using find?_some first
  exact same ▸ mem_of_find?_eq_some first

theorem nodup_keys : (map.entries.map Prod.fst).Nodup := by
  rw [List.Nodup, pairwise_map]
  exact map.sorted.imp fun before => before.ne

/-! ## Maps with the same keys -/

section Entries

variable {β : Type}

theorem find?_eq_none_of_before {key : κ} {entries : List (κ × α)}
    (before : ∀ entry ∈ entries, key < entry.1) :
    entries.find? (fun entry => entry.1 = key) = none := by
  rw [find?_eq_none]
  intro entry mem
  simpa using ne_of_gt (before entry mem)

theorem find?_head (first : κ × α) (rest : List (κ × α)) :
    ((first :: rest).find? fun entry => entry.1 = first.1).map Prod.snd = some first.2 := by
  simp

theorem le_of_find? {key : κ} {value : α} {first : κ × α} {rest : List (κ × α)}
    (sorted : (first :: rest).Pairwise fun earlier later => earlier.1 < later.1)
    (found : ((first :: rest).find? fun entry => entry.1 = key).map Prod.snd = some value) :
    first.1 ≤ key := by
  by_contra smaller
  have before : ∀ entry ∈ first :: rest, key < entry.1 := by
    intro entry mem
    rcases mem_cons.mp mem with rfl | later
    · exact not_le.mp smaller
    · exact lt_trans (not_le.mp smaller) ((pairwise_cons.mp sorted).1 entry later)
  rw [find?_eq_none_of_before before] at found
  cases found

/-- Maps whose lookups are related at every key list related entries. -/
theorem forall₂_entries {Related : κ → α → β → Prop} {left : OrderedMap κ α}
    {right : OrderedMap κ β}
    (related : ∀ key, Option.Rel (Related key) (left.get? key) (right.get? key)) :
    List.Forall₂ (fun first second => first.1 = second.1 ∧ Related first.1 first.2 second.2)
      left.entries right.entries := by
  obtain ⟨leftEntries, leftSorted⟩ := left
  obtain ⟨rightEntries, rightSorted⟩ := right
  simp only [get?] at related
  induction leftEntries generalizing rightEntries with
  | nil =>
    cases rightEntries with
    | nil => exact .nil
    | cons second rest =>
      have here := related second.1
      simp at here
  | cons first rest ih =>
    cases rightEntries with
    | nil =>
      have here := related first.1
      simp at here
    | cons second others =>
      obtain ⟨smallestLeft, leftRest⟩ := pairwise_cons.mp leftSorted
      obtain ⟨smallestRight, rightRest⟩ := pairwise_cons.mp rightSorted
      have same : first.1 = second.1 := by
        have here := related first.1
        have there := related second.1
        rw [find?_head first rest] at here
        rw [find?_head second others] at there
        apply le_antisymm
        · generalize found : Option.map _ _ = value at there
          cases there with
          | some _ => exact le_of_find? leftSorted found
        · generalize found : Option.map _ _ = value at here
          cases here with
          | some _ => exact le_of_find? rightSorted found
      refine .cons ⟨same, ?_⟩ (ih leftRest others rightRest ?_)
      · have here := related first.1
        simpa [same] using here
      · intro key
        by_cases old : first.1 = key
        · rw [find?_eq_none_of_before (old ▸ smallestLeft),
            find?_eq_none_of_before ((same.symm.trans old) ▸ smallestRight)]
          exact .none
        · have here := related key
          rwa [find?_cons_of_neg (by simpa using old),
            find?_cons_of_neg (by simpa [same] using old)] at here

end Entries

end OrderedMap

end Mentra.Foundation
