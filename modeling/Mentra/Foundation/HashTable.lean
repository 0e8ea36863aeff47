import Mathlib

/-!
# Tables iterated in no particular order

A finite map as the list of entries an iteration over it meets, each key once: two tables
whose lists are permutations of each other are the same map, iterated twice.  The least entry
depends on the entries alone, under an order that tells all of them apart.
-/

namespace Mentra.Foundation

open List

/-- A finite map, in the order one iteration over it happens to take. -/
structure HashTable (κ α : Type) where
  entries : List (κ × α)
  distinct : (entries.map Prod.fst).Nodup

namespace HashTable

variable {κ α : Type}

def empty : HashTable κ α :=
  ⟨[], nodup_nil⟩

def retain (table : HashTable κ α) (keep : κ → Bool) : HashTable κ α :=
  ⟨table.entries.filter fun entry => keep entry.1,
    table.distinct.sublist (filter_sublist.map Prod.fst)⟩

variable {table : HashTable κ α}

@[simp]
theorem mem_retain {keep : κ → Bool} {entry : κ × α} :
    entry ∈ (table.retain keep).entries ↔ entry ∈ table.entries ∧ keep entry.1 :=
  mem_filter

def values (table : HashTable κ α) : List α :=
  table.entries.map Prod.snd

/-- The same map, whatever order its entries are met in. -/
def Same (first second : HashTable κ α) : Prop :=
  first.entries.Perm second.entries

/-- A key has one value. -/
theorem eq_of_mem {key : κ} {first second : α}
    (firstMem : (key, first) ∈ table.entries) (secondMem : (key, second) ∈ table.entries) :
    first = second := by
  have same := inj_on_of_nodup_map table.distinct firstMem secondMem rfl
  exact congrArg Prod.snd same

variable [DecidableEq κ]

def remove (table : HashTable κ α) (key : κ) : HashTable κ α :=
  table.retain fun other => other ≠ key

/-- `HashMap::contains_key`. -/
def contains (table : HashTable κ α) (key : κ) : Bool :=
  table.entries.any fun entry => entry.1 = key

def get? (table : HashTable κ α) (key : κ) : Option α :=
  (table.entries.find? fun entry => entry.1 = key).map Prod.snd

theorem get?_eq_some_iff {key : κ} {value : α} :
    table.get? key = some value ↔ (key, value) ∈ table.entries := by
  rw [get?, Option.map_eq_some_iff]
  constructor
  · rintro ⟨⟨other, value⟩, found, rfl⟩
    have same : other = key := by simpa using find?_some found
    exact same ▸ mem_of_find?_eq_some found
  · intro mem
    cases found : table.entries.find? fun entry => entry.1 = key with
    | none => exact absurd (decide_eq_true rfl) (find?_eq_none.mp found (key, value) mem)
    | some entry =>
      obtain ⟨other, otherValue⟩ := entry
      have same : other = key := by simpa using find?_some found
      subst same
      exact ⟨_, rfl, eq_of_mem (mem_of_find?_eq_some found) mem⟩

theorem get?_eq_none_iff {key : κ} :
    table.get? key = none ↔ ∀ value, (key, value) ∉ table.entries := by
  rw [Option.eq_none_iff_forall_ne_some]
  exact forall_congr' fun value => not_congr get?_eq_some_iff

theorem not_mem_keys_remove (table : HashTable κ α) (key : κ) :
    key ∉ (table.remove key).entries.map Prod.fst := by
  intro mem
  obtain ⟨entry, kept, rfl⟩ := mem_map.mp mem
  simp [remove] at kept

/-- `HashMap::insert`: the new value takes the place of the key's old one. -/
def insert (table : HashTable κ α) (key : κ) (value : α) : HashTable κ α :=
  ⟨(key, value) :: (table.remove key).entries,
    nodup_cons.mpr ⟨table.not_mem_keys_remove key, (table.remove key).distinct⟩⟩

@[simp]
theorem mem_insert {key : κ} {value : α} {entry : κ × α} :
    entry ∈ (table.insert key value).entries ↔
      entry = (key, value) ∨ (entry ∈ table.entries ∧ entry.1 ≠ key) := by
  simp [insert, remove]

end HashTable

/-! ## The least element of an iteration -/

section MinBy

variable {α : Type} {cmp : α → α → Ordering}

/-- `Iterator::min_by`: of equal elements, the one met first. -/
def minBy (cmp : α → α → Ordering) : List α → Option α
  | [] => none
  | first :: rest =>
    some (rest.foldl (fun least next => if cmp least next = .gt then next else least) first)

theorem minBy_eq_none_iff {items : List α} : minBy cmp items = none ↔ items = [] := by
  cases items with
  | nil | cons first rest => simp [minBy]

/-- The running least element is one of those met so far and at most each of them. -/
theorem least_foldl [Std.TransCmp cmp] (first : α) (rest : List α) :
    let least := rest.foldl (fun least next => if cmp least next = .gt then next else least) first
    least ∈ first :: rest ∧ ∀ item ∈ first :: rest, (cmp least item).isLE := by
  induction rest generalizing first with
  | nil => simp [Std.ReflCmp.compare_self]
  | cons next rest ih =>
    rw [foldl_cons]
    split
    · rename_i greater
      obtain ⟨mem, least⟩ := ih next
      refine ⟨mem_cons_of_mem first mem, ?_⟩
      intro item itemMem
      rcases mem_cons.mp itemMem with rfl | later
      · have before : (cmp next item).isLE :=
          Ordering.isLE_of_eq_lt (Std.OrientedCmp.gt_iff_lt.mp greater)
        exact Std.TransCmp.isLE_trans (least next mem_cons_self) before
      · exact least item later
    · rename_i notGreater
      obtain ⟨mem, least⟩ := ih first
      have below : (cmp first next).isLE := Ordering.isLE_iff_ne_gt.mpr notGreater
      constructor
      · rcases mem_cons.mp mem with same | later
        · exact mem_cons.mpr (.inl same)
        · exact mem_cons_of_mem first (mem_cons_of_mem next later)
      · intro item itemMem
        rcases mem_cons.mp itemMem with rfl | later
        · exact least item mem_cons_self
        · rcases mem_cons.mp later with rfl | later
          · exact Std.TransCmp.isLE_trans (least first mem_cons_self) below
          · exact least item (mem_cons_of_mem first later)

theorem minBy_eq_some [Std.TransCmp cmp] {items : List α} {least : α}
    (found : minBy cmp items = some least) :
    least ∈ items ∧ ∀ item ∈ items, (cmp least item).isLE := by
  cases items with
  | nil => simp [minBy] at found
  | cons first rest =>
    cases found
    exact least_foldl first rest

end MinBy

end Mentra.Foundation
