import Mathlib

/-!
# Positions, updates and pointwise relations of lists

Where an element of a list sits, what writing at an index does to sums and pointwise
relations, and loops whose body can fail but keeps an invariant under which it does not.
-/

namespace Mentra.Foundation.Lists

open List

universe u v

variable {α : Type u} {β : Type v}

/-! ## Positions -/

theorem eq_nil_or_singleton_or_concat₂ (items : List α) :
    items = [] ∨ (∃ item, items = [item]) ∨
      ∃ older before last, items = older ++ [before, last] := by
  rcases eq_nil_or_concat items with rfl | ⟨front, last, rfl⟩
  · exact .inl rfl
  · rcases eq_nil_or_concat front with rfl | ⟨older, before, rfl⟩
    · exact .inr (.inl ⟨last, rfl⟩)
    · exact .inr (.inr ⟨older, before, last, by simp⟩)

variable {items : List α}

/-- The positions in `first :: items`: the head, or one further down. -/
theorem exists_split_cons {first target : α} {Holds : List α → Prop} :
    (∃ front rest, first :: items = front ++ target :: rest ∧ Holds front) ↔
      (target = first ∧ Holds []) ∨
        ∃ front rest, items = front ++ target :: rest ∧ Holds (first :: front) := by
  constructor
  · rintro ⟨front, rest, split, holds⟩
    cases front with
    | nil =>
      cases split
      exact .inl ⟨rfl, holds⟩
    | cons head front =>
      cases split
      exact .inr ⟨front, rest, rfl, holds⟩
  · rintro (⟨rfl, holds⟩ | ⟨front, rest, rfl, holds⟩)
    · exact ⟨[], items, rfl, holds⟩
    · exact ⟨first :: front, rest, rfl, holds⟩

/-- Reversing a list reverses the two sides of each position. -/
theorem exists_split_reverse {target : α} {Holds : List α → Prop} :
    (∃ front rest, items.reverse = front ++ target :: rest ∧ Holds front) ↔
      ∃ front rest, items = front ++ target :: rest ∧ Holds rest.reverse := by
  constructor
  · rintro ⟨front, rest, split, holds⟩
    refine ⟨rest.reverse, front.reverse, ?_, by simpa using holds⟩
    rw [← reverse_reverse items, split]
    simp
  · rintro ⟨front, rest, rfl, holds⟩
    exact ⟨rest.reverse, front.reverse, by simp, holds⟩

/-- Membership among the first filtered entries, by position. -/
theorem mem_take_filter_iff {keep : α → Bool} {target : α} {count : Nat} :
    target ∈ (items.filter keep).take count ↔
      ∃ front rest, items = front ++ target :: rest ∧
        (keep target ∧ front.countP keep < count) := by
  induction items generalizing count with
  | nil => simp
  | cons item items ih =>
    rw [exists_split_cons]
    cases kept : keep item with
    | false =>
      rw [filter_cons_of_neg (by simp [kept]), ih]
      simp only [countP_cons, kept, Bool.false_eq_true, if_false, Nat.add_zero]
      constructor
      · exact .inr
      · rintro (⟨rfl, isKept, -⟩ | later)
        · simp [kept] at isKept
        · exact later
    | true =>
      rw [filter_cons_of_pos kept]
      cases count with
      | zero => simp
      | succ count =>
        rw [take_succ_cons, mem_cons, ih]
        simp only [countP_cons, kept, if_true, countP_nil,
          Nat.add_lt_add_iff_right, Nat.zero_lt_succ, and_true]
        constructor
        · rintro (rfl | later)
          · exact .inl ⟨rfl, kept⟩
          · exact .inr later
        · rintro (⟨same, -⟩ | later)
          · exact .inl same
          · exact .inr later

/-! ## Writing at an index -/

variable {index : Nat} {old : α}

/-- Writing replaces one summand. -/
theorem sum_map_set (size : α → Nat) (read : items[index]? = some old) (new : α) :
    ((items.set index new).map size).sum + size old = (items.map size).sum + size new := by
  induction items generalizing index with
  | nil => simp at read
  | cons item items ih =>
    cases index with
    | zero =>
      rw [getElem?_cons_zero, Option.some.injEq] at read
      simp only [set_cons_zero, map_cons, sum_cons, read]
      omega
    | succ index =>
      have rest := ih read
      simp only [set_cons_succ, map_cons, sum_cons]
      omega

theorem getElem?_concat (items : List α) (last : α) (index : Nat) :
    (items ++ [last])[index]? = if index = items.length then some last else items[index]? := by
  split
  · rename_i same
    rw [same, getElem?_concat_length]
  · rename_i differs
    rcases Nat.lt_or_gt_of_ne differs with below | above
    · rw [getElem?_append_left below]
    · rw [getElem?_eq_none (Nat.le_of_lt above), getElem?_eq_none]
      rw [length_append, length_singleton]
      exact above

theorem getElem?_set_of_some (read : items[index]? = some old) (new : α) (other : Nat) :
    (items.set index new)[other]? = if other = index then some new else items[other]? := by
  by_cases same : other = index
  · rw [if_pos same, same, List.getElem?_set_self (List.getElem?_eq_some_iff.mp read).1]
  · rw [if_neg same, getElem?_set_ne (Ne.symm same)]

theorem bind_ite_eq_some {β : Type*} {found : Option α} {guard : α → Prop} [DecidablePred guard]
    {operation : α → Option β} {next : β}
    (stepped : (found.bind fun item => if guard item then operation item else none) = some next) :
    ∃ item, found = some item ∧ guard item ∧ operation item = some next := by
  obtain ⟨item, isItem, stepped⟩ := Option.bind_eq_some_iff.mp stepped
  split at stepped
  · rename_i met
    exact ⟨item, isItem, met, stepped⟩
  · cases stepped

/-- One item is put at an index, in the place of another or behind the last. -/
def Puts (items : List α) (index : Nat) (item : α) (next : List α) : Prop :=
  ∀ other : Nat, next[other]? = if other = index then some item else items[other]?

variable {item : α}

theorem Puts.eq_or {next : List α} {other : Nat} {found : α}
    (puts : Puts items index item next) (read : next[other]? = some found) :
    other = index ∧ found = item ∨ other ≠ index ∧ items[other]? = some found := by
  rw [puts] at read
  split at read
  · rename_i same
    exact .inl ⟨same, (Option.some.inj read).symm⟩
  · rename_i differs
    exact .inr ⟨differs, read⟩

/-- What an item has that its successor has, too. -/
theorem Puts.keeps {next : List α} {other : Nat} {Has : α → Prop}
    (puts : Puts items index item next) (had : ∃ found, items[other]? = some found ∧ Has found)
    (passes : ∀ found, other = index → items[index]? = some found → Has found → Has item) :
    ∃ found, next[other]? = some found ∧ Has found := by
  obtain ⟨found, read, has⟩ := had
  rw [puts]
  split
  · rename_i same
    exact ⟨item, rfl, passes found same (same ▸ read) has⟩
  · exact ⟨found, read, has⟩

theorem puts_set (read : items[index]? = some old)
    (new : α) : Puts items index new (items.set index new) :=
  getElem?_set_of_some read new

theorem puts_concat (items : List α) (new : α) : Puts items items.length new (items ++ [new]) :=
  getElem?_concat items new

theorem set_eq_self (read : items[index]? = some item) : items.set index item = items := by
  obtain ⟨bound, rfl⟩ := List.getElem?_eq_some_iff.mp read
  exact set_getElem_self bound

theorem drop_set_self (read : items[index]? = some old)
    (new : α) : (items.set index new).drop index = new :: items.drop (index + 1) := by
  induction items generalizing index with
  | nil => simp at read
  | cons item items ih =>
    cases index with
    | zero => rfl
    | succ index => exact ih read

/-- Changing a function at one key changes the mapped list at one index. -/
theorem map_eq_set {κ γ : Type u} {key : α → κ} (distinct : (items.map key).Nodup)
    (located : items[index]? = some item) {before after : α → γ}
    (elsewhere : ∀ other, key other ≠ key item → after other = before other) :
    items.map after = (items.map before).set index (after item) := by
  induction items generalizing index with
  | nil => simp at located
  | cons first items ih =>
    rw [map_cons, nodup_cons] at distinct
    cases index with
    | zero =>
      rw [getElem?_cons_zero, Option.some.injEq] at located
      subst located
      rw [map_cons, map_cons, set_cons_zero]
      congr 1
      apply map_congr_left
      intro other mem
      apply elsewhere
      intro same
      exact distinct.1 (same ▸ mem_map_of_mem mem)
    | succ index =>
      have apart : key first ≠ key item := fun same =>
        distinct.1 (same ▸ mem_map_of_mem (mem_of_getElem? located))
      rw [map_cons, map_cons, set_cons_succ, elsewhere first apart, ih distinct.2 located]

variable {others : List β}

/-- Writing a related value at an index keeps a pointwise relation. -/
theorem forall₂_set_right {Rel : α → β → Prop} (related : Forall₂ Rel items others) {new : β}
    (read : items[index]? = some item) (fits : Rel item new) :
    Forall₂ Rel items (others.set index new) := by
  induction related generalizing index with
  | nil => exact .nil
  | cons head tail ih =>
    cases index with
    | zero =>
      rw [getElem?_cons_zero, Option.some.injEq] at read
      subst read
      exact .cons fits tail
    | succ index => exact .cons head (ih read)

/-- Writing a related value keeps a reflexive pointwise relation. -/
theorem forall₂_set {Rel : α → α → Prop} (refl : ∀ item ∈ items, Rel item item) {new : α}
    (read : items[index]? = some old) (related : Rel old new) :
    Forall₂ Rel items (items.set index new) :=
  forall₂_set_right (forall₂_same.mpr refl) read related

theorem forall₂_trans {Rel : α → α → Prop}
    (trans : ∀ first second third, Rel first second → Rel second third → Rel first third)
    {first second third : List α} (left : Forall₂ Rel first second)
    (right : Forall₂ Rel second third) : Forall₂ Rel first third := by
  induction left generalizing third with
  | nil => exact right
  | cons head _ ih =>
    cases right with
    | cons head' tail' => exact .cons (trans _ _ _ head head') (ih tail')

theorem exists_getElem?_of_forall₂ {Rel : α → β → Prop} (related : Forall₂ Rel items others)
    (read : items[index]? = some item) :
    ∃ other, others[index]? = some other ∧ Rel item other := by
  induction related generalizing index with
  | nil => cases read
  | cons head _ ih =>
    cases index with
    | zero =>
      rw [getElem?_cons_zero, Option.some.injEq] at read
      exact ⟨_, rfl, read ▸ head⟩
    | succ index => exact ih read

theorem filterMap_eq_of_forall₂ {Rel : α → α → Prop} {select : α → Option β}
    (agree : ∀ item other, Rel item other → select item = select other) {others : List α}
    (related : Forall₂ Rel items others) : items.filterMap select = others.filterMap select := by
  induction related with
  | nil => rfl
  | cons head _ ih => rw [filterMap_cons, filterMap_cons, agree _ _ head, ih]

/-- Elements paired by position have equal images when the mapped lists agree. -/
theorem eq_of_mem_zip {γ : Type*} {first : α → γ} {second : β → γ}
    (same : items.map first = others.map second) {pair : α × β}
    (mem : pair ∈ items.zip others) : first pair.1 = second pair.2 := by
  induction items generalizing others with
  | nil => simp at mem
  | cons item items ih =>
    cases others with
    | nil => simp at mem
    | cons other others =>
      rw [map_cons, map_cons, List.cons.injEq] at same
      rw [zip_cons_cons, mem_cons] at mem
      rcases mem with rfl | later
      · exact same.1
      · exact ih same.2 later

/-! ## Loops that can fail -/

theorem mapM_eq_some {step : α → Option β} {value : α → β}
    (succeeds : ∀ item ∈ items, step item = some (value item)) :
    items.mapM step = some (items.map value) := by
  induction items with
  | nil => rfl
  | cons item items ih =>
    rw [mapM_cons, succeeds item mem_cons_self,
      ih fun other mem => succeeds other (mem_cons_of_mem _ mem)]
    rfl

/-- A loop that reads each value before it uses it. -/
theorem foldlM_read {γ σ : Type*} {read : α → Option γ} {values : List γ}
    (reads : items.map read = values.map some) (use : σ → γ → σ) (state : σ) :
    (items.foldlM (fun state item => (read item).map (use state)) state) =
      some (values.foldl use state) := by
  induction items generalizing values state with
  | nil =>
    cases values with
    | nil => rfl
    | cons value values => simp at reads
  | cons item items ih =>
    cases values with
    | nil => simp at reads
    | cons value values =>
      rw [map_cons, map_cons, List.cons.injEq] at reads
      rw [foldlM_cons, reads.1]
      exact ih reads.2 (use state value)

/-- A loop counting down from `count`, with an invariant that depends on how
many indices are left. -/
theorem foldlM_countdown {step : β → Nat → Option β} (Holds : Nat → β → Prop) (count : Nat)
    (keeps : ∀ index < count, ∀ state, Holds (index + 1) state →
      ∃ next, step state index = some next ∧ Holds index next)
    {state : β} (holds : Holds count state) :
    ∃ final, (List.range count).reverse.foldlM step state = some final ∧ Holds 0 final := by
  induction count generalizing state with
  | zero => exact ⟨state, rfl, holds⟩
  | succ count ih =>
    obtain ⟨next, stepped, nextHolds⟩ := keeps count (Nat.lt_succ_self count) state holds
    obtain ⟨final, looped, finalHolds⟩ :=
      ih (fun index less => keeps index (Nat.lt_succ_of_lt less)) nextHolds
    refine ⟨final, ?_, finalHolds⟩
    rw [range_succ, reverse_append, reverse_singleton, singleton_append, foldlM_cons, stepped]
    exact looped

/-- A strictly decreasing list of numbers below a bound is no longer than it. -/
theorem length_le_of_decreasing {positions : List Nat} (decreasing : positions.Pairwise (· > ·))
    {bound : Nat} (below : ∀ position ∈ positions, position < bound) :
    positions.length ≤ bound := by
  induction positions generalizing bound with
  | nil => exact Nat.zero_le _
  | cons first rest ih =>
    rw [pairwise_cons] at decreasing
    have shorter := ih decreasing.2 decreasing.1
    exact Nat.succ_le_of_lt (Nat.lt_of_le_of_lt shorter (below first mem_cons_self))

/-! ## Related lists -/

section Related

variable {R : α → β → Prop} {left : List α} {right : List β}

theorem exists_related_of_mem_right (related : Forall₂ R left right) {item : β}
    (mem : item ∈ right) : ∃ other ∈ left, R other item := by
  induction related with
  | nil => cases mem
  | cons first rest ih =>
    rcases mem_cons.mp mem with rfl | later
    · exact ⟨_, mem_cons_self, first⟩
    · obtain ⟨other, inside, holds⟩ := ih later
      exact ⟨other, mem_cons_of_mem _ inside, holds⟩

theorem forall₂_of_mem_right {S : α → β → Prop} (related : Forall₂ R left right)
    (stronger : ∀ item ∈ right, ∀ other, R other item → S other item) :
    Forall₂ S left right := by
  induction related with
  | nil => exact .nil
  | cons first rest ih =>
    refine .cons (stronger _ mem_cons_self _ first) (ih fun item mem => ?_)
    exact stronger item (mem_cons_of_mem _ mem)

end Related

/-! ## Filtered lists that grow at the end -/

theorem filterMap_concat_some {f : α → Option β} {picked : β}
    (some : f item = some picked) (items : List α) :
    (items ++ [item]).filterMap f = items.filterMap f ++ [picked] := by
  rw [filterMap_append, filterMap_cons_some some, filterMap_nil]

theorem filterMap_concat_none {f : α → Option β} (none : f item = none)
    (items : List α) : (items ++ [item]).filterMap f = items.filterMap f := by
  rw [filterMap_append, filterMap_cons_none none, filterMap_nil, append_nil]

end Mentra.Foundation.Lists
