import Mentra.Foundation.OrderedMap

/-!
# Small machines kept in a map

A map holds one small machine for each key, and every event is addressed to a
key.  An event may be refused; then the whole run fails.  What happens at one
key depends on the events addressed to it alone, so a run over the map is one
run for each key.
-/

namespace Mentra.Foundation.Slots

open List Option OrderedMap

variable {κ ε β : Type} [LinearOrder κ]

/-- The events addressed to a key, in order. -/
def addressedTo (key : κ) (events : List (κ × ε)) : List ε :=
  events.filterMap fun event => if event.1 = key then some event.2 else none

/-- Feed events to one slot.  A step takes the slot as it is, perhaps empty, and
fills it or refuses. -/
def slotRun (step : Option β → ε → Option β) : Option β → List ε → Option (Option β)
  | slot, [] => some slot
  | slot, event :: events =>
    (step slot event).bind fun next => slotRun step (some next) events

/-- Feed addressed events to a map of slots. -/
def mapRun (step : Option β → ε → Option β) :
    OrderedMap κ β → List (κ × ε) → Option (OrderedMap κ β)
  | map, [] => some map
  | map, (key, event) :: events =>
    (step (map.get? key) event).bind fun next => mapRun step (map.insert key next) events

section Addressed

variable (key : κ) (event : ε) (events others : List (κ × ε))

@[simp]
theorem addressedTo_nil : addressedTo key ([] : List (κ × ε)) = [] :=
  rfl

@[simp]
theorem addressedTo_cons_self :
    addressedTo key ((key, event) :: events) = event :: addressedTo key events := by
  simp [addressedTo]

theorem addressedTo_cons_of_ne {key other : κ} (differs : other ≠ key) :
    addressedTo other ((key, event) :: events) = addressedTo other events := by
  simp [addressedTo, differs.symm]

@[simp]
theorem addressedTo_append :
    addressedTo key (events ++ others) = addressedTo key events ++ addressedTo key others :=
  filterMap_append

variable {key event events}

theorem mem_of_mem_addressedTo (mem : event ∈ addressedTo key events) :
    event ∈ events.map Prod.snd := by
  obtain ⟨entry, memEntry, same⟩ := mem_filterMap.mp mem
  exact mem_map.mpr ⟨entry, memEntry, by grind⟩

end Addressed

theorem addressedTo_entries (map : OrderedMap κ β) (key : κ) :
    addressedTo key map.entries = (map.get? key).toList := by
  obtain ⟨entries, sorted⟩ := map
  simp only [get?]
  induction entries with
  | nil => rfl
  | cons entry entries ih =>
    obtain ⟨first, value⟩ := entry
    obtain ⟨smallest, sortedRest⟩ := pairwise_cons.mp sorted
    by_cases here : first = key
    · subst here
      have none := find?_eq_none_of_before smallest
      rw [addressedTo_cons_self, ih sortedRest, none]
      simp
    · rw [addressedTo_cons_of_ne _ _ (Ne.symm here), ih sortedRest,
        find?_cons_of_neg (by simpa using here)]

variable {map : OrderedMap κ β}

theorem mem_entries_iff {key : κ} {value : β} :
    (key, value) ∈ map.entries ↔ map.get? key = some value := by
  rw [← mem_toList, ← addressedTo_entries, addressedTo, mem_filterMap]
  constructor
  · intro mem
    exact ⟨(key, value), mem, if_pos rfl⟩
  · rintro ⟨⟨other, found⟩, mem, picked⟩
    split at picked
    · rename_i same
      cases picked
      exact same ▸ mem
    · cases picked

variable {events : List (κ × ε)}

/-- Events sorted by the keys they are addressed to. -/
theorem perm_flatMap_addressedTo {keys : List κ} (nodup : keys.Nodup)
    (covered : ∀ event ∈ events, event.1 ∈ keys) :
    (keys.flatMap fun key => addressedTo key events).Perm (events.map Prod.snd) := by
  induction events with
  | nil => simp
  | cons entry events ih =>
    obtain ⟨addressee, event⟩ := entry
    have others := ih fun event mem => covered event (mem_cons_of_mem _ mem)
    obtain ⟨before, after, rfl⟩ := append_of_mem (covered _ mem_cons_self)
    have absent := (nodup_middle.mp nodup)
    rw [nodup_cons, mem_append, not_or] at absent
    have unchanged : ∀ keys : List κ, addressee ∉ keys →
        keys.flatMap (fun key => addressedTo key ((addressee, event) :: events)) =
          keys.flatMap fun key => addressedTo key events := by
      intro keys notMem
      apply flatMap_congr
      intro key mem
      exact addressedTo_cons_of_ne _ _ (ne_of_mem_of_not_mem mem notMem)
    rw [flatMap_append, flatMap_cons] at others ⊢
    rw [unchanged before absent.1.1, unchanged after absent.1.2, addressedTo_cons_self,
      cons_append, map_cons]
    exact perm_middle.trans (others.cons event)

variable {step : Option β → ε → Option β}

theorem slotRun_cons_eq_some_iff {slot final : Option β} {event : ε} {events : List ε} :
    slotRun step slot (event :: events) = some final ↔
      ∃ next, step slot event = some next ∧ slotRun step (some next) events = some final :=
  bind_eq_some_iff

theorem mapRun_cons_eq_some_iff {final : OrderedMap κ β} {key : κ} {event : ε} :
    mapRun step map ((key, event) :: events) = some final ↔
      ∃ next, step (map.get? key) event = some next ∧
        mapRun step (map.insert key next) events = some final :=
  bind_eq_some_iff

theorem slotRun_append (slot : Option β) (first second : List ε) :
    slotRun step slot (first ++ second) =
      (slotRun step slot first).bind fun middle => slotRun step middle second := by
  induction first generalizing slot with
  | nil => rfl
  | cons event first ih =>
    rw [cons_append, slotRun, slotRun, bind_assoc]
    congr 1
    funext next
    exact ih (some next)

theorem slotRun_isSome {slot final : Option β} {events : List ε}
    (done : slotRun step slot events = some final) (filled : slot.isSome ∨ events ≠ []) :
    final.isSome := by
  induction events generalizing slot with
  | nil =>
    cases done
    exact filled.resolve_right (not_not_intro rfl)
  | cons event events ih =>
    obtain ⟨next, stepped, rest⟩ := slotRun_cons_eq_some_iff.mp done
    exact ih rest (.inl rfl)

theorem mapRun_append (map : OrderedMap κ β) (first second : List (κ × ε)) :
    mapRun step map (first ++ second) =
      (mapRun step map first).bind fun middle => mapRun step middle second := by
  induction first generalizing map with
  | nil => rfl
  | cons entry first ih =>
    obtain ⟨key, event⟩ := entry
    rw [cons_append, mapRun, mapRun, bind_assoc]
    congr 1
    funext next
    exact ih (map.insert key next)

/-- After a run over the map, each slot is as its own run leaves it. -/
theorem slotRun_of_mapRun {final : OrderedMap κ β}
    (done : mapRun step map events = some final) (key : κ) :
    slotRun step (map.get? key) (addressedTo key events) = some (final.get? key) := by
  induction events generalizing map with
  | nil =>
    cases done
    rfl
  | cons entry events ih =>
    obtain ⟨addressee, event⟩ := entry
    obtain ⟨next, stepped, rest⟩ := mapRun_cons_eq_some_iff.mp done
    have later := ih rest
    by_cases here : key = addressee
    · subst here
      rw [get?_insert_self] at later
      rw [addressedTo_cons_self, slotRun_cons_eq_some_iff]
      exact ⟨next, stepped, later⟩
    · rw [get?_insert_of_ne here] at later
      rw [addressedTo_cons_of_ne _ _ here]
      exact later

/-- A run over the map succeeds when the run of every slot does. -/
theorem exists_mapRun
    (runs : ∀ key, ∃ slot, slotRun step (map.get? key) (addressedTo key events) = some slot) :
    ∃ final, mapRun step map events = some final := by
  induction events generalizing map with
  | nil => exact ⟨map, rfl⟩
  | cons entry events ih =>
    obtain ⟨addressee, event⟩ := entry
    obtain ⟨slot, first⟩ := runs addressee
    rw [addressedTo_cons_self, slotRun_cons_eq_some_iff] at first
    obtain ⟨next, stepped, rest⟩ := first
    have others : ∀ key, ∃ slot, slotRun step ((map.insert addressee next).get? key)
        (addressedTo key events) = some slot := by
      intro key
      by_cases here : key = addressee
      · subst here
        exact ⟨slot, by rwa [get?_insert_self]⟩
      · obtain ⟨later, run⟩ := runs key
        rw [addressedTo_cons_of_ne _ _ here] at run
        exact ⟨later, by rwa [get?_insert_of_ne here]⟩
    obtain ⟨final, done⟩ := ih others
    exact ⟨final, mapRun_cons_eq_some_iff.mpr ⟨next, stepped, done⟩⟩

end Mentra.Foundation.Slots
