import Mentra.Foundation.ParentLinks
import Mentra.Foundation.Transition
import Mentra.Transcript.Core

/-!
# The transcript as a tree

`WellFormed` is the invariant that pushing and branching keep: ids are distinct, the active
path is a chain of parent links from a root, every archived entry has a parent in the tree, and
every entry can be reached from a root.  So on a present id the walk of `branchFrom` up the
parent links succeeds, and the entries it names are the ones moved onto the active path.
-/

namespace Mentra.AgentTranscript

open Mentra.Foundation List Transition
open Mentra.Foundation.ParentLinks

variable {V : Type}

/-- The path relation of `ParentLinks` at transcript entries. -/
abbrev IsPath (nodes : List (TranscriptItem V)) (item : TranscriptItem V)
    (path : List (TranscriptItem V)) : Prop :=
  IsPathTo TranscriptItem.id TranscriptItem.parentId nodes item path

/-- The active path is a chain: its first entry has no parent and the parent of
every later entry is the entry just before it. -/
abbrev IsChain (items : List (TranscriptItem V)) : Prop :=
  Linked TranscriptItem.id TranscriptItem.parentId none items

/-- The shape every transcript built by pushes and branch switches has. -/
structure WellFormed (transcript : AgentTranscript V) : Prop where
  distinct : transcript.ids.Nodup
  active : IsChain transcript.items
  archived : ∀ item ∈ transcript.archive,
    ∃ parent, item.parentId = some parent ∧ parent ∈ transcript.ids
  rooted : Rooted TranscriptItem.id TranscriptItem.parentId transcript.entries

variable {transcript : AgentTranscript V} {item : TranscriptItem V}

theorem mem_ids (mem : item ∈ transcript.entries) : item.id ∈ transcript.ids :=
  mem_map_of_mem mem

theorem exists_mem_entries {id : EntryId}
    (mem : id ∈ transcript.ids) : ∃ item ∈ transcript.entries, item.id = id :=
  mem_map.mp mem

theorem wellFormed_empty : WellFormed ({} : AgentTranscript V) where
  distinct := nodup_nil
  active := trivial
  archived := by
    intro item mem
    cases mem
  rooted := by
    intro item mem
    cases mem

/-! ## Pushing -/

theorem entries_push_perm (transcript : AgentTranscript V) (item : TranscriptItem V) :
    (transcript.push item).entries.Perm
      ({ item with parentId := transcript.leaf } :: transcript.entries) := by
  simp only [entries, push, append_assoc, singleton_append]
  exact perm_middle

theorem ids_push_perm (transcript : AgentTranscript V) (item : TranscriptItem V) :
    (transcript.push item).ids.Perm (item.id :: transcript.ids) := by
  simpa [ids] using (entries_push_perm transcript item).map TranscriptItem.id

theorem isChain_push (active : IsChain transcript.items)
    (item : TranscriptItem V) : IsChain (transcript.push item).items := by
  refine (linked_concat none transcript.items _).mpr ⟨active, ?_⟩
  simp [leaf, lastKey]

/-- A push keeps the tree well formed when the entry's id is new. -/
theorem WellFormed.push (wellFormed : transcript.WellFormed) (fresh : item.id ∉ transcript.ids) :
    (transcript.push item).WellFormed where
  distinct := by
    rw [(ids_push_perm transcript item).nodup_iff]
    exact nodup_cons.mpr ⟨fresh, wellFormed.distinct⟩
  active := isChain_push wellFormed.active item
  archived := by
    intro archivedItem mem
    obtain ⟨parent, parent_eq, present⟩ := wellFormed.archived archivedItem mem
    refine ⟨parent, parent_eq, ?_⟩
    exact (ids_push_perm transcript item).mem_iff.mpr (mem_cons_of_mem _ present)
  rooted := by
    intro node mem
    have grow : ∀ visited ∈ transcript.entries, visited ∈ (transcript.push item).entries :=
      fun visited visitedMem =>
        (entries_push_perm transcript item).mem_iff.mpr (mem_cons_of_mem _ visitedMem)
    rcases mem_cons.mp ((entries_push_perm transcript item).mem_iff.mp mem) with rfl | old
    · -- The new leaf is reached along the extended active path.
      refine ⟨(transcript.push item).items, isChain_push wellFormed.active item, ?_, ?_⟩
      · intro visited visitedMem
        exact mem_append_left _ visitedMem
      · simp [AgentTranscript.push]
    · obtain ⟨path, isPath⟩ := wellFormed.rooted node old
      exact ⟨path, isPath.mono grow⟩

/-! ## The walk to the root -/

/-- Walking up from the end of a chain records exactly the chain's ids. -/
theorem pathLoop_eq (distinct : transcript.ids.Nodup) (target : EntryId)
    (path : List (TranscriptItem V)) (room : Nat) (walked : List EntryId) (chain : IsChain path)
    (present : ∀ item ∈ path, item ∈ transcript.entries) (fits : path.length ≤ room) :
    transcript.pathLoop target room (lastKey TranscriptItem.id none path) walked =
      .ok (path.map TranscriptItem.id ++ walked) := by
  induction path using List.reverseRecOn generalizing room walked with
  | nil => simp [pathLoop]
  | append_singleton front item ih =>
    obtain ⟨frontChain, parent_eq⟩ := (linked_concat none front item).mp chain
    have itemMem : item ∈ transcript.entries := present item (by simp)
    have frontPresent : ∀ other ∈ front, other ∈ transcript.entries :=
      fun other mem => present other (mem_append_left _ mem)
    cases room with
    | zero => simp at fits
    | succ room =>
      have frontFits : front.length ≤ room := by simpa using fits
      rw [lastKey_concat, pathLoop, entry, find?_key_eq_some distinct itemMem]
      simp only [parent_eq]
      rw [ih room (item.id :: walked) frontChain frontPresent frontFits]
      simp

/-- In a well-formed tree `pathTo` returns the ids of the path to the entry. -/
theorem pathTo_eq (wellFormed : transcript.WellFormed) {path : List (TranscriptItem V)}
    (isPath : IsPath transcript.entries item path) :
    transcript.pathTo item.id = .ok (path.map TranscriptItem.id) := by
  have start : some item.id = lastKey TranscriptItem.id none path := by
    simp [lastKey, isPath.last]
  have fits : path.length ≤ transcript.items.length + transcript.archive.length := by
    have bound := isPath.length_le wellFormed.distinct
    simpa [entries] using bound
  rw [pathTo, start, pathLoop_eq wellFormed.distinct item.id path _ [] isPath.linked
    isPath.subset fits, append_nil]

/-! ## Taking a path out of the tree -/

/-- The tree without the entries whose ids are in `path`. -/
def without (transcript : AgentTranscript V) (path : List EntryId) : AgentTranscript V where
  items := transcript.items.filter fun item => item.id ∉ path
  archive := transcript.archive.filter fun item => item.id ∉ path

theorem without_nil (transcript : AgentTranscript V) : transcript.without [] = transcript := by
  simp [without]

theorem without_without (transcript : AgentTranscript V) (id : EntryId) (path : List EntryId) :
    (transcript.without [id]).without path = transcript.without (id :: path) := by
  simp only [without, filter_filter, mem_cons, not_mem_nil, or_false, not_or, mk.injEq]
  constructor <;>
  · apply filter_congr
    intro item _
    simp [Bool.and_comm]

theorem mem_entries_without {path : List EntryId} :
    item ∈ (transcript.without path).entries ↔ item ∈ transcript.entries ∧ item.id ∉ path := by
  simp only [entries, without, mem_append, mem_filter, decide_eq_true_iff]
  tauto

theorem ids_without_sublist (transcript : AgentTranscript V) (path : List EntryId) :
    (transcript.without path).ids.Sublist transcript.ids := by
  apply Sublist.map
  exact Sublist.append filter_sublist filter_sublist

theorem takeAnywhere_eq (distinct : transcript.ids.Nodup) (mem : item ∈ transcript.entries) :
    transcript.takeAnywhere item.id = some (item, transcript.without [item.id]) := by
  have parts := distinct
  rw [ids, entries, map_append, nodup_append] at parts
  obtain ⟨itemsDistinct, archiveDistinct, disjoint⟩ := parts
  -- The entry sits in one list only, so filtering the other changes nothing.
  have unaffected : ∀ nodes : List (TranscriptItem V), item.id ∉ nodes.map TranscriptItem.id →
      (nodes.filter fun other => decide (other.id ∉ [item.id])) = nodes := by
    intro nodes absent
    rw [filter_eq_self]
    intro other otherMem
    simp only [mem_singleton, decide_eq_true_iff]
    intro equal
    exact absent (equal ▸ mem_map_of_mem otherMem)
  have inActive : item ∈ transcript.items →
      item.id ∉ transcript.archive.map TranscriptItem.id := fun active archived =>
    disjoint _ (mem_map_of_mem active) _ archived rfl
  rcases mem_append.mp mem with active | archived
  · rw [takeAnywhere, find?_key_eq_some itemsDistinct active]
    simp only [eraseP_key_eq_filter _ itemsDistinct, without, unaffected _ (inActive active)]
    simp
  · have notActive : item.id ∉ transcript.items.map TranscriptItem.id := fun active =>
      disjoint _ active _ (mem_map_of_mem archived) rfl
    have missing : (transcript.items.find? fun other => other.id = item.id) = none := by
      rw [find?_eq_none]
      intro other otherMem equal
      apply notActive
      rw [← decide_eq_true_iff.mp equal]
      exact mem_map_of_mem otherMem
    rw [takeAnywhere, missing]
    simp only [find?_key_eq_some archiveDistinct archived,
      eraseP_key_eq_filter _ archiveDistinct, without, unaffected _ notActive]
    simp

/-- Taking a duplicate-free list of present entries returns them in order and
leaves the rest of the tree where it was. -/
theorem takePath_eq (distinct : transcript.ids.Nodup)
    (path : List (TranscriptItem V)) (pathDistinct : (path.map TranscriptItem.id).Nodup)
    (present : ∀ item ∈ path, item ∈ transcript.entries) :
    takePath (path.map TranscriptItem.id) transcript =
      some (path, transcript.without (path.map TranscriptItem.id)) := by
  induction path generalizing transcript with
  | nil => simp [takePath, without_nil]
  | cons item path ih =>
    rw [map_cons, nodup_cons] at pathDistinct
    have itemMem : item ∈ transcript.entries := present item mem_cons_self
    have distinct' : (transcript.without [item.id]).ids.Nodup :=
      distinct.sublist (ids_without_sublist transcript [item.id])
    have present' : ∀ other ∈ path, other ∈ (transcript.without [item.id]).entries := by
      intro other mem
      refine mem_entries_without.mpr ⟨present other (mem_cons_of_mem _ mem), ?_⟩
      rw [mem_singleton]
      intro equal
      exact pathDistinct.1 (equal ▸ mem_map_of_mem mem)
    rw [map_cons, takePath, takeAnywhere_eq distinct itemMem]
    simp only [Option.bind_eq_bind, Option.bind_some, ih distinct' pathDistinct.2 present',
      without_without]
    rfl

/-! ## Branching -/

/-- A branch to `item`: the active path becomes the path to `item`, no entry is lost or
duplicated, and the count is the number of active entries that left the path. -/
structure Branched (before : AgentTranscript V) (item : TranscriptItem V) (left : Nat)
    (after : AgentTranscript V) : Prop where
  path : IsPath before.entries item after.items
  perm : after.entries.Perm before.entries
  count : left = before.items.countP fun active => active.id ∉ after.items.map TranscriptItem.id

theorem branchFrom_active (wellFormed : transcript.WellFormed) (mem : item ∈ transcript.items) :
    ∃ left after, transcript.branchFrom item.id = .ok (left, after) ∧
      Branched transcript item left after := by
  obtain ⟨front, rest, split⟩ := append_of_mem mem
  have itemsDistinct : (transcript.items.map TranscriptItem.id).Nodup := by
    have distinct := wellFormed.distinct
    rw [ids, entries, map_append, nodup_append] at distinct
    exact distinct.1
  rw [split, map_append, map_cons, nodup_append] at itemsDistinct
  obtain ⟨-, restDistinct, frontDisjoint⟩ := itemsDistinct
  have position : (transcript.items.findIdx? fun other => other.id = item.id) =
      some front.length := by
    rw [split, findIdx?_append]
    have missing : (front.findIdx? fun other => decide (other.id = item.id)) = none := by
      rw [findIdx?_eq_none_iff]
      intro other otherMem
      rw [decide_eq_false_iff_not]
      exact frontDisjoint _ (mem_map_of_mem otherMem) _ mem_cons_self
    rw [missing]
    simp [findIdx?_cons]
  have kept : transcript.items.take (front.length + 1) = front ++ [item] := by
    rw [split, show front ++ item :: rest = (front ++ [item]) ++ rest by simp]
    exact take_left' (by simp)
  have dropped : transcript.items.drop (front.length + 1) = rest := by
    rw [split, show front ++ item :: rest = (front ++ [item]) ++ rest by simp]
    exact drop_left' (by simp)
  refine ⟨rest.length, ⟨front ++ [item], transcript.archive ++ rest⟩, ?_, ?_, ?_, ?_⟩
  · simp only [branchFrom, position, kept, dropped]
  · have whole : IsPath transcript.items item (front ++ [item]) := by
      refine ⟨?_, ?_, by simp⟩
      · have active := wellFormed.active
        rw [split, show front ++ item :: rest = (front ++ [item]) ++ rest by simp] at active
        exact active.front
      · intro visited visitedMem
        rw [split]
        simp only [mem_append, mem_cons] at visitedMem ⊢
        tauto
    exact whole.mono fun visited visitedMem => mem_append_left _ visitedMem
  · simp only [entries, split]
    rw [show front ++ item :: rest ++ transcript.archive =
      (front ++ [item]) ++ (rest ++ transcript.archive) by simp]
    exact Perm.append_left _ perm_append_comm
  · -- None of the abandoned entries is on the kept part, all of the kept are.
    rw [split, show front ++ item :: rest = (front ++ [item]) ++ rest by simp, countP_append]
    have keptCount : (front ++ [item]).countP (fun active =>
        decide (active.id ∉ (front ++ [item]).map TranscriptItem.id)) = 0 := by
      rw [countP_eq_zero]
      intro active activeMem
      rw [decide_eq_true_iff, not_not]
      exact mem_map_of_mem activeMem
    have restCount : rest.countP (fun active =>
        decide (active.id ∉ (front ++ [item]).map TranscriptItem.id)) = rest.length := by
      rw [countP_eq_length]
      intro active activeMem
      rw [decide_eq_true_iff, map_append, mem_append]
      rintro (inFront | isItem)
      · exact frontDisjoint _ inFront _ (mem_cons_of_mem _ (mem_map_of_mem activeMem)) rfl
      · rw [map_singleton, mem_singleton] at isItem
        exact (nodup_cons.mp restDistinct).1 (isItem ▸ mem_map_of_mem activeMem)
    rw [keptCount, restCount, Nat.zero_add]

/-- Branching to an archived entry of a well-formed tree. -/
theorem branchFrom_archived (wellFormed : transcript.WellFormed)
    (archived : item ∈ transcript.archive)
    (notActive : item.id ∉ transcript.items.map TranscriptItem.id) :
    ∃ left after, transcript.branchFrom item.id = .ok (left, after) ∧
      Branched transcript item left after := by
  have mem : item ∈ transcript.entries := mem_append_right _ archived
  obtain ⟨path, isPath⟩ := wellFormed.rooted item mem
  have pathDistinct : (path.map TranscriptItem.id).Nodup := by
    refine (isPath.nodup wellFormed.distinct).map_on ?_
    intro first firstMem second secondMem equal
    exact inj_on_of_nodup_map wellFormed.distinct (isPath.subset first firstMem)
      (isPath.subset second secondMem) equal
  let rest := transcript.without (path.map TranscriptItem.id)
  refine ⟨rest.items.length, ⟨path, rest.archive ++ rest.items⟩, ?_, isPath, ?_, ?_⟩
  · have missing : (transcript.items.findIdx? fun other => other.id = item.id) = none := by
      rw [findIdx?_eq_none_iff]
      intro other otherMem
      rw [decide_eq_false_iff_not]
      intro equal
      exact notActive (equal ▸ mem_map_of_mem otherMem)
    have found : (transcript.archive.any fun other => other.id = item.id) = true := by
      rw [any_eq_true]
      exact ⟨item, archived, by simp⟩
    simp only [branchFrom, missing, found, if_true, pathTo_eq wellFormed isPath,
      takePath_eq wellFormed.distinct path pathDistinct isPath.subset]
    rfl
  · -- Both sides list every entry once: the path, and what is not on it.
    have distinctEntries : transcript.entries.Nodup := wellFormed.distinct.of_map
    have restPerm : (path ++ rest.entries).Perm transcript.entries := by
      rw [perm_ext_iff_of_nodup _ distinctEntries]
      · intro other
        rw [mem_append, mem_entries_without]
        constructor
        · rintro (onPath | ⟨present, -⟩)
          · exact isPath.subset other onPath
          · exact present
        · intro present
          by_cases onPath : other.id ∈ path.map TranscriptItem.id
          · obtain ⟨same, sameMem, same_eq⟩ := mem_map.mp onPath
            have equal : same = other := inj_on_of_nodup_map wellFormed.distinct
              (isPath.subset same sameMem) present same_eq
            exact Or.inl (equal ▸ sameMem)
          · exact Or.inr ⟨present, onPath⟩
      · rw [nodup_append]
        refine ⟨isPath.nodup wellFormed.distinct, ?_, ?_⟩
        · exact (wellFormed.distinct.sublist (ids_without_sublist transcript _)).of_map
        · intro first firstMem second secondMem equal
          subst equal
          exact (mem_entries_without.mp secondMem).2 (mem_map_of_mem firstMem)
    refine Perm.trans (Perm.append_left path ?_) restPerm
    exact perm_append_comm
  · rw [countP_eq_length_filter]
    rfl

/-- In a well-formed tree, branching to any present id succeeds. -/
theorem branchFrom_spec (wellFormed : transcript.WellFormed) (mem : item ∈ transcript.entries) :
    ∃ left after, transcript.branchFrom item.id = .ok (left, after) ∧
      Branched transcript item left after := by
  rcases mem_append.mp mem with active | archived
  · exact branchFrom_active wellFormed active
  · apply branchFrom_archived wellFormed archived
    have distinct := wellFormed.distinct
    rw [ids, entries, map_append, nodup_append] at distinct
    intro active
    exact distinct.2.2 _ active _ (mem_map_of_mem archived) rfl

theorem branchFrom_absent {id : EntryId} (absent : id ∉ transcript.ids) :
    transcript.branchFrom id = .error (.error (.unknownEntry id)) := by
  rw [ids, entries, map_append, mem_append, not_or] at absent
  have missing : (transcript.items.findIdx? fun other => other.id = id) = none := by
    rw [findIdx?_eq_none_iff]
    intro other otherMem
    rw [decide_eq_false_iff_not]
    intro equal
    exact absent.1 (equal ▸ mem_map_of_mem otherMem)
  have unknown : (transcript.archive.any fun other => other.id = id) = false := by
    rw [any_eq_false]
    intro other otherMem
    rw [decide_eq_true_iff]
    intro equal
    exact absent.2 (equal ▸ mem_map_of_mem otherMem)
  simp [branchFrom, missing, unknown]

/-- The only entry without a parent is the first of the active path. -/
theorem WellFormed.root_eq_head (wellFormed : transcript.WellFormed)
    (mem : item ∈ transcript.entries) (root : item.parentId = none) :
    transcript.items.head? = some item := by
  rcases mem_append.mp mem with active | archived
  · obtain ⟨front, rest, split⟩ := append_of_mem active
    have chain := wellFormed.active
    rw [split, IsChain, linked_append, linked_cons] at chain
    rcases eq_nil_or_concat front with rfl | ⟨front', last, rfl⟩
    · simp [split]
    · rw [concat_eq_append, lastKey_concat, root] at chain
      exact absurd chain.2.1 (by simp)
  · obtain ⟨parent, parent_eq, -⟩ := wellFormed.archived item archived
    rw [root] at parent_eq
    cases parent_eq

/-- In a chain, every entry but the first names its predecessor as parent. -/
theorem exists_parent_of_mem_tail {items : List (TranscriptItem V)} {first : TranscriptItem V}
    (chain : IsChain (first :: items)) (mem : item ∈ items) :
    ∃ parent ∈ first :: items, item.parentId = some parent.id := by
  obtain ⟨front, rest, rfl⟩ := append_of_mem mem
  rw [IsChain, linked_cons, linked_append, linked_cons] at chain
  rcases eq_nil_or_concat front with rfl | ⟨front', last, rfl⟩
  · exact ⟨first, by simp, chain.2.2.1⟩
  · rw [concat_eq_append, lastKey_concat] at chain
    exact ⟨last, by simp, chain.2.2.1⟩

theorem WellFormed.branched {before after : AgentTranscript V}
    {left : Nat} (wellFormed : before.WellFormed) (branched : Branched before item left after) :
    after.WellFormed where
  distinct := by
    rw [ids, (branched.perm.map TranscriptItem.id).nodup_iff]
    exact wellFormed.distinct
  active := branched.path.linked
  archived := by
    intro archivedItem mem
    have entryMem : archivedItem ∈ before.entries :=
      branched.perm.mem_iff.mp (mem_append_right _ mem)
    have present : ∀ id ∈ before.ids, id ∈ after.ids := fun id idMem =>
      (branched.perm.map TranscriptItem.id).mem_iff.mpr idMem
    rcases mem_append.mp entryMem with active | archived
    · cases items_eq : before.items with
      | nil =>
        rw [items_eq] at active
        cases active
      | cons first rest =>
        rw [items_eq] at active
        rcases mem_cons.mp active with rfl | later
        · -- The root stays on the active path, so it cannot be archived.
          exfalso
          have afterDistinct : after.ids.Nodup := by
            rw [ids, (branched.perm.map TranscriptItem.id).nodup_iff]
            exact wellFormed.distinct
          rw [ids, entries, map_append, nodup_append] at afterDistinct
          cases path_eq : after.items with
          | nil =>
            have last := branched.path.last
            rw [path_eq] at last
            cases last
          | cons root path =>
            have linked := branched.path.linked
            rw [path_eq, linked_cons] at linked
            have rootMem : root ∈ before.entries :=
              branched.path.subset root (by rw [path_eq]; exact mem_cons_self)
            have head := wellFormed.root_eq_head rootMem linked.1
            rw [items_eq, head?_cons, Option.some.injEq] at head
            subst head
            exact afterDistinct.2.2 _ (by rw [path_eq]; simp) _ (mem_map_of_mem mem) rfl
        · have chain := wellFormed.active
          rw [items_eq] at chain
          obtain ⟨parent, parentMem, parent_eq⟩ := exists_parent_of_mem_tail chain later
          refine ⟨parent.id, parent_eq, present _ (mem_ids ?_)⟩
          rw [entries, items_eq]
          exact mem_append_left _ parentMem
    · obtain ⟨parent, parent_eq, parentMem⟩ := wellFormed.archived archivedItem archived
      exact ⟨parent, parent_eq, present parent parentMem⟩
  rooted := wellFormed.rooted.of_perm branched.perm.symm

/-- A branch that succeeds was to a present entry and did what `Branched` says. -/
theorem branchFrom_eq_ok {before after : AgentTranscript V} {id : EntryId} {left : Nat}
    (wellFormed : before.WellFormed) (result : before.branchFrom id = .ok (left, after)) :
    ∃ item ∈ before.entries, item.id = id ∧ Branched before item left after := by
  by_cases present : id ∈ before.ids
  · obtain ⟨item, mem, rfl⟩ := exists_mem_entries present
    obtain ⟨left', after', result', branched⟩ := branchFrom_spec wellFormed mem
    rw [result] at result'
    cases result'
    exact ⟨item, mem, rfl, branched⟩
  · rw [branchFrom_absent present] at result
    cases result

/-! ## Reachable transcripts -/

/-- What a host can do to a transcript: append an entry, or move the leaf. -/
inductive TreeAction (V : Type)
  | push (item : TranscriptItem V)
  | branch (id : EntryId)

/-- One action: a push needs a fresh id, a branch has to succeed. -/
def treeStep (transcript : AgentTranscript V) : TreeAction V → Option (AgentTranscript V)
  | .push item => if item.id ∈ transcript.ids then none else some (transcript.push item)
  | .branch id =>
    match transcript.branchFrom id with
    | .ok (_, after) => some after
    | .error _ => none

theorem treeStep_wellFormed (transcript : AgentTranscript V) (action : TreeAction V)
    (next : AgentTranscript V) (wellFormed : transcript.WellFormed)
    (step : treeStep transcript action = some next) : next.WellFormed := by
  cases action with
  | push item =>
    simp only [treeStep] at step
    split at step
    · cases step
    · rename_i fresh
      cases step
      exact wellFormed.push fresh
  | branch id =>
    simp only [treeStep] at step
    split at step
    · rename_i left after result
      cases step
      obtain ⟨item, -, -, branched⟩ := branchFrom_eq_ok wellFormed result
      exact wellFormed.branched branched
    · cases step

/-- Every transcript grown from the empty one is well formed. -/
theorem wellFormed_of_reachable
    (reachable : Reachable treeStep ({} : AgentTranscript V) transcript) :
    transcript.WellFormed :=
  reachable.invariant treeStep_wellFormed wellFormed_empty

/-- A transcript grown by pushes of fresh entries and branch switches has distinct ids, an
active path that is a chain of parent links, and archived entries whose parents are present.
Branching to any present id succeeds: the new active path is the one root-to-id chain of parent
links, the entries are the same, and the count is the number of entries that left the path. -/
theorem reachable_branchFrom_exact {transcript : AgentTranscript V}
    (reachable : Reachable treeStep ({} : AgentTranscript V) transcript) :
    transcript.ids.Nodup ∧ IsChain transcript.items ∧
      (∀ item ∈ transcript.archive,
        ∃ parent, item.parentId = some parent ∧ parent ∈ transcript.ids) ∧
      ∀ id ∈ transcript.ids, ∃ item ∈ transcript.entries, item.id = id ∧
        ∃ left after, transcript.branchFrom id = .ok (left, after) ∧
          (∀ path, IsPath transcript.entries item path ↔ path = after.items) ∧
          after.entries.Perm transcript.entries ∧
          left = transcript.items.countP fun active =>
            active.id ∉ after.items.map TranscriptItem.id := by
  have wellFormed := wellFormed_of_reachable reachable
  refine ⟨wellFormed.distinct, wellFormed.active, wellFormed.archived, ?_⟩
  intro id present
  obtain ⟨item, mem, rfl⟩ := exists_mem_entries present
  obtain ⟨left, after, result, branched⟩ := branchFrom_spec wellFormed mem
  refine ⟨item, mem, rfl, left, after, result, ?_, branched.perm, branched.count⟩
  intro path
  constructor
  · intro isPath
    exact isPath.unique wellFormed.distinct branched.path
  · rintro rfl
    exact branched.path

/-- A question with two alternative answers, the second one active. -/
def forkedTranscript : AgentTranscript Unit where
  items :=
    [⟨⟨"ask"⟩, none, .userTurn, none, none⟩, ⟨⟨"second"⟩, some ⟨"ask"⟩, .assistantTurn, none, none⟩]
  archive := [⟨⟨"first"⟩, some ⟨"ask"⟩, .assistantTurn, none, none⟩]

/-- The forked transcript arises by answering, branching back and answering
again; returning to the first answer leaves one entry behind. -/
theorem forkedTranscript_branchFrom_exact :
    Reachable treeStep {} forkedTranscript ∧ forkedTranscript.ids.Nodup ∧
      ∃ after, forkedTranscript.branchFrom ⟨"first"⟩ = .ok (1, after) := by
  have reachable : Reachable treeStep {} forkedTranscript :=
    ⟨[.push ⟨⟨"ask"⟩, none, .userTurn, none, none⟩,
      .push ⟨⟨"first"⟩, none, .assistantTurn, none, none⟩, .branch ⟨"ask"⟩,
      .push ⟨⟨"second"⟩, none, .assistantTurn, none, none⟩], by decide⟩
  exact ⟨reachable, (reachable_branchFrom_exact reachable).1, _, rfl⟩

end Mentra.AgentTranscript
