import Mentra.Foundation.ParentLinks
import Mentra.Task.Core

/-!
# What a board says about dependencies

The view of a board: the status of each task and the two relations its lists stand for.  A
change to one task of the board is one of a few changes to its view.
-/

namespace Mentra

namespace Task

open Foundation List Digraph TaskItem
open Relation

/-- Tasks without their lists: `blocks` and `blockedBy` relate a task to the ids
on the list of that name. -/
@[ext]
structure View where
  status : Nat → Option TaskStatus
  blocks : Nat → Nat → Prop
  blockedBy : Nat → Nat → Prop

namespace View

variable (view : View)

/-- There is such a task, and it is not completed. -/
def Unfinished (id : Nat) : Prop :=
  ∃ status, view.status id = some status ∧ status ≠ .completed

/-- Only a pending task waits for others. -/
def Valid (id : Nat) : Prop :=
  ∀ status, view.status id = some status → status ≠ .pending → ∀ other, ¬ view.blockedBy id other

/-! A dependency is the pair of a blocker and a dependent. -/

/-- The tasks with more dependencies. -/
def link (edges : List (Nat × Nat)) : View where
  status := view.status
  blocks id other := view.blocks id other ∨ (id, other) ∈ edges
  blockedBy id other := view.blockedBy id other ∨ (other, id) ∈ edges ∧ view.Unfinished other

/-- The tasks with fewer dependencies. -/
def unlink (edges : List (Nat × Nat)) : View where
  status := view.status
  blocks id other := view.blocks id other ∧ (id, other) ∉ edges
  blockedBy id other := view.blockedBy id other ∧ (other, id) ∉ edges

/-- Dependencies that may be added. -/
structure Linkable (edges : List (Nat × Nat)) : Prop where
  present : ∀ edge ∈ edges,
    (∃ status, view.status edge.1 = some status) ∧ ∃ status, view.status edge.2 = some status
  waits : ∀ edge ∈ edges, view.Unfinished edge.1 → view.status edge.2 = some .pending
  acyclic : Acyclic view.blocks → Acyclic (view.link edges).blocks

/-- A task that depends on nothing yet. -/
def insert (id : Nat) : View where
  status other := if other = id then some .pending else view.status other
  blocks := view.blocks
  blockedBy := view.blockedBy

def setStatus (id : Nat) (status : TaskStatus) : View where
  status other := if other = id then some status else view.status other
  blocks := view.blocks
  blockedBy := view.blockedBy

/-- The unfinished among the dependents lose a blocker. -/
def release (blocker : Nat) (dependents : Nat → Prop) : View where
  status := view.status
  blocks := view.blocks
  blockedBy id other :=
    view.blockedBy id other ∧ ¬ (other = blocker ∧ dependents id ∧ view.Unfinished id)

/-- The unfinished among the dependents get a blocker. -/
def reblock (blocker : Nat) (dependents : Nat → Prop) : View where
  status := view.status
  blocks := view.blocks
  blockedBy id other :=
    view.blockedBy id other ∨ other = blocker ∧ dependents id ∧ view.Unfinished id

/-- A task is completed. -/
def finish (id : Nat) : View :=
  (view.setStatus id .completed).release id (view.blocks id)

/-- A completed task is taken up again. -/
def reopen (id : Nat) (status : TaskStatus) : View :=
  (view.setStatus id status).reblock id (view.blocks id)

/-- A dependency closes no cycle if it is there already or does not lead back. -/
theorem acyclic_link {view : View} {blocker dependent : Nat}
    (noCycle : view.blocks blocker dependent ∨ ¬ ReflTransGen view.blocks dependent blocker)
    (acyclic : Acyclic view.blocks) :
    Acyclic (view.link [(blocker, dependent)]).blocks := by
  rcases noCycle with present | noWayBack
  · refine acyclic.mono fun source target edge => ?_
    rcases edge with old | new
    · exact old
    · cases mem_singleton.mp new
      exact present
  · refine (acyclic.link noWayBack).mono fun source target edge => ?_
    rcases edge with old | new
    · exact .inl old
    · cases mem_singleton.mp new
      exact .inr ⟨rfl, rfl⟩

/-! Making changes one after the other. -/

theorem link_nil : view.link [] = view := by
  ext id other
  · rfl
  · simp [link]
  · simp [link]

theorem unlink_nil : view.unlink [] = view := by
  ext id other
  · rfl
  · simp [unlink]
  · simp [unlink]

theorem link_link (edge : Nat × Nat) (edges : List (Nat × Nat)) :
    (view.link [edge]).link edges = view.link (edge :: edges) := by
  ext id other
  · rfl
  · simp [link, or_assoc]
  · change (_ ∨ _ ∧ view.Unfinished other) ∨ _ ∧ view.Unfinished other ↔ _
    simp [link, or_and_right, or_assoc]

theorem unlink_unlink (edge : Nat × Nat) (edges : List (Nat × Nat)) :
    (view.unlink [edge]).unlink edges = view.unlink (edge :: edges) := by
  ext id other
  · rfl
  · simp [unlink, and_assoc]
  · simp [unlink, and_assoc]

theorem Linkable.nil : view.Linkable [] where
  present edge mem := absurd mem not_mem_nil
  waits edge mem := absurd mem not_mem_nil
  acyclic acyclic := by
    rw [link_nil]
    exact acyclic

theorem Linkable.cons {view : View} {edge : Nat × Nat} {edges : List (Nat × Nat)}
    (first : view.Linkable [edge]) (rest : (view.link [edge]).Linkable edges) :
    view.Linkable (edge :: edges) where
  present other mem := by
    rcases mem_cons.mp mem with rfl | later
    · exact first.present other mem_cons_self
    · exact rest.present other later
  waits other mem := by
    rcases mem_cons.mp mem with rfl | later
    · exact first.waits other mem_cons_self
    · exact rest.waits other later
  acyclic acyclic := by
    rw [← link_link]
    exact rest.acyclic (first.acyclic acyclic)

variable (blocker : Nat)

theorem release_nil : view.release blocker (· ∈ []) = view := by
  ext id other
  · rfl
  · rfl
  · simp [release]

theorem reblock_nil : view.reblock blocker (· ∈ []) = view := by
  ext id other
  · rfl
  · rfl
  · simp [reblock]

theorem release_release (dependent : Nat) (dependents : List Nat) :
    (view.release blocker (· = dependent)).release blocker (· ∈ dependents) =
      view.release blocker (· ∈ dependent :: dependents) := by
  ext id other
  · rfl
  · rfl
  · change (_ ∧ ¬ (_ ∧ _ ∧ view.Unfinished id)) ∧ ¬ (_ ∧ _ ∧ view.Unfinished id) ↔ _
    simp only [release, mem_cons]
    tauto

theorem reblock_reblock (dependent : Nat) (dependents : List Nat) :
    (view.reblock blocker (· = dependent)).reblock blocker (· ∈ dependents) =
      view.reblock blocker (· ∈ dependent :: dependents) := by
  ext id other
  · rfl
  · rfl
  · change (_ ∨ _ ∧ _ ∧ view.Unfinished id) ∨ _ ∧ _ ∧ view.Unfinished id ↔ _
    simp only [reblock, mem_cons]
    tauto

end View

/-! ## Looking tasks up -/

def lookup (tasks : List TaskItem) (id : Nat) : Option TaskItem :=
  tasks.find? fun task => task.id = id

def viewOf (tasks : List TaskItem) : View where
  status id := (lookup tasks id).map status
  blocks id other := ∃ task ∈ lookup tasks id, other ∈ task.blocks
  blockedBy id other := ∃ task ∈ lookup tasks id, other ∈ task.blockedBy

variable {tasks next : List TaskItem} {id other : Nat} {task : TaskItem}
  {change : TaskItem → TaskItem}

theorem findTask_eq_ok_iff : findTask tasks id = .ok task ↔ lookup tasks id = some task := by
  rw [findTask, lookup]
  cases tasks.find? fun task => task.id = id with
  | none => exact ⟨nofun, nofun⟩
  | some found => simp

theorem id_of_lookup (found : lookup tasks id = some task) : task.id = id := by
  simpa using find?_some found

theorem mem_of_lookup (found : lookup tasks id = some task) : task ∈ tasks :=
  mem_of_find?_eq_some found

theorem modifyFirst_map_id {test : TaskItem → Bool} (keeps : ∀ task, (change task).id = task.id)
    (tasks : List TaskItem) :
    (modifyFirst test change tasks).map TaskItem.id = tasks.map TaskItem.id := by
  induction tasks with
  | nil => rfl
  | cons task rest ih =>
    rw [modifyFirst]
    split
    · rw [map_cons, keeps, map_cons]
    · rw [map_cons, ih, map_cons]

theorem modifyTask_map_id (keeps : ∀ task, (change task).id = task.id) (tasks : List TaskItem)
    (id : Nat) : (modifyTask tasks id change).map TaskItem.id = tasks.map TaskItem.id :=
  modifyFirst_map_id keeps tasks

section

variable (keeps : ∀ task, (change task).id = task.id)
include keeps

theorem lookup_modifyTask :
    lookup (modifyTask tasks id change) other =
      if other = id then (lookup tasks id).map change else lookup tasks other := by
  induction tasks with
  | nil => simp [modifyTask, modifyFirst, lookup]
  | cons first rest ih =>
    rw [modifyTask, modifyFirst]
    by_cases here : first.id = id
    · rw [if_pos (decide_eq_true here)]
      by_cases same : other = id
      · simp [lookup, keeps, here, same]
      · have apart : first.id ≠ other := fun isOther => same (isOther.symm.trans here)
        simp [lookup, keeps, same, apart]
    · rw [if_neg (by simpa using here)]
      by_cases same : first.id = other
      · have apart : other ≠ id := fun isId => here (same.trans isId)
        simp [lookup, same, apart]
      · have skip (tasks : List TaskItem) : lookup (first :: tasks) other = lookup tasks other := by
          simp [lookup, same]
        have skipId : lookup (first :: rest) id = lookup rest id := by
          simp [lookup, here]
        rw [skip, skip, skipId]
        exact ih

theorem lookup_modifyTask_self (found : lookup tasks id = some task) :
    lookup (modifyTask tasks id change) id = some (change task) := by
  rw [lookup_modifyTask keeps, if_pos rfl, found]
  rfl

end

/-! ## Paths -/

theorem successors_eq (distinct : (tasks.map TaskItem.id).Nodup) (id : Nat) :
    successors tasks id = (lookup tasks id).map blocks := by
  rw [successors]
  congr 1
  cases found : lookup tasks id with
  | none =>
    rw [find?_eq_none]
    intro task mem
    exact find?_eq_none.mp found task (mem_reverse.mp mem)
  | some task =>
    have backwards : (tasks.reverse.map TaskItem.id).Nodup := by
      rw [map_reverse, nodup_reverse]
      exact distinct
    rw [← id_of_lookup found]
    exact ParentLinks.find?_key_eq_some backwards (mem_reverse.mpr (mem_of_lookup found))

theorem edge_successors (distinct : (tasks.map TaskItem.id).Nodup) :
    Digraph.Edge (successors tasks) = (viewOf tasks).blocks := by
  funext id other
  cases found : lookup tasks id with
  | none | some task => simp [Digraph.Edge, successors_eq distinct, viewOf, found]

/-- The search for a path ends and is right. -/
theorem pathExists_iff (distinct : (tasks.map TaskItem.id).Nodup) (start goal : Nat) :
    (searchPath tasks start goal).isSome ∧
      (pathExists tasks start goal ↔ ReflTransGen (viewOf tasks).blocks start goal) := by
  have finite : ∀ node nexts, successors tasks node = some nexts →
      node ∈ tasks.map TaskItem.id := by
    intro node nexts isNode
    obtain ⟨task, found, -⟩ := Option.map_eq_some_iff.mp isNode
    have isTask : task ∈ tasks := mem_reverse.mp (mem_of_find?_eq_some found)
    have sameId : task.id = node := by simpa using find?_some found
    exact sameId ▸ mem_map_of_mem isTask
  obtain ⟨answer, ended, correct⟩ := Digraph.search_correct finite start goal
  rw [edge_successors distinct] at correct
  have answered : searchPath tasks start goal = some answer := ended
  rw [pathExists, answered]
  refine ⟨rfl, ?_⟩
  by_cases same : start = goal
  · rw [if_pos same, same]
    exact ⟨fun _ => .refl, fun _ => rfl⟩
  · rw [if_neg same, reflTransGen_iff_eq_or_transGen, Option.getD_some, correct]
    exact ⟨.inr, fun path => path.resolve_left fun equal => same equal.symm⟩

/-! ## Lists of ids -/

theorem mem_insertId {ids : List Nat} : other ∈ (insertId ids id).2 ↔ other ∈ ids ∨ other = id := by
  rw [insertId]
  split
  · rename_i present
    exact ⟨.inl, fun either => either.elim (fun mem => mem) (fun same => same ▸ present)⟩
  · rw [sortAndDedupIds, mem_insertionSort, mem_dedup, mem_append, mem_singleton]

theorem mem_removeId {ids : List Nat} : other ∈ (removeId ids id).2 ↔ other ∈ ids ∧ other ≠ id := by
  simp [removeId]

/-! ## One change to the view for each change to a task -/

section Change

variable (found : lookup tasks id = some task)
include found

theorem viewOf_status : (viewOf tasks).status id = some task.status := by
  simp [viewOf, found]

theorem viewOf_blocks : (viewOf tasks).blocks id other ↔ other ∈ task.blocks := by
  simp [viewOf, found]

theorem viewOf_blockedBy : (viewOf tasks).blockedBy id other ↔ other ∈ task.blockedBy := by
  simp [viewOf, found]

theorem unfinished_iff : (viewOf tasks).Unfinished id ↔ task.status ≠ .completed := by
  simp [View.Unfinished, viewOf_status found]

variable (keeps : ∀ task, (change task).id = task.id)
include keeps

/-- The view after a change to one task, said of that task and of the others. -/
theorem viewOf_modifyTask {view : View} (status : view.status id = some (change task).status)
    (blocks : ∀ target, view.blocks id target ↔ target ∈ (change task).blocks)
    (blockedBy : ∀ target, view.blockedBy id target ↔ target ∈ (change task).blockedBy)
    (elsewhere : ∀ other, other ≠ id → view.status other = (viewOf tasks).status other ∧
      ∀ target, (view.blocks other target ↔ (viewOf tasks).blocks other target) ∧
        (view.blockedBy other target ↔ (viewOf tasks).blockedBy other target)) :
    viewOf (modifyTask tasks id change) = view := by
  have self := lookup_modifyTask_self keeps found
  ext other target
  all_goals
    by_cases here : other = id
    · rw [here]
      simp [viewOf, self, status, blocks, blockedBy]
    · simp [viewOf, lookup_modifyTask keeps, here, elsewhere other here]

theorem viewOf_modifyTask_status (blocks : (change task).blocks = task.blocks)
    (blockedBy : (change task).blockedBy = task.blockedBy) :
    viewOf (modifyTask tasks id change) = (viewOf tasks).setStatus id (change task).status := by
  apply viewOf_modifyTask found keeps
  · exact if_pos rfl
  · simp [View.setStatus, blocks, viewOf_blocks found]
  · simp [View.setStatus, blockedBy, viewOf_blockedBy found]
  · simp +contextual [View.setStatus]

theorem viewOf_modifyTask_same (status : (change task).status = task.status)
    (blocks : (change task).blocks = task.blocks)
    (blockedBy : (change task).blockedBy = task.blockedBy) :
    viewOf (modifyTask tasks id change) = viewOf tasks := by
  apply viewOf_modifyTask found keeps
  · rw [viewOf_status found, status]
  · simp [blocks, viewOf_blocks found]
  · simp [blockedBy, viewOf_blockedBy found]
  · simp

end Change

/-! ## Dependencies -/

section Lists

variable (found : lookup tasks id = some task)
include found

theorem viewOf_insertBlocks (dependent : Nat) :
    viewOf (modifyTask tasks id (.insertBlocks dependent)) =
      { viewOf tasks with blocks := Digraph.link (viewOf tasks).blocks id dependent } := by
  apply viewOf_modifyTask found (fun _ => by rfl)
  · simp [insertBlocks, viewOf_status found]
  · simp [Digraph.link, insertBlocks, mem_insertId, viewOf_blocks found]
  · simp [insertBlocks, viewOf_blockedBy found]
  · simp +contextual [Digraph.link]

theorem viewOf_insertBlockedBy (blocker : Nat) :
    viewOf (modifyTask tasks id (.insertBlockedBy blocker)) =
      { viewOf tasks with
        blockedBy := fun other target =>
          (viewOf tasks).blockedBy other target ∨ other = id ∧ target = blocker } := by
  apply viewOf_modifyTask found (fun _ => by rfl)
  · simp [insertBlockedBy, viewOf_status found]
  · simp [insertBlockedBy, viewOf_blocks found]
  · simp [insertBlockedBy, mem_insertId, viewOf_blockedBy found]
  · simp +contextual

theorem viewOf_removeBlocks (dependent : Nat) :
    viewOf (modifyTask tasks id (.removeBlocks dependent)) =
      { viewOf tasks with
        blocks := fun other target =>
          (viewOf tasks).blocks other target ∧ ¬ (other = id ∧ target = dependent) } := by
  apply viewOf_modifyTask found (fun _ => by rfl)
  · simp [removeBlocks, viewOf_status found]
  · simp [removeBlocks, mem_removeId, viewOf_blocks found]
  · simp [removeBlocks, viewOf_blockedBy found]
  · simp +contextual

theorem viewOf_removeBlockedBy (blocker : Nat) :
    viewOf (modifyTask tasks id (.removeBlockedBy blocker)) =
      { viewOf tasks with
        blockedBy := fun other target =>
          (viewOf tasks).blockedBy other target ∧ ¬ (other = id ∧ target = blocker) } := by
  apply viewOf_modifyTask found (fun _ => by rfl)
  · simp [removeBlockedBy, viewOf_status found]
  · simp [removeBlockedBy, viewOf_blocks found]
  · simp [removeBlockedBy, mem_removeId, viewOf_blockedBy found]
  · simp +contextual

/-- The task stays findable when another or the same one is changed. -/
theorem exists_lookup_modifyTask (keeps : ∀ task, (change task).id = task.id) (other : Nat) :
    ∃ task, lookup (modifyTask tasks other change) id = some task := by
  rw [lookup_modifyTask keeps]
  split
  · rename_i same
    rw [← same, found]
    exact ⟨_, rfl⟩
  · exact ⟨task, found⟩

end Lists

end Task

end Mentra
