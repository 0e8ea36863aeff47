import Mentra.Foundation.Outcome
import Mentra.Task.View

/-!
# What the functions of the task graph do

Each function of `mentra/src/runtime/task/graph.rs` that succeeds makes one of the
changes of the view, which was in order, and keeps the ids of the board.
-/

namespace Mentra.Task

open Foundation TaskItem View List
open Foundation.Outcome (bind_eq_ok_iff)
open Relation

variable {tasks next : List TaskItem} {id other : Nat} {task : TaskItem}

/-! ## Dependencies -/

variable {dependent : Nat}

/-- What adding a dependency does, and when it may be done. -/
theorem addDependency_ok {blocker : Nat} (distinct : (tasks.map TaskItem.id).Nodup)
    (added : addDependency tasks blocker dependent = .ok next) :
    (viewOf tasks).Linkable [(blocker, dependent)] ∧
      viewOf next = (viewOf tasks).link [(blocker, dependent)] ∧
      next.map TaskItem.id = tasks.map TaskItem.id := by
  rw [addDependency] at added
  split at added
  · cases added
  · obtain ⟨first, foundFirst, added⟩ := bind_eq_ok_iff.mp added
    obtain ⟨last, foundLast, added⟩ := bind_eq_ok_iff.mp added
    rw [findTask_eq_ok_iff] at foundFirst foundLast
    split at added
    · cases added
    · rename_i acyclic
      have noCycle : (viewOf tasks).blocks blocker dependent ∨
          ¬ ReflTransGen (viewOf tasks).blocks dependent blocker := by
        rw [viewOf_blocks foundFirst, ← (pathExists_iff distinct dependent blocker).2]
        by_contra neither
        rw [not_or, not_not] at neither
        exact acyclic neither
      have linkable (waits : (viewOf tasks).Unfinished blocker →
          (viewOf tasks).status dependent = some .pending) :
          (viewOf tasks).Linkable [(blocker, dependent)] := by
        refine ⟨?_, ?_, acyclic_link noCycle⟩
        · rintro edge mem
          rw [mem_singleton.mp mem]
          exact ⟨⟨_, viewOf_status foundFirst⟩, ⟨_, viewOf_status foundLast⟩⟩
        · rintro edge mem
          rw [mem_singleton.mp mem]
          exact waits
      split at added
      · -- A completed blocker does not block.
        rename_i completed
        have finished : ¬ (viewOf tasks).Unfinished blocker := by
          rw [unfinished_iff foundFirst, not_not]
          exact completed
        cases added
        refine ⟨linkable fun unfinished => absurd unfinished finished, ?_,
          modifyTask_map_id (fun _ => by rfl) tasks blocker⟩
        rw [viewOf_insertBlocks foundFirst]
        ext id other
        · rfl
        · simp [View.link, Digraph.link]
        · simp only [View.link, mem_singleton, Prod.mk.injEq]
          constructor
          · exact .inl
          · rintro (blocked | ⟨⟨rfl, -⟩, unfinished⟩)
            · exact blocked
            · exact absurd unfinished finished
      · rename_i open_
        split at added
        · cases added
        · rename_i pending
          have unfinished : (viewOf tasks).Unfinished blocker :=
            (unfinished_iff foundFirst).mpr open_
          obtain ⟨linked, foundLinked⟩ := exists_lookup_modifyTask foundLast
            (fun task => (rfl : (task.insertBlocks dependent).id = _)) blocker
          cases added
          refine ⟨linkable fun _ => ?_, ?_, ?_⟩
          · rw [viewOf_status foundLast, not_not.mp pending]
          · rw [viewOf_insertBlockedBy foundLinked, viewOf_insertBlocks foundFirst]
            ext id other
            · rfl
            · simp [View.link, Digraph.link]
            · simp only [View.link, mem_singleton, Prod.mk.injEq]
              constructor
              · rintro (blocked | ⟨rfl, rfl⟩)
                · exact .inl blocked
                · exact .inr ⟨⟨rfl, rfl⟩, unfinished⟩
              · rintro (blocked | ⟨⟨rfl, rfl⟩, -⟩)
                · exact .inl blocked
                · exact .inr ⟨rfl, rfl⟩
          · rw [modifyTask_map_id (fun _ => by rfl), modifyTask_map_id (fun _ => by rfl)]

theorem removeDependency_ok {blocker : Nat}
    (removed : removeDependency tasks blocker dependent = .ok next) :
    viewOf next = (viewOf tasks).unlink [(blocker, dependent)] ∧
      next.map TaskItem.id = tasks.map TaskItem.id := by
  obtain ⟨first, foundFirst, removed⟩ := bind_eq_ok_iff.mp removed
  obtain ⟨last, foundLast, removed⟩ := bind_eq_ok_iff.mp removed
  rw [findTask_eq_ok_iff] at foundFirst foundLast
  obtain ⟨unlinked, foundUnlinked⟩ := exists_lookup_modifyTask foundLast
    (fun task => (rfl : (task.removeBlocks dependent).id = _)) blocker
  cases removed
  constructor
  · rw [viewOf_removeBlockedBy foundUnlinked, viewOf_removeBlocks foundFirst]
    ext id other
    · rfl
    · simp [View.unlink]
    · simp [View.unlink, and_comm]
  · rw [modifyTask_map_id (fun _ => by rfl), modifyTask_map_id (fun _ => by rfl)]

/-! The loops over dependencies. -/

theorem addDependencies_ok (edges : List (Nat × Nat)) (distinct : (tasks.map TaskItem.id).Nodup)
    (added : edges.foldlM (fun tasks edge => addDependency tasks edge.1 edge.2) tasks = .ok next) :
    (viewOf tasks).Linkable edges ∧ viewOf next = (viewOf tasks).link edges ∧
      next.map TaskItem.id = tasks.map TaskItem.id := by
  induction edges generalizing tasks with
  | nil =>
    cases added
    exact ⟨.nil _, (link_nil _).symm, rfl⟩
  | cons edge edges ih =>
    obtain ⟨between, first, rest⟩ := bind_eq_ok_iff.mp added
    obtain ⟨linkable, view, ids⟩ := addDependency_ok distinct first
    obtain ⟨restLinkable, restView, restIds⟩ := ih (ids ▸ distinct) rest
    rw [view] at restLinkable restView
    exact ⟨linkable.cons restLinkable, restView.trans (link_link _ _ _), restIds.trans ids⟩

theorem removeDependencies_ok (edges : List (Nat × Nat))
    (removed : edges.foldlM (fun tasks edge => removeDependency tasks edge.1 edge.2) tasks =
      .ok next) :
    viewOf next = (viewOf tasks).unlink edges ∧
      next.map TaskItem.id = tasks.map TaskItem.id := by
  induction edges generalizing tasks with
  | nil =>
    cases removed
    exact ⟨(unlink_nil _).symm, rfl⟩
  | cons edge edges ih =>
    obtain ⟨between, first, rest⟩ := bind_eq_ok_iff.mp removed
    obtain ⟨view, ids⟩ := removeDependency_ok first
    obtain ⟨restView, restIds⟩ := ih rest
    rw [view] at restView
    exact ⟨restView.trans (unlink_unlink _ _ _), restIds.trans ids⟩

/-! ## Status changes -/

theorem valid_of_validateUnblockedStatus {result : Unit} (found : lookup tasks id = some task)
    (checked : validateUnblockedStatus task = .ok result) : (viewOf tasks).Valid id := by
  rw [validateUnblockedStatus] at checked
  split at checked
  · cases checked
  · rename_i free
    intro status isStatus begun other blocked
    rw [viewOf_status found] at isStatus
    cases isStatus
    rw [viewOf_blockedBy found] at blocked
    exact free ⟨begun, ne_nil_of_mem blocked⟩

variable {taskId : Nat} {progress after : List TaskItem × List TaskItem}

theorem releaseDependent_ok (released : releaseDependent taskId progress dependent = .ok after) :
    viewOf after.1 = (viewOf progress.1).release taskId (· = dependent) ∧
      after.1.map TaskItem.id = progress.1.map TaskItem.id := by
  obtain ⟨task, found, released⟩ := bind_eq_ok_iff.mp released
  rw [findTask_eq_ok_iff] at found
  split at released
  · rename_i completed
    have finished : ¬ (viewOf progress.1).Unfinished dependent := by
      rw [unfinished_iff found, not_not]
      exact completed
    cases released
    refine ⟨?_, rfl⟩
    ext id other
    · rfl
    · rfl
    · constructor
      · intro blocked
        refine ⟨blocked, ?_⟩
        rintro ⟨-, rfl, unfinished⟩
        exact finished unfinished
      · exact And.left
  · rename_i open_
    have unfinished := (unfinished_iff found).mpr open_
    cases released
    refine ⟨?_, modifyTask_map_id (fun _ => by rfl) _ _⟩
    rw [viewOf_removeBlockedBy found]
    ext id other
    · rfl
    · rfl
    · constructor
      · rintro ⟨blocked, apart⟩
        exact ⟨blocked, fun this => apart ⟨this.2.1, this.1⟩⟩
      · rintro ⟨blocked, apart⟩
        refine ⟨blocked, ?_⟩
        rintro ⟨rfl, rfl⟩
        exact apart ⟨rfl, rfl, unfinished⟩

theorem reblockDependent_ok (reblocked : reblockDependent taskId progress dependent = .ok after) :
    viewOf after.1 = (viewOf progress.1).reblock taskId (· = dependent) ∧
      after.1.map TaskItem.id = progress.1.map TaskItem.id := by
  obtain ⟨task, found, reblocked⟩ := bind_eq_ok_iff.mp reblocked
  rw [findTask_eq_ok_iff] at found
  split at reblocked
  · rename_i completed
    have finished : ¬ (viewOf progress.1).Unfinished dependent := by
      rw [unfinished_iff found, not_not]
      exact completed
    cases reblocked
    refine ⟨?_, rfl⟩
    ext id other
    · rfl
    · rfl
    · constructor
      · exact .inl
      · rintro (blocked | ⟨-, rfl, unfinished⟩)
        · exact blocked
        · exact absurd unfinished finished
  · rename_i open_
    have unfinished := (unfinished_iff found).mpr open_
    cases reblocked
    refine ⟨?_, modifyTask_map_id (fun _ => by rfl) _ _⟩
    rw [viewOf_insertBlockedBy found]
    ext id other
    · rfl
    · rfl
    · constructor
      · rintro (blocked | ⟨rfl, rfl⟩)
        · exact .inl blocked
        · exact .inr ⟨rfl, rfl, unfinished⟩
      · rintro (blocked | ⟨rfl, rfl, -⟩)
        · exact .inl blocked
        · exact .inr ⟨rfl, rfl⟩

/-! The loops over the dependents of a task. -/

theorem releaseDependents_ok {dependents : List Nat}
    (looped : dependents.foldlM (releaseDependent taskId) progress = .ok after) :
    viewOf after.1 = (viewOf progress.1).release taskId (· ∈ dependents) ∧
      after.1.map TaskItem.id = progress.1.map TaskItem.id := by
  induction dependents generalizing progress with
  | nil =>
    cases looped
    rw [release_nil]
    exact ⟨rfl, rfl⟩
  | cons dependent dependents ih =>
    obtain ⟨between, first, rest⟩ := bind_eq_ok_iff.mp looped
    obtain ⟨firstView, firstIds⟩ := releaseDependent_ok first
    obtain ⟨restView, restIds⟩ := ih rest
    rw [restView, firstView, release_release]
    exact ⟨rfl, restIds.trans firstIds⟩

theorem reblockDependents_ok {dependents : List Nat}
    (looped : dependents.foldlM (reblockDependent taskId) progress = .ok after) :
    viewOf after.1 = (viewOf progress.1).reblock taskId (· ∈ dependents) ∧
      after.1.map TaskItem.id = progress.1.map TaskItem.id := by
  induction dependents generalizing progress with
  | nil =>
    cases looped
    rw [reblock_nil]
    exact ⟨rfl, rfl⟩
  | cons dependent dependents ih =>
    obtain ⟨between, first, rest⟩ := bind_eq_ok_iff.mp looped
    obtain ⟨firstView, firstIds⟩ := reblockDependent_ok first
    obtain ⟨restView, restIds⟩ := ih rest
    rw [restView, firstView, reblock_reblock]
    exact ⟨rfl, restIds.trans firstIds⟩

theorem blocks_of_lookup (found : lookup tasks id = some task) :
    (viewOf tasks).blocks id = (· ∈ task.blocks) :=
  funext fun _ => propext (viewOf_blocks found)

theorem completeTask_ok {changed : StatusChange} (completed : completeTask tasks id = .ok changed) :
    (viewOf tasks).Valid id ∧ viewOf changed.tasks = (viewOf tasks).finish id ∧
      changed.tasks.map TaskItem.id = tasks.map TaskItem.id := by
  obtain ⟨task, found, completed⟩ := bind_eq_ok_iff.mp completed
  obtain ⟨checked, valid, completed⟩ := bind_eq_ok_iff.mp completed
  obtain ⟨same, foundSame, completed⟩ := bind_eq_ok_iff.mp completed
  obtain ⟨⟨after, unblocked⟩, looped, completed⟩ := bind_eq_ok_iff.mp completed
  cases completed
  rw [findTask_eq_ok_iff] at found foundSame
  rw [lookup_modifyTask_self (fun _ => by rfl) found] at foundSame
  cases foundSame
  obtain ⟨view, ids⟩ := releaseDependents_ok looped
  rw [modifyTask_map_id (fun _ => by rfl)] at ids
  refine ⟨valid_of_validateUnblockedStatus found valid, ?_, ids⟩
  rw [view, viewOf_modifyTask_status found (fun _ => by rfl) rfl rfl,
    View.finish, blocks_of_lookup found]
  rfl

/-- What a change to another status than completed does. -/
theorem startTask_ok {changed : StatusChange} {original status : TaskStatus}
    (started : startTask tasks id original status = .ok changed) :
    ((viewOf tasks).setStatus id status).Valid id ∧
      viewOf changed.tasks = (if original = .completed then (viewOf tasks).reopen id status
        else (viewOf tasks).setStatus id status) ∧
      changed.tasks.map TaskItem.id = tasks.map TaskItem.id := by
  obtain ⟨task, found, started⟩ := bind_eq_ok_iff.mp started
  obtain ⟨same, foundSame, started⟩ := bind_eq_ok_iff.mp started
  obtain ⟨checked, valid, started⟩ := bind_eq_ok_iff.mp started
  rw [findTask_eq_ok_iff] at found foundSame
  have self : lookup (modifyTask tasks id (.setStatus status)) id = _ :=
    lookup_modifyTask_self (fun _ => by rfl) found
  rw [self] at foundSame
  cases foundSame
  refine ⟨?_, ?_⟩
  · rw [← show ((TaskItem.setStatus status task).status) = status from rfl,
      ← viewOf_modifyTask_status found (fun _ => by rfl) rfl rfl]
    exact valid_of_validateUnblockedStatus self valid
  · split at started
    · rename_i reopened
      obtain ⟨⟨after, reblocked⟩, looped, started⟩ := bind_eq_ok_iff.mp started
      cases started
      obtain ⟨view, ids⟩ := reblockDependents_ok looped
      rw [modifyTask_map_id (fun _ => by rfl)] at ids
      refine ⟨?_, ids⟩
      rw [if_pos reopened, view,
        viewOf_modifyTask_status found (fun _ => by rfl) rfl rfl, View.reopen,
        blocks_of_lookup found]
      rfl
    · rename_i another
      cases started
      rw [if_neg another]
      exact ⟨viewOf_modifyTask_status found (fun _ => by rfl) rfl rfl,
        modifyTask_map_id (fun _ => by rfl) _ _⟩

end Mentra.Task
