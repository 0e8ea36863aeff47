import Mentra.Foundation.Transition
import Mentra.Task.Invariants

/-!
# Reachable boards

On every board that calls of the task tools lead to, ids are distinct and dependencies sound.

The blockers of a task are kept up to date while the task is unfinished, but not while it is
completed, so they may be out of date when it is taken up again.  A task may be completed
while it waits, since the check is made before the status is set, and a task in progress may
be made to wait by the reopening of a task it depends on.
-/

namespace Mentra.Task

open Foundation List Transition
open Relation

/-- A board after a call by someone. -/
def boardStep (board : List TaskItem) (request : TaskAccess × Call) : Option (List TaskItem) :=
  some (executeWithStore board request.1 request.2).2

/-- The edges of the lists of dependents. -/
def Blocks (board : List TaskItem) (id other : Nat) : Prop :=
  ∃ task ∈ board, task.id = id ∧ other ∈ task.blocks

/-- The tasks that list a task as a dependent and are not completed. -/
def unfinishedBlockers (board : List TaskItem) (task : TaskItem) : List Nat :=
  (board.filter fun blocker => task.id ∈ blocker.blocks ∧ blocker.status ≠ .completed).map
    TaskItem.id

section Distinct

variable {board : List TaskItem} (distinct : (board.map TaskItem.id).Nodup) {task : TaskItem}
  {id other : Nat}
include distinct

theorem lookup_of_mem (mem : task ∈ board) : lookup board task.id = some task :=
  ParentLinks.find?_key_eq_some distinct mem

theorem exists_lookup_iff {Holds : TaskItem → Prop} :
    (∃ task ∈ lookup board id, Holds task) ↔ ∃ task ∈ board, task.id = id ∧ Holds task := by
  constructor
  · rintro ⟨task, found, holds⟩
    exact ⟨task, mem_of_lookup found, id_of_lookup found, holds⟩
  · rintro ⟨task, mem, rfl, holds⟩
    exact ⟨task, lookup_of_mem distinct mem, holds⟩

theorem viewOf_blocks_eq : (viewOf board).blocks = Blocks board := by
  funext id other
  exact propext (exists_lookup_iff distinct)

theorem present_iff : (viewOf board).Present id ↔ ∃ task ∈ board, task.id = id := by
  rw [View.Present]
  simp only [viewOf, Option.map_eq_some_iff]
  constructor
  · rintro ⟨_, task, found, -⟩
    exact ⟨task, mem_of_lookup found, id_of_lookup found⟩
  · rintro ⟨task, mem, rfl⟩
    exact ⟨_, task, lookup_of_mem distinct mem, rfl⟩

theorem mem_unfinishedBlockers :
    id ∈ unfinishedBlockers board task ↔
      (viewOf board).blocks id task.id ∧ (viewOf board).Unfinished id := by
  rw [unfinishedBlockers, mem_map]
  constructor
  · rintro ⟨blocker, isBlocker, rfl⟩
    obtain ⟨mem, blocks⟩ := mem_filter.mp isBlocker
    rw [decide_eq_true_eq] at blocks
    have found := lookup_of_mem distinct mem
    rw [viewOf_blocks found, unfinished_iff found]
    exact blocks
  · rintro ⟨⟨blocker, found, listed⟩, unfinished⟩
    rw [unfinished_iff found] at unfinished
    have isBlocker : task.id ∈ blocker.blocks ∧ blocker.status ≠ .completed := ⟨listed, unfinished⟩
    exact ⟨blocker, mem_filter.mpr ⟨mem_of_lookup found, decide_eq_true isBlocker⟩,
      id_of_lookup found⟩

end Distinct

/-! ## Soundness -/

structure Sound (board : List TaskItem) : Prop where
  distinct : (board.map TaskItem.id).Nodup
  view : (viewOf board).Sound

theorem Sound.empty : Sound [] where
  distinct := nodup_nil
  view := {
    present := by
      rintro id other ⟨task, found, -⟩
      cases found
    mirrored := by
      rintro id other ⟨task, found, -⟩
      cases found
    acyclic := by
      intro node cycle
      obtain ⟨next, ⟨task, found, -⟩, -⟩ := TransGen.head'_iff.mp cycle
      cases found }

variable {board : List TaskItem}

theorem Sound.follows {next : List TaskItem} {call : Call} (sound : Sound board)
    (follows : Follows board call next) : Sound next where
  distinct := follows.distinct
  view := sound.view.step follows.step

theorem boardStep_follows {next : List TaskItem} {request : TaskAccess × Call}
    (sound : Sound board) (stepped : boardStep board request = some next) :
    Follows board request.2 next := by
  cases stepped
  exact executeWithStore_follows sound.distinct request.1 request.2

theorem sound_of_reachable (reachable : Reachable boardStep [] board) : Sound board :=
  reachable.invariant
    (fun _ _ _ sound stepped => sound.follows (boardStep_follows sound stepped)) .empty

/-- Every reachable board has distinct ids, names tasks only, lists a task where
the task names its blocker, and has no cycle.  The search for a path ends and
finds what there is, on every list of tasks with distinct ids. -/
theorem reachable_board_sound :
    (∀ board, Reachable boardStep [] board →
      (board.map TaskItem.id).Nodup ∧
      (∀ task ∈ board, ∀ id ∈ task.blocks ++ task.blockedBy, ∃ other ∈ board, other.id = id) ∧
      (∀ task ∈ board, ∀ id ∈ task.blockedBy,
        ∃ blocker ∈ board, blocker.id = id ∧ task.id ∈ blocker.blocks) ∧
      Digraph.Acyclic (Blocks board)) ∧
    ∀ tasks : List TaskItem, (tasks.map TaskItem.id).Nodup → ∀ start goal,
      (searchPath tasks start goal).isSome ∧
        (pathExists tasks start goal ↔ ReflTransGen (Blocks tasks) start goal) := by
  constructor
  · intro board reachable
    obtain ⟨distinct, sound⟩ := sound_of_reachable reachable
    have mirrored (task : TaskItem) (mem : task ∈ board) (id : Nat)
        (blocked : id ∈ task.blockedBy) :
        Blocks board id task.id := by
      rw [← viewOf_blocks_eq distinct]
      exact sound.mirrored _ _ ((viewOf_blockedBy (lookup_of_mem distinct mem)).mpr blocked)
    refine ⟨distinct, ?_, mirrored, viewOf_blocks_eq distinct ▸ sound.acyclic⟩
    intro task mem id listed
    rcases mem_append.mp listed with dependent | blocker
    · rw [← present_iff distinct]
      have edge := (viewOf_blocks (lookup_of_mem distinct mem)).mpr dependent
      exact (sound.present _ _ edge).2
    · obtain ⟨other, isTask, same, -⟩ := mirrored task mem id blocker
      exact ⟨other, isTask, same⟩
  · intro tasks distinct start goal
    rw [← viewOf_blocks_eq distinct]
    exact pathExists_iff distinct start goal

/-- A task and one that waits for it. -/
def twoTasks : List (TaskAccess × Call) :=
  [(.lead, .create { subject := "a" }), (.lead, .create { subject := "b", blockedBy := [1] })]

/-- Set the status of a task. -/
def setTo (taskId : Nat) (status : TaskStatus) : TaskAccess × Call :=
  (.lead, .update { taskId, status := some status })

theorem reachable_board_sound_two_tasks :
    ∃ board, Reachable boardStep [] board ∧ Blocks board 1 2 ∧
      Digraph.Acyclic (Blocks board) ∧
        (pathExists board 1 2 ↔ ReflTransGen (Blocks board) 1 2) := by
  have ran : (run boardStep [] twoTasks).any
      fun board => decide (∃ task ∈ board, task.id = 1 ∧ 2 ∈ task.blocks) := by
    decide +kernel
  obtain ⟨board, reachable, blocks⟩ := exists_reachable_of_any ran
  have blocks := of_decide_eq_true blocks
  obtain ⟨distinct, -, -, acyclic⟩ := reachable_board_sound.1 board reachable
  exact ⟨board, reachable, blocks, acyclic, (reachable_board_sound.2 board distinct 1 2).2⟩

/-- On every reachable board with unfinished tasks, one of them waits for no unfinished task:
tasks never wait for each other in a circle. -/
theorem some_task_waits_for_no_other (reachable : Reachable boardStep [] board)
    (left : hasUnfinishedTasks board) :
    ∃ task ∈ board, task.status ≠ .completed ∧
      ∀ blocker ∈ board, blocker.id ∈ task.blockedBy → blocker.status = .completed := by
  obtain ⟨distinct, sound⟩ := sound_of_reachable reachable
  let unfinished := (board.filter fun task => task.status ≠ .completed).map TaskItem.id
  have isUnfinished (task : TaskItem) (mem : task ∈ board)
      (isOpen : decide (task.status ≠ .completed)) :
      task.id ∈ unfinished :=
    mem_map_of_mem (mem_filter.mpr ⟨mem, isOpen⟩)
  obtain ⟨some, mem, isOpen⟩ := any_eq_true.mp left
  obtain ⟨id, isFirst, unblocked⟩ :=
    sound.acyclic.exists_first unfinished.finite_toSet ⟨some.id, isUnfinished some mem isOpen⟩
  obtain ⟨first, isTask, rfl⟩ := mem_map.mp isFirst
  obtain ⟨onBoard, firstOpen⟩ := mem_filter.mp isTask
  refine ⟨first, onBoard, of_decide_eq_true firstOpen, ?_⟩
  intro blocker isBlocker blocked
  by_contra blockerOpen
  -- Its blockers list it, so an unfinished one would come before it.
  apply unblocked blocker.id (isUnfinished blocker isBlocker (decide_eq_true blockerOpen))
  exact sound.mirrored _ _ ((viewOf_blockedBy (lookup_of_mem distinct onBoard)).mpr blocked)

/-- The second of two tasks waits for the first. -/
theorem first_of_two_waits_for_no_other :
    ∃ board, Reachable boardStep [] board ∧ hasUnfinishedTasks board ∧
      ∃ task ∈ board, task.status ≠ .completed ∧
        ∀ blocker ∈ board, blocker.id ∈ task.blockedBy → blocker.status = .completed := by
  have ran : (run boardStep [] twoTasks).any fun board => hasUnfinishedTasks board := by
    decide +kernel
  obtain ⟨board, reachable, left⟩ := exists_reachable_of_any ran
  exact ⟨board, reachable, left, some_task_waits_for_no_other reachable left⟩

/-! ## Blockers of unfinished tasks -/

/-- The update takes up the task, which was completed. -/
def reopens (task : TaskItem) (input : TaskUpdateInput) : Bool :=
  task.status = .completed && input.status.any (· ≠ .completed)

/-- A completed task is reopened only when its blockers, but for those that the
update removes, are the unfinished tasks that list it. -/
def reopensExactly (board : List TaskItem) : Call → Bool
  | .update input => board.all fun task =>
    task.id = input.taskId → reopens task input →
      ∀ id ∈ task.blockedBy ++ unfinishedBlockers board task, id ∉ input.removeBlockedBy →
        id ∈ task.blockedBy ∧ id ∈ unfinishedBlockers board task
  | _ => true

variable {input : TaskUpdateInput}

theorem reopens_iff {task : TaskItem} (found : lookup board input.taskId = some task) :
    reopens task input ↔ (viewOf board).Reopens input := by
  rw [reopens, View.Reopens, viewOf_status found]
  simp [Option.any_eq_true]

theorem exists_lookup_of_status {id : Nat} {status : TaskStatus}
    (isStatus : (viewOf board).status id = some status) :
    ∃ task, lookup board id = some task ∧ task.status = status :=
  Option.map_eq_some_iff.mp isStatus

theorem reopensExact_of_reopensExactly
    (distinct : (board.map TaskItem.id).Nodup) (exactly : reopensExactly board (.update input)) :
    (viewOf board).ReopensExact input := by
  intro isReopened other kept
  obtain ⟨task, found, -⟩ := exists_lookup_of_status isReopened.1
  have isTask := id_of_lookup found
  have right := of_decide_eq_true (all_eq_true.mp exactly task (mem_of_lookup found)) isTask
    ((reopens_iff found).mpr isReopened) other
  rw [viewOf_blockedBy found, ← isTask, ← mem_unfinishedBlockers distinct]
  constructor
  · intro blocked
    exact (right (mem_append_left _ blocked) kept).2
  · intro unfinished
    exact (right (mem_append_right _ unfinished) kept).1

structure Exact (board : List TaskItem) : Prop extends Sound board where
  exact : (viewOf board).Exact

theorem Exact.empty : Exact [] where
  toSound := .empty
  exact := by
    rintro id ⟨status, isStatus, -⟩
    cases isStatus

/-- When tasks are reopened only exactly, the blockers of an unfinished task are
always the unfinished tasks that list it, and a task that is ready has no
unfinished blocker. -/
theorem blockers_exact_of_reopensExactly {board : List TaskItem}
    (reachable : Reachable
      (guarded boardStep fun board request => reopensExactly board request.2) [] board) :
    (∀ task ∈ board, task.status ≠ .completed →
      ∀ id, id ∈ task.blockedBy ↔ id ∈ unfinishedBlockers board task) ∧
    ∀ task ∈ (listTasks board).ready, ∀ blocker ∈ board, task.id ∈ blocker.blocks →
      blocker.status = .completed := by
  have kept : Exact board := by
    refine reachable.invariant (fun board request next exact stepped => ?_) .empty
    obtain ⟨allowed, stepped⟩ := guarded_eq_some_iff.mp stepped
    have follows := boardStep_follows exact.toSound stepped
    have undisturbed (input : TaskUpdateInput) (isUpdate : request.2 = .update input) :
        (viewOf board).ReopensExact input := by
      rw [isUpdate] at allowed
      exact reopensExact_of_reopensExactly exact.distinct allowed
    exact ⟨exact.toSound.follows follows, exact.exact.step exact.view follows.step undisturbed⟩
  have exactly (task : TaskItem) (mem : task ∈ board) (isOpen : task.status ≠ .completed)
      (id : Nat) :
      id ∈ task.blockedBy ↔ id ∈ unfinishedBlockers board task := by
    have found := lookup_of_mem kept.distinct mem
    rw [mem_unfinishedBlockers kept.distinct, ← viewOf_blockedBy found]
    exact kept.exact task.id ((unfinished_iff found).mpr isOpen) id
  refine ⟨exactly, ?_⟩
  intro task ready blocker isTask listed
  obtain ⟨mem, isReady⟩ := mem_filter.mp ready
  rw [Bool.and_eq_true, decide_eq_true_eq, List.isEmpty_iff] at isReady
  obtain ⟨pending, free⟩ := isReady
  by_contra isOpen
  have isBlocker : task.id ∈ blocker.blocks ∧ blocker.status ≠ .completed := ⟨listed, isOpen⟩
  have blocks : blocker.id ∈ task.blockedBy := by
    rw [exactly task mem (by rw [pending]; nofun)]
    exact mem_map_of_mem (mem_filter.mpr ⟨isTask, decide_eq_true isBlocker⟩)
  rw [free] at blocks
  exact not_mem_nil blocks

/-- A task is completed and reopened, and the one that depends on it waits again. -/
theorem blockers_exact_after_reopening :
    ∃ board, Reachable
        (guarded boardStep fun board request => reopensExactly board request.2) [] board ∧
      (∃ task ∈ board, task.id = 2 ∧ task.blockedBy = [1]) ∧
      ∀ task ∈ board, task.status ≠ .completed →
        ∀ id, id ∈ task.blockedBy ↔ id ∈ unfinishedBlockers board task := by
  have ran : (run
      (guarded boardStep fun board request => reopensExactly board request.2) []
      (twoTasks ++ [setTo 1 .completed, setTo 1 .pending])).any
      fun board => decide (∃ task ∈ board, task.id = 2 ∧ task.blockedBy = [1]) := by
    decide +kernel
  obtain ⟨board, reachable, waits⟩ := exists_reachable_of_any ran
  exact ⟨board, reachable, of_decide_eq_true waits, (blockers_exact_of_reopensExactly reachable).1⟩

/-- Two tasks, of which one depends on the other, are completed and then reopened
in the order of the dependency: the second is ready while the first is pending. -/
theorem ready_with_unfinished_blocker :
    ∃ board, Reachable boardStep [] board ∧
      ∃ task ∈ (listTasks board).ready, ∃ blocker ∈ board,
        task.id ∈ blocker.blocks ∧ blocker.status ≠ .completed := by
  have ran : (run boardStep []
      (twoTasks ++ [setTo 1 .completed, setTo 2 .completed, setTo 1 .pending,
        setTo 2 .pending])).any
      fun board => decide (∃ task ∈ (listTasks board).ready, ∃ blocker ∈ board,
        task.id ∈ blocker.blocks ∧ blocker.status ≠ .completed) := by
    decide +kernel
  obtain ⟨board, reachable, ready⟩ := exists_reachable_of_any ran
  exact ⟨board, reachable, of_decide_eq_true ready⟩

/-! ## Tasks that wait -/

def isUnfinished (board : List TaskItem) (id : Nat) : Bool :=
  board.any fun task => task.id = id && task.status ≠ .completed

/-- A pending task is completed only together with the removal of what it waits
for, and a completed task is reopened only when nothing that depends on it is in
progress. -/
def keepsWaiting (board : List TaskItem) : Call → Bool
  | .update input => board.all fun task =>
    task.id = input.taskId →
      (input.status = some .completed → task.status = .pending →
        ∀ id ∈ task.blockedBy ++ input.addBlockedBy.filter (isUnfinished board),
          id ∈ input.removeBlockedBy) ∧
      (reopens task input →
        ∀ dependent ∈ board, dependent.id ∈ task.blocks ++ input.addBlocks →
          dependent.id ∉ input.removeBlocks → dependent.status ≠ .inProgress)
  | _ => true

theorem isUnfinished_of_unfinished {id : Nat}
    (unfinished : (viewOf board).Unfinished id) : isUnfinished board id := by
  obtain ⟨status, isStatus, isOpen⟩ := unfinished
  obtain ⟨task, found, rfl⟩ := exists_lookup_of_status isStatus
  exact any_eq_true.mpr ⟨task, mem_of_lookup found, by simp [id_of_lookup found, isOpen]⟩

theorem keepsWaiting_view
    (keeps : keepsWaiting board (.update input)) : (viewOf board).KeepsWaiting input where
  finishes := by
    intro requested pending other waits
    obtain ⟨task, found, isPending⟩ := exists_lookup_of_status pending
    have right := of_decide_eq_true (all_eq_true.mp keeps task (mem_of_lookup found))
      (id_of_lookup found)
    apply right.1 requested isPending other
    rcases waits with old | ⟨added, unfinished⟩
    · exact mem_append_left _ ((viewOf_blockedBy found).mp old)
    · exact mem_append_right _ (mem_filter.mpr ⟨added, isUnfinished_of_unfinished unfinished⟩)
  reopens := by
    intro isReopened other depends kept inProgress
    obtain ⟨task, found, -⟩ := exists_lookup_of_status isReopened.1
    obtain ⟨dependent, foundDependent, started⟩ := exists_lookup_of_status inProgress
    have right := of_decide_eq_true (all_eq_true.mp keeps task (mem_of_lookup found))
      (id_of_lookup found)
    rw [← id_of_lookup foundDependent] at depends kept
    refine right.2 ((reopens_iff found).mpr isReopened) dependent (mem_of_lookup foundDependent)
      (mem_append.mpr ?_) kept started
    rw [viewOf_blocks found] at depends
    exact depends

structure Waiting (board : List TaskItem) : Prop extends Sound board where
  onlyPending : (viewOf board).OnlyPendingWait

theorem Waiting.empty : Waiting [] where
  toSound := .empty
  onlyPending := by
    intro id status isStatus
    cases isStatus

/-- When updates keep to that, no task that is in progress or completed has a
blocker that is not completed. -/
theorem no_unresolved_blocker_of_keepsWaiting {board : List TaskItem}
    (reachable : Reachable
      (guarded boardStep fun board request => keepsWaiting board request.2) [] board) :
    ∀ task ∈ board, task.status = .inProgress ∨ task.status = .completed →
      ∀ blocker ∈ board, blocker.id ∈ task.blockedBy → blocker.status = .completed := by
  have kept : Waiting board := by
    refine reachable.invariant (fun board request next waiting stepped => ?_) .empty
    obtain ⟨allowed, stepped⟩ := guarded_eq_some_iff.mp stepped
    have follows := boardStep_follows waiting.toSound stepped
    have keeps (input : TaskUpdateInput) (isUpdate : request.2 = .update input) :
        (viewOf board).KeepsWaiting input := by
      rw [isUpdate] at allowed
      exact keepsWaiting_view allowed
    exact ⟨waiting.toSound.follows follows,
      waiting.onlyPending.step waiting.view follows.step keeps⟩
  intro task mem begun blocker _ blocked
  have found := lookup_of_mem kept.distinct mem
  have notPending : task.status ≠ .pending := by
    rcases begun with started | completed
    · rw [started]
      nofun
    · rw [completed]
      nofun
  exact absurd ((viewOf_blockedBy found).mpr blocked)
    (kept.onlyPending task.id task.status (viewOf_status found) notPending blocker.id)

/-- A task is completed, the one that depends on it is started and completed, and
the first is reopened. -/
theorem no_unresolved_blocker_after_reopening :
    ∃ board, Reachable
        (guarded boardStep fun board request => keepsWaiting board request.2) [] board ∧
      (∃ task ∈ board, task.id = 1 ∧ task.status = .inProgress) ∧
      ∀ task ∈ board, task.status = .inProgress ∨ task.status = .completed →
        ∀ blocker ∈ board, blocker.id ∈ task.blockedBy → blocker.status = .completed := by
  have ran : (run
      (guarded boardStep fun board request => keepsWaiting board request.2) []
      (twoTasks ++ [setTo 1 .completed, setTo 2 .inProgress, setTo 2 .completed,
        setTo 1 .inProgress])).any
      fun board => decide (∃ task ∈ board, task.id = 1 ∧ task.status = .inProgress) := by
    decide +kernel
  obtain ⟨board, reachable, started⟩ := exists_reachable_of_any ran
  exact ⟨board, reachable, of_decide_eq_true started,
    no_unresolved_blocker_of_keepsWaiting reachable⟩

/-- A pending task is completed while it waits; and a task in progress is made to
wait when the one it depends on is reopened. -/
theorem begun_with_unresolved_blocker :
    (∃ board, Reachable boardStep [] board ∧
      ∃ task ∈ board, task.status = .completed ∧
        ∃ blocker ∈ board, blocker.id ∈ task.blockedBy ∧ blocker.status ≠ .completed) ∧
    ∃ board, Reachable boardStep [] board ∧
      ∃ task ∈ board, task.status = .inProgress ∧
        ∃ blocker ∈ board, blocker.id ∈ task.blockedBy ∧ blocker.status ≠ .completed := by
  have begun (status : TaskStatus) (requests : List (TaskAccess × Call))
      (ran : (run boardStep [] requests).any fun board =>
        decide (∃ task ∈ board, task.status = status ∧
          ∃ blocker ∈ board, blocker.id ∈ task.blockedBy ∧ blocker.status ≠ .completed)) :
      ∃ board, Reachable boardStep [] board ∧
        ∃ task ∈ board, task.status = status ∧
          ∃ blocker ∈ board, blocker.id ∈ task.blockedBy ∧ blocker.status ≠ .completed := by
    obtain ⟨board, reachable, found⟩ := exists_reachable_of_any ran
    exact ⟨board, reachable, of_decide_eq_true found⟩
  constructor
  · exact begun .completed (twoTasks ++ [setTo 2 .completed]) (by decide +kernel)
  · exact begun .inProgress
      (twoTasks ++ [setTo 1 .completed, setTo 2 .inProgress, setTo 1 .pending]) (by decide +kernel)

end Mentra.Task
