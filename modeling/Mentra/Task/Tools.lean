import Mentra.Task.Graph

/-!
# What the task tools do

A call of a tool leaves the view of the board as it is, puts a new task on it, or
edits the dependencies of one task and then changes its status.
-/

namespace Mentra.Task

open Foundation List TaskItem
open Foundation.Outcome (bind_eq_ok_iff)

namespace View

variable (view : View)

/-- The dependencies with the edits of an update, in the order they are made. -/
def edit (input : TaskUpdateInput) : View :=
  (((view.link (input.addBlockedBy.map (·, input.taskId))).unlink
    (input.removeBlockedBy.map (·, input.taskId))).link
    (input.addBlocks.map (input.taskId, ·))).unlink
    (input.removeBlocks.map (input.taskId, ·))

structure Editable (input : TaskUpdateInput) : Prop where
  blockers : view.Linkable (input.addBlockedBy.map (·, input.taskId))
  dependents : ((view.link (input.addBlockedBy.map (·, input.taskId))).unlink
    (input.removeBlockedBy.map (·, input.taskId))).Linkable (input.addBlocks.map (input.taskId, ·))

/-- What becomes of the view when a task that had a status gets the requested
one. -/
inductive Change (id : Nat) : TaskStatus → Option TaskStatus → View → Prop
  | keep {original : TaskStatus} {requested : Option TaskStatus}
      (same : ∀ status ∈ requested, status = original) (valid : view.Valid id) :
      Change id original requested view
  | finish {original : TaskStatus} (another : original ≠ .completed) (valid : view.Valid id) :
      Change id original (some .completed) (view.finish id)
  | start {original status : TaskStatus} (wasOpen : original ≠ .completed)
      (isOpen : status ≠ .completed) (valid : (view.setStatus id status).Valid id) :
      Change id original (some status) (view.setStatus id status)
  | reopen {status : TaskStatus} (isOpen : status ≠ .completed)
      (valid : (view.setStatus id status).Valid id) :
      Change id .completed (some status) (view.reopen id status)

/-- What a call may make of the view. -/
inductive Step : Call → View → Prop
  | stay (call : Call) : Step call view
  | create {input : TaskCreateInput} {id : Nat} (fresh : view.status id = none)
      (linkable : (view.insert id).Linkable (input.blockedBy.map (·, id))) :
      Step (.create input) ((view.insert id).link (input.blockedBy.map (·, id)))
  | update {input : TaskUpdateInput} {original : TaskStatus} {next : View}
      (present : view.status input.taskId = some original) (editable : view.Editable input)
      (change : (view.edit input).Change input.taskId original input.status next) :
      Step (.update input) next

end View

variable {tasks next : List TaskItem} {id other : Nat} {task : TaskItem}

/-! ## Creating tasks -/

theorem lt_nextTaskId (mem : task ∈ tasks) : task.id < nextTaskId tasks :=
  Nat.lt_succ_of_le (le_max?_getD_of_mem (mem_map_of_mem mem))

theorem lookup_nextTaskId (tasks : List TaskItem) : lookup tasks (nextTaskId tasks) = none := by
  rw [lookup, find?_eq_none]
  intro task mem
  simpa using (lt_nextTaskId mem).ne

theorem nodup_append_newTask (distinct : (tasks.map TaskItem.id).Nodup) (input : TaskCreateInput) :
    ((tasks ++ [newTask input (nextTaskId tasks)]).map TaskItem.id).Nodup := by
  rw [map_append, map_singleton, nodup_append_comm, singleton_append, nodup_cons]
  refine ⟨?_, distinct⟩
  intro mem
  obtain ⟨old, isOld, same⟩ := mem_map.mp mem
  exact absurd same (lt_nextTaskId isOld).ne

theorem viewOf_append_newTask (input : TaskCreateInput) (fresh : lookup tasks id = none) :
    viewOf (tasks ++ [newTask input id]) = (viewOf tasks).insert id := by
  have self : lookup (tasks ++ [newTask input id]) id = some (newTask input id) := by
    rw [lookup, find?_append, ← lookup, fresh]
    simp [newTask]
  have others (other : Nat) (apart : other ≠ id) :
      lookup (tasks ++ [newTask input id]) other = lookup tasks other := by
    rw [lookup, find?_append, ← lookup]
    simp [newTask, apart.symm]
  ext first second
  · by_cases same : first = id
    · rw [same, viewOf_status self]
      simp [View.insert, newTask]
    · simp [viewOf, View.insert, same, others first same]
  · by_cases same : first = id
    · rw [same, viewOf_blocks self]
      simp [View.insert, viewOf, fresh, newTask]
    · simp [viewOf, View.insert, others first same]
  · by_cases same : first = id
    · rw [same, viewOf_blockedBy self]
      simp [View.insert, viewOf, fresh, newTask]
    · simp [viewOf, View.insert, others first same]

theorem createTask_ok {input : TaskCreateInput} {created : TaskItem}
    (distinct : (tasks.map TaskItem.id).Nodup)
    (done : createTask input tasks = .ok (created, next)) :
    (next.map TaskItem.id).Nodup ∧ (viewOf tasks).Step (.create input) (viewOf next) := by
  obtain ⟨linked, looped, done⟩ := bind_eq_ok_iff.mp done
  obtain ⟨found, -, done⟩ := bind_eq_ok_iff.mp done
  cases done
  have wider := nodup_append_newTask distinct input
  obtain ⟨linkable, view, ids⟩ := addDependencies_ok
    (input.blockedBy.map (·, nextTaskId tasks)) wider (foldlM_map.trans looped)
  rw [viewOf_append_newTask input (lookup_nextTaskId tasks)] at linkable view
  rw [view]
  have fresh : (viewOf tasks).status (nextTaskId tasks) = none := by
    simp [viewOf, lookup_nextTaskId]
  exact ⟨ids ▸ wider, .create fresh linkable⟩

/-! ## Claiming tasks -/

/-- The owner of the task that is claimed does not show in the view. -/
theorem viewOf_modifyFirst_setOwner (test : TaskItem → Bool) (owner : String)
    (tasks : List TaskItem) : viewOf (modifyFirst test (.setOwner owner) tasks) = viewOf tasks := by
  have same (id : Nat) : ∀ tasks : List TaskItem,
      lookup (modifyFirst test (.setOwner owner) tasks) id = lookup tasks id ∨
        ∃ task, lookup tasks id = some task ∧
          lookup (modifyFirst test (.setOwner owner) tasks) id = some (task.setOwner owner) := by
    intro tasks
    induction tasks with
    | nil => exact .inl rfl
    | cons task rest ih =>
      rw [modifyFirst]
      by_cases here : task.id = id
      · split
        · exact .inr ⟨task, by simp [lookup, here], by simp [lookup, setOwner, here]⟩
        · exact .inl (by simp [lookup, here])
      · split
        · exact .inl (by simp [lookup, setOwner, here])
        · simpa [lookup, here] using ih
  ext id other
  all_goals
    rcases same id tasks with unchanged | ⟨task, found, changed⟩
    · simp [viewOf, unchanged]
    · simp [viewOf, found, changed, setOwner]

theorem claimTask_ok {input : TaskClaimInput} {owner : String} {claimed : TaskItem}
    (done : claimTask input owner tasks = .ok (claimed, next)) :
    next.map TaskItem.id = tasks.map TaskItem.id ∧ viewOf next = viewOf tasks := by
  have kept (test : TaskItem → Bool) :
      (modifyFirst test (.setOwner owner) tasks).map TaskItem.id = tasks.map TaskItem.id ∧
        viewOf (modifyFirst test (.setOwner owner) tasks) = viewOf tasks :=
    ⟨modifyFirst_map_id (fun _ => by rfl) tasks, viewOf_modifyFirst_setOwner test owner tasks⟩
  rw [claimTask] at done
  split at done
  · split at done
    · rename_i claimed given
      cases done
      obtain ⟨task, -, given⟩ := bind_eq_ok_iff.mp given
      obtain ⟨checked, -, given⟩ := bind_eq_ok_iff.mp given
      cases given
      exact kept _
    · cases done
  · rw [claimFirst] at done
    split at done
    · cases done
      exact kept _
    · cases done

/-! ## Updating tasks -/

variable {input : TaskUpdateInput}

theorem editDependencies_ok (distinct : (tasks.map TaskItem.id).Nodup)
    (edited : editDependencies input tasks = .ok next) :
    (viewOf tasks).Editable input ∧ viewOf next = (viewOf tasks).edit input ∧
      next.map TaskItem.id = tasks.map TaskItem.id := by
  obtain ⟨first, addedBlockers, edited⟩ := bind_eq_ok_iff.mp edited
  obtain ⟨second, removedBlockers, edited⟩ := bind_eq_ok_iff.mp edited
  obtain ⟨third, addedDependents, removedDependents⟩ := bind_eq_ok_iff.mp edited
  obtain ⟨blockers, firstView, firstIds⟩ := addDependencies_ok
    (input.addBlockedBy.map (·, input.taskId)) distinct (foldlM_map.trans addedBlockers)
  obtain ⟨secondView, secondIds⟩ := removeDependencies_ok
    (input.removeBlockedBy.map (·, input.taskId)) (foldlM_map.trans removedBlockers)
  rw [← firstIds, ← secondIds] at distinct
  obtain ⟨dependents, thirdView, thirdIds⟩ := addDependencies_ok
    (input.addBlocks.map (input.taskId, ·)) distinct (foldlM_map.trans addedDependents)
  obtain ⟨lastView, lastIds⟩ := removeDependencies_ok
    (input.removeBlocks.map (input.taskId, ·)) (foldlM_map.trans removedDependents)
  rw [secondView, firstView] at dependents
  refine ⟨⟨blockers, dependents⟩, ?_, ?_⟩
  · rw [lastView, thirdView, secondView, firstView, View.edit]
  · rw [lastIds, thirdIds, secondIds, firstIds]

/-- What a status change does when the task had the status it started from. -/
theorem applyStatusChange_ok {original status : TaskStatus} {changed : StatusChange}
    (applied : applyStatusChange tasks id original status = .ok changed) :
    (viewOf tasks).Change id original (some status) (viewOf changed.tasks) ∧
      changed.tasks.map TaskItem.id = tasks.map TaskItem.id := by
  have started (isOpen : status ≠ .completed)
      (applied : startTask tasks id original status = .ok changed) :
      (viewOf tasks).Change id original (some status) (viewOf changed.tasks) ∧
        changed.tasks.map TaskItem.id = tasks.map TaskItem.id := by
    obtain ⟨valid, view, ids⟩ := startTask_ok applied
    refine ⟨?_, ids⟩
    rw [view]
    split
    · rename_i wasCompleted
      rw [wasCompleted]
      exact .reopen isOpen valid
    · rename_i wasOpen
      exact .start wasOpen isOpen valid
  unfold applyStatusChange at applied
  split at applied
  · rename_i same
    obtain ⟨task, found, applied⟩ := bind_eq_ok_iff.mp applied
    obtain ⟨checked, valid, applied⟩ := bind_eq_ok_iff.mp applied
    cases applied
    refine ⟨.keep ?_ (valid_of_validateUnblockedStatus (findTask_eq_ok_iff.mp found) valid), rfl⟩
    intro requested isRequested
    cases isRequested
    exact same.symm
  · rename_i another
    cases status with
    | completed =>
      obtain ⟨valid, view, ids⟩ := completeTask_ok applied
      rw [view]
      exact ⟨.finish another valid, ids⟩
    | pending | inProgress => exact started nofun applied

theorem changeStatus_ok {original : TaskStatus} {changed : StatusChange}
    (done : changeStatus input original tasks = .ok changed) :
    (viewOf tasks).Change input.taskId original input.status (viewOf changed.tasks) ∧
      changed.tasks.map TaskItem.id = tasks.map TaskItem.id := by
  rw [changeStatus] at done
  split at done
  · rename_i status requested
    rw [requested]
    exact applyStatusChange_ok done
  · rename_i unrequested
    obtain ⟨task, found, done⟩ := bind_eq_ok_iff.mp done
    obtain ⟨checked, valid, done⟩ := bind_eq_ok_iff.mp done
    cases done
    rw [unrequested]
    exact ⟨.keep nofun (valid_of_validateUnblockedStatus (findTask_eq_ok_iff.mp found) valid), rfl⟩

theorem updateTask_ok {access : TaskAccess} {output : TaskUpdateOutput}
    (distinct : (tasks.map TaskItem.id).Nodup)
    (done : updateTask input access tasks = .ok (output, next)) :
    (next.map TaskItem.id).Nodup ∧ (viewOf tasks).Step (.update input) (viewOf next) := by
  obtain ⟨original, found, done⟩ := bind_eq_ok_iff.mp done
  obtain ⟨allowed, -, done⟩ := bind_eq_ok_iff.mp done
  obtain ⟨edited, dependencies, done⟩ := bind_eq_ok_iff.mp done
  obtain ⟨changed, status, done⟩ := bind_eq_ok_iff.mp done
  obtain ⟨task, -, done⟩ := bind_eq_ok_iff.mp done
  cases done
  rw [findTask_eq_ok_iff] at found
  have keeps (task : TaskItem) : (editFields input task).id = task.id := rfl
  have sameIds := modifyTask_map_id keeps tasks input.taskId
  rw [← sameIds] at distinct
  obtain ⟨editable, editedView, editedIds⟩ := editDependencies_ok distinct dependencies
  obtain ⟨change, changedIds⟩ := changeStatus_ok status
  rw [editedView] at change
  rw [viewOf_modifyTask_same found keeps rfl rfl rfl] at editable change
  refine ⟨?_, .update (viewOf_status found) editable change⟩
  rw [changedIds, editedIds]
  exact distinct

/-! ## Any call -/

theorem mutateStoreTasks_snd {board : List TaskItem}
    {operation : List TaskItem → Except String (Output × List TaskItem)}
    {Holds : List TaskItem → Prop} (kept : Holds board)
    (done : ∀ output next, operation board = .ok (output, next) → Holds next) :
    Holds (mutateStoreTasks board operation).2 := by
  rw [mutateStoreTasks]
  split
  · rename_i output next succeeded
    exact done output next succeeded
  · exact kept

/-- The working directory, which is all that parsing changes, does not show. -/
theorem View.Step.of_parsed_create {view after : View} {input parsed : TaskCreateInput}
    (isParsed : parseTaskCreateInput input = .ok parsed) (step : view.Step (.create parsed) after) :
    view.Step (.create input) after := by
  rw [parseTaskCreateInput] at isParsed
  split at isParsed
  · cases isParsed
  · cases isParsed
    cases step with
    | stay => exact .stay _
    | create fresh linkable => exact .create fresh linkable

theorem View.Step.of_parsed_update {view after : View} {parsed : TaskUpdateInput}
    (isParsed : parseTaskUpdateInput input = .ok parsed) (step : view.Step (.update parsed) after) :
    view.Step (.update input) after := by
  rw [parseTaskUpdateInput] at isParsed
  split at isParsed
  · cases isParsed
  · cases isParsed
    cases step with
    | stay => exact .stay _
    | update present editable change =>
      exact .update present ⟨editable.blockers, editable.dependents⟩ change

/-- A board after a call: the ids stay distinct and the view makes a step. -/
structure Follows (board : List TaskItem) (call : Call) (next : List TaskItem) : Prop where
  distinct : (next.map TaskItem.id).Nodup
  step : (viewOf board).Step call (viewOf next)

theorem executeWithStore_follows {board : List TaskItem}
    (distinct : (board.map TaskItem.id).Nodup) (access : TaskAccess) (call : Call) :
    Follows board call (executeWithStore board access call).2 := by
  have stays : Follows board call board := ⟨distinct, .stay call⟩
  cases call with
  | create input =>
    rw [executeWithStore]
    split
    · exact stays
    · rename_i parsed isParsed
      refine mutateStoreTasks_snd stays fun output next done => ?_
      split at done
      · rename_i created
        cases done
        obtain ⟨nodup, step⟩ := createTask_ok distinct created
        exact ⟨nodup, step.of_parsed_create isParsed⟩
      · cases done
  | claim input =>
    rw [executeWithStore]
    split
    · exact stays
    · refine mutateStoreTasks_snd stays fun output next done => ?_
      obtain ⟨⟨claimed, tasks⟩, succeeded, done⟩ := Outcome.map_eq_ok_iff.mp done
      cases done
      obtain ⟨ids, view⟩ := claimTask_ok succeeded
      exact ⟨ids ▸ distinct, view ▸ .stay _⟩
  | update input =>
    rw [executeWithStore]
    split
    · exact stays
    · rename_i parsed isParsed
      refine mutateStoreTasks_snd stays fun output next done => ?_
      split at done
      · rename_i updated
        cases done
        obtain ⟨nodup, step⟩ := updateTask_ok distinct updated
        exact ⟨nodup, step.of_parsed_update isParsed⟩
      · cases done
  | get taskId =>
    rw [executeWithStore]
    split
    · exact stays
    · exact stays
  | list => exact stays

end Mentra.Task
