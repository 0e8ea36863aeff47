import Mentra.Background.Core

/-!
# Telling background tasks apart

The counter that gives tasks their ids starts over with every process, and the records
the ids stand for do not.  As long as an agent starts its tasks in one process, its ids
are new and an execution that ends finds the record it began with.
-/

namespace Mentra.Background

open Foundation List Function Transition

/-! ## Histories -/

/-- The agent starts a task. -/
def Starts (actions : List Action) (agentId : String) : Prop :=
  ∃ request now stores, Action.start agentId request now stores ∈ actions

/-- The agent started a task in a process that has ended. -/
def Elder (actions : List Action) (agentId : String) : Prop :=
  ∃ earlier now later, actions = earlier ++ .restart now :: later ∧ Starts earlier agentId

/-- No agent starts tasks before and after a restart. -/
def OneProcess (actions : List Action) : Prop :=
  ∀ earlier now later agentId, actions = earlier ++ .restart now :: later →
    Starts earlier agentId → ¬Starts later agentId

def isStart : Action → Bool
  | .start .. => true
  | _ => false

/-! ## Records -/

/-- The agent has a task with this id in memory or in the table. -/
def World.Knows (world : World) (agentId id : String) : Prop :=
  (∃ task ∈ world.tasksOf agentId, task.id = id) ∨ ∃ row ∈ world.rows, row.hasKey agentId id

/-- The record of one task is replaced, in memory and in the table, and no other. -/
structure Updates (agentId : String) (started completed : BackgroundTaskSummary)
    (before after : World) : Prop where
  memory : ∃ front rest, before.tasksOf agentId = front ++ started :: rest ∧
    after.tasksOf agentId = front ++ completed :: rest ∧
      ∀ other ∈ front ++ rest, other.id ≠ started.id
  table : ∃ front row updated rest, before.rows = front ++ row :: rest ∧
    after.rows = front ++ updated :: rest ∧ row.agentId = agentId ∧ row.task = started ∧
      updated.agentId = agentId ∧ updated.task = completed ∧
        ∀ other ∈ front ++ rest, ¬other.hasKey agentId started.id
  others : ∀ other, other ≠ agentId → after.tasksOf other = before.tasksOf other

/-- A task is started under a new id, or the record of the task that ends is updated. -/
def Sound (action : Action) (before after : World) : Prop :=
  match action with
  | .start agentId request _ _ =>
    ¬before.Knows agentId before.nextId ∧
      after.tasksOf agentId = before.tasksOf agentId ++ [startedTask before.nextId request]
  | .finish place outcome _ _ =>
    ∃ execution, before.executions[place]? = some execution ∧
      Updates execution.agentId execution.started
        (completedTask execution.taskId execution.request outcome) before after
  | .register _ _ | .restart _ => True

/-! ## The table -/

/-- The tasks of an agent in the table. -/
def tasksIn (rows : List JobRow) (agentId : String) : List BackgroundTaskSummary :=
  (rows.filter fun row => row.agentId = agentId).map JobRow.task

variable {rows front rest : List JobRow} {row : JobRow} {agentId other : String}
  {task started completed : BackgroundTaskSummary} {notificationState now : Nat}

theorem tasksIn_append (first second : List JobRow) (agentId : String) :
    tasksIn (first ++ second) agentId = tasksIn first agentId ++ tasksIn second agentId := by
  simp [tasksIn]

theorem tasksIn_cons_self (isAgent : row.agentId = agentId) :
    tasksIn (row :: rest) agentId = row.task :: tasksIn rest agentId := by
  simp [tasksIn, isAgent]

theorem tasksIn_cons_of_ne (differs : row.agentId ≠ agentId) :
    tasksIn (row :: rest) agentId = tasksIn rest agentId := by
  simp [tasksIn, differs]

theorem mem_tasksIn : task ∈ tasksIn rows agentId ↔
    ∃ row ∈ rows, row.agentId = agentId ∧ row.task = task := by
  simp [tasksIn, and_assoc]

theorem hasKey_iff {id : String} :
    row.hasKey agentId id ↔ row.agentId = agentId ∧ row.task.id = id := by
  simp [JobRow.hasKey]

theorem upsert_old (hasKey : row.hasKey agentId task.id)
    (others : ∀ other ∈ front ++ rest, ¬other.hasKey agentId task.id) :
    upsertBackgroundTask (front ++ row :: rest) agentId task notificationState now =
      front ++ { row with task, notificationState, updatedAt := now } :: rest := by
  have untouched {part : List JobRow} (subset : part ⊆ front ++ rest) :
      (part.map fun row => if row.hasKey agentId task.id then
        { row with task, notificationState, updatedAt := now } else row) = part := by
    refine (map_congr_left ?_).trans (map_id part)
    intro other mem
    exact if_neg (others other (subset mem))
  have present : (front ++ row :: rest).any fun row => row.hasKey agentId task.id := by
    simp [hasKey]
  rw [upsertBackgroundTask, if_pos present, map_append, map_cons, if_pos hasKey,
    untouched (subset_append_left _ _), untouched (subset_append_right _ _)]

theorem recordCompleted_eq {front rest : List BackgroundTaskSummary}
    (sameId : completed.id = started.id) (earlier : ∀ other ∈ front, other.id ≠ started.id) :
    recordCompleted (front ++ started :: rest) completed = front ++ completed :: rest := by
  have inRange : front.length < (front ++ started :: rest).length := by simp
  have found : (front ++ started :: rest).findFinIdx? (fun task => task.id = completed.id) =
      some ⟨front.length, inRange⟩ := by
    rw [findFinIdx?_eq_some_iff]
    constructor
    · simp [sameId]
    · intro index before
      have inFront : index.1 < front.length := before
      have isEarlier := earlier front[index.1] (getElem_mem inFront)
      simpa [getElem_append_left inFront, sameId] using isEarlier
  rw [recordCompleted, found]
  simp

/-! ## What a run keeps -/

/-- The records of an agent that started no task in an earlier process. -/
structure Orderly (world : World) (agentId : String) : Prop where
  held : (world.tasksOf agentId).Perm (tasksIn world.rows agentId)
  numbered : ∀ task ∈ tasksIn world.rows agentId,
    ∃ number ≤ world.nextTaskId, task.id = taskId number
  distinct : ((tasksIn world.rows agentId).map BackgroundTaskSummary.id).Nodup

structure Kept (actions : List Action) (world : World) : Prop where
  counter : world.nextTaskId ≤ actions.countP isStart
  orderly : ∀ agentId, ¬Elder actions agentId → Orderly world agentId
  starts : ∀ row ∈ world.rows, Starts actions row.agentId
  executes : ∀ execution ∈ world.executions, ¬Elder actions execution.agentId ∧
    execution.started ∈ tasksIn world.rows execution.agentId
  distinct : (world.executions.map fun execution =>
    (execution.agentId, execution.taskId)).Nodup

theorem taskId_injective {first second : Nat} (same : taskId first = taskId second) :
    first = second :=
  Nat.repr_injective ((String.append_right_inj "bg-").mp same)

theorem Orderly.not_knows {world : World} (orderly : Orderly world agentId) {number : Nat}
    (beyond : world.nextTaskId < number) : ¬world.Knows agentId (taskId number) := by
  have new (task : BackgroundTaskSummary) (mem : task ∈ tasksIn world.rows agentId) :
      task.id ≠ taskId number := by
    intro same
    obtain ⟨old, atMost, isOld⟩ := orderly.numbered task mem
    have := taskId_injective (same.symm.trans isOld)
    omega
  rintro (⟨task, mem, same⟩ | ⟨row, mem, hasKey⟩)
  · exact new task (orderly.held.mem_iff.mp mem) same
  · obtain ⟨isAgent, same⟩ := hasKey_iff.mp hasKey
    exact new row.task (mem_tasksIn.mpr ⟨row, mem, isAgent, rfl⟩) same

theorem Starts.append {actions : List Action} (starts : Starts actions agentId)
    (more : List Action) : Starts (actions ++ more) agentId := by
  obtain ⟨request, now, stores, mem⟩ := starts
  exact ⟨request, now, stores, mem_append_left _ mem⟩

theorem elder_concat {actions : List Action} (action : Action)
    (notRestart : ∀ now, action ≠ .restart now) :
    Elder (actions ++ [action]) agentId ↔ Elder actions agentId := by
  constructor
  · rintro ⟨earlier, now, later, split, starts⟩
    rcases eq_nil_or_concat later with rfl | ⟨front, last, rfl⟩
    · obtain ⟨-, isLast⟩ := append_inj' split rfl
      cases isLast
      exact absurd rfl (notRestart now)
    · rw [concat_eq_append, ← cons_append, ← append_assoc] at split
      exact ⟨earlier, now, front, (append_inj' split rfl).1, starts⟩
  · rintro ⟨earlier, now, later, rfl, starts⟩
    exact ⟨earlier, now, later ++ [action], by simp, starts⟩

theorem elder_restart {actions : List Action} :
    Elder (actions ++ [.restart now]) agentId ↔ Starts actions agentId := by
  constructor
  · rintro ⟨earlier, ended, later, split, starts⟩
    rcases eq_nil_or_concat later with rfl | ⟨front, last, rfl⟩
    · rw [(append_inj' split rfl).1]
      exact starts
    · rw [concat_eq_append, ← cons_append, ← append_assoc] at split
      rw [(append_inj' split rfl).1]
      exact starts.append _
  · intro starts
    exact ⟨actions, now, [], rfl, starts⟩

variable {actions : List Action} {world : World}

theorem tasksOf_setTasks_self (world : World) (agentId : String)
    (tasks : List BackgroundTaskSummary) :
    (world.setTasks agentId tasks).tasksOf agentId = tasks := by
  show (update world.agents agentId (some tasks) agentId).getD [] = tasks
  rw [update_self, Option.getD_some]

theorem tasksOf_setTasks_of_ne (world : World) (tasks : List BackgroundTaskSummary)
    (differs : other ≠ agentId) :
    (world.setTasks agentId tasks).tasksOf other = world.tasksOf other := by
  show (update world.agents agentId (some tasks) other).getD [] = _
  rw [update_of_ne differs]
  rfl

/-- An agent whose records a step leaves alone. -/
theorem Orderly.of_same {next : World} (orderly : Orderly world agentId)
    (tasks : next.tasksOf agentId = world.tasksOf agentId)
    (table : tasksIn next.rows agentId = tasksIn world.rows agentId)
    (counter : world.nextTaskId ≤ next.nextTaskId) : Orderly next agentId where
  held := by
    rw [tasks, table]
    exact orderly.held
  numbered := by
    rw [table]
    intro task mem
    obtain ⟨number, atMost, isNumber⟩ := orderly.numbered task mem
    exact ⟨number, atMost.trans counter, isNumber⟩
  distinct := by
    rw [table]
    exact orderly.distinct

theorem Kept.new : Kept [] World.new where
  counter := Nat.le_refl _
  orderly _ _ := ⟨.refl _, fun _ mem => absurd mem not_mem_nil, nodup_nil⟩
  starts _ mem := absurd mem not_mem_nil
  executes _ mem := absurd mem not_mem_nil
  distinct := nodup_nil

theorem Kept.register (kept : Kept actions world) (agentId : String) :
    Kept (actions ++ [.register agentId true]) (registerAgent world agentId true) where
  counter := by
    rw [countP_append]
    exact kept.counter.trans (Nat.le_add_right _ _)
  orderly other notElder := by
    rw [elder_concat (.register agentId true) fun _ => nofun] at notElder
    obtain ⟨held, numbered, distinct⟩ := kept.orderly other notElder
    refine ⟨?_, numbered, distinct⟩
    by_cases isAgent : other = agentId
    · subst isAgent
      rw [registerAgent, if_pos rfl, tasksOf_setTasks_self]
      exact (perm_insertionSort _ _).map _
    · rw [registerAgent, tasksOf_setTasks_of_ne _ _ isAgent]
      exact held
  starts row mem := (kept.starts row mem).append _
  executes execution mem := by
    rw [elder_concat (.register agentId true) fun _ => nofun]
    exact kept.executes execution mem
  distinct := kept.distinct

/-- After a restart, an agent is an elder if it has records at all. -/
theorem Kept.restart (kept : Kept actions world) (now : Nat) :
    Kept (actions ++ [.restart now]) (restart world now) where
  counter := Nat.zero_le _
  orderly agentId notElder := by
    rw [elder_restart] at notElder
    have none : tasksIn (prepareRecovery world.rows now) agentId = [] := by
      rw [eq_nil_iff_forall_not_mem]
      intro task mem
      obtain ⟨row, recovered, isAgent, -⟩ := mem_tasksIn.mp mem
      obtain ⟨old, oldMem, rfl⟩ := mem_map.mp recovered
      have sameAgent : old.agentId = agentId := by
        rw [← isAgent]
        dsimp only
        split_ifs <;> rfl
      exact notElder (sameAgent ▸ kept.starts old oldMem)
    refine ⟨?_, ?_, ?_⟩
    · rw [Background.restart, none]
      exact .refl _
    · rw [Background.restart, none]
      exact fun _ mem => absurd mem not_mem_nil
    · rw [Background.restart, none]
      exact nodup_nil
  starts row mem := by
    obtain ⟨old, oldMem, rfl⟩ := mem_map.mp mem
    have starts := (kept.starts old oldMem).append [.restart now]
    dsimp only
    split_ifs <;> exact starts
  executes _ mem := absurd mem not_mem_nil
  distinct := nodup_nil

/-! ## Starting a task -/

theorem nextId_eq (fits : world.nextTaskId + 1 < 2 ^ 64) :
    world.nextId = taskId (world.nextTaskId + 1) := by
  rw [World.nextId, Nat.mod_eq_of_lt fits]

/-- The state after a task has started under a new id. -/
def World.afterStart (world : World) (agentId : String) (request : CommandRequest) (now : Nat) :
    World :=
  let summary := startedTask world.nextId request
  { rows := world.rows ++ [⟨agentId, summary, notificationAcked, now, now⟩]
    nextTaskId := world.nextTaskId + 1
    agents := update world.agents agentId (some (world.tasksOf agentId ++ [summary]))
    executions := world.executions ++ [⟨agentId, world.nextId, request⟩] }

theorem startTask_eq (fits : world.nextTaskId + 1 < 2 ^ 64)
    (fresh : ¬world.Knows agentId world.nextId) (request : CommandRequest) (now : Nat) :
    startTask world agentId request now true = world.afterStart agentId request now := by
  have isNew : ¬world.rows.any (·.hasKey agentId (startedTask world.nextId request).id) := by
    rw [any_eq_true]
    exact fun known => fresh (.inr known)
  simp only [startTask, if_true, World.setTasks, upsertBackgroundTask, if_neg isNew,
    Nat.mod_eq_of_lt fits]
  rfl

theorem tasksIn_started_self (world : World) (agentId : String) (request : CommandRequest)
    (now : Nat) : tasksIn (world.afterStart agentId request now).rows agentId =
      tasksIn world.rows agentId ++ [startedTask world.nextId request] := by
  rw [World.afterStart, tasksIn_append, tasksIn_cons_self rfl]
  rfl

theorem tasksIn_started_of_ne (request : CommandRequest) (differs : other ≠ agentId) :
    tasksIn (world.afterStart agentId request now).rows other = tasksIn world.rows other := by
  rw [World.afterStart, tasksIn_append, tasksIn_cons_of_ne differs.symm]
  exact append_nil _

theorem tasksOf_started_self (world : World) (agentId : String) (request : CommandRequest)
    (now : Nat) : (world.afterStart agentId request now).tasksOf agentId =
      world.tasksOf agentId ++ [startedTask world.nextId request] :=
  tasksOf_setTasks_self world agentId _

theorem tasksIn_started_subset (request : CommandRequest) :
    tasksIn world.rows other ⊆ tasksIn (world.afterStart agentId request now).rows other := by
  rw [World.afterStart, tasksIn_append]
  exact subset_append_left _ _

theorem Orderly.afterStart (orderly : Orderly world agentId) (request : CommandRequest)
    (isNext : world.nextId = taskId (world.nextTaskId + 1))
    (fresh : ¬world.Knows agentId world.nextId) :
    Orderly (world.afterStart agentId request now) agentId where
  held := by
    rw [tasksOf_started_self, tasksIn_started_self]
    exact orderly.held.append_right _
  numbered := by
    rw [tasksIn_started_self]
    intro task mem
    rcases mem_append.mp mem with old | new
    · obtain ⟨number, atMost, isNumber⟩ := orderly.numbered task old
      exact ⟨number, Nat.le_succ_of_le atMost, isNumber⟩
    · rw [mem_singleton.mp new]
      exact ⟨world.nextTaskId + 1, Nat.le_refl _, isNext⟩
  distinct := by
    rw [tasksIn_started_self, map_append, nodup_append]
    refine ⟨orderly.distinct, nodup_singleton _, ?_⟩
    intro id old newId new same
    obtain ⟨task, mem, rfl⟩ := mem_map.mp old
    obtain ⟨row, rowMem, isAgent, rfl⟩ := mem_tasksIn.mp mem
    rw [map_singleton, mem_singleton] at new
    exact fresh (.inr ⟨row, rowMem, hasKey_iff.mpr ⟨isAgent, same.trans new⟩⟩)

theorem Kept.start (kept : Kept actions world) {request : CommandRequest}
    (notElder : ¬Elder actions agentId) (few : actions.countP isStart + 1 < 2 ^ 64) :
    Kept (actions ++ [.start agentId request now true]) (startTask world agentId request now true) ∧
      Sound (.start agentId request now true) world (startTask world agentId request now true) := by
  have fits : world.nextTaskId + 1 < 2 ^ 64 := (Nat.add_le_add_right kept.counter 1).trans_lt few
  have isNext := nextId_eq fits
  have fresh : ¬world.Knows agentId world.nextId := by
    rw [isNext]
    exact (kept.orderly agentId notElder).not_knows (Nat.lt_succ_self _)
  rw [startTask_eq fits fresh]
  refine ⟨⟨?_, ?_, ?_, ?_, ?_⟩, fresh, tasksOf_started_self world agentId request now⟩
  · rw [countP_append]
    exact Nat.add_le_add_right kept.counter 1
  · intro other otherNotElder
    rw [elder_concat (.start agentId request now true) fun _ => nofun] at otherNotElder
    have orderly := kept.orderly other otherNotElder
    by_cases isAgent : other = agentId
    · subst isAgent
      exact orderly.afterStart request isNext fresh
    · exact orderly.of_same (tasksOf_setTasks_of_ne world _ isAgent)
        (tasksIn_started_of_ne request isAgent) (Nat.le_succ _)
  · intro row mem
    rcases mem_append.mp mem with old | new
    · exact (kept.starts row old).append _
    · rw [mem_singleton.mp new]
      exact ⟨request, now, true, mem_append_right _ (mem_singleton_self _)⟩
  · intro execution mem
    rw [elder_concat (.start agentId request now true) fun _ => nofun]
    rcases mem_append.mp mem with old | new
    · obtain ⟨isYoung, recorded⟩ := kept.executes execution old
      exact ⟨isYoung, tasksIn_started_subset request recorded⟩
    · rw [mem_singleton.mp new]
      refine ⟨notElder, ?_⟩
      rw [tasksIn_started_self]
      exact mem_append_right _ (mem_singleton_self _)
  · rw [World.afterStart, map_append, nodup_append]
    refine ⟨kept.distinct, nodup_singleton _, ?_⟩
    intro key old newKey new same
    obtain ⟨execution, mem, rfl⟩ := mem_map.mp old
    rw [map_singleton, mem_singleton] at new
    -- An execution has a record, and none has the new id.
    obtain ⟨isAgent, sameId⟩ := Prod.mk.inj (same.trans new)
    obtain ⟨row, rowMem, isRow, isTask⟩ := mem_tasksIn.mp (kept.executes execution mem).2
    refine fresh (.inr ⟨row, rowMem, hasKey_iff.mpr ⟨isRow.trans isAgent, ?_⟩⟩)
    rw [isTask]
    exact sameId

/-! ## Finishing a task -/

/-- Where the ids differ, a record is the only one with its id. -/
theorem ne_of_nodup {front rest : List BackgroundTaskSummary} {task : BackgroundTaskSummary}
    (distinct : ((front ++ task :: rest).map BackgroundTaskSummary.id).Nodup) :
    ∀ other ∈ front ++ rest, other.id ≠ task.id := by
  rw [map_append, map_cons, nodup_middle, nodup_cons, ← map_append] at distinct
  intro other mem same
  exact distinct.1 (mem_map.mpr ⟨other, mem, same⟩)

theorem Orderly.updates (orderly : Orderly world agentId)
    (recorded : started ∈ tasksIn world.rows agentId) (sameId : completed.id = started.id) :
    Updates agentId started completed world (finishTask world agentId completed now true) where
  memory := by
    obtain ⟨front, rest, split⟩ := append_of_mem (orderly.held.mem_iff.mpr recorded)
    have distinct := (orderly.held.map BackgroundTaskSummary.id).nodup_iff.mpr orderly.distinct
    rw [split] at distinct
    have others := ne_of_nodup distinct
    refine ⟨front, rest, split, ?_, others⟩
    refine (tasksOf_setTasks_self world agentId _).trans ?_
    rw [split]
    exact recordCompleted_eq sameId fun other mem => others other (mem_append_left _ mem)
  table := by
    obtain ⟨row, mem, isAgent, rfl⟩ := mem_tasksIn.mp recorded
    obtain ⟨front, rest, split⟩ := append_of_mem mem
    have distinct := orderly.distinct
    rw [split, tasksIn_append, tasksIn_cons_self isAgent] at distinct
    have others : ∀ other ∈ front ++ rest, ¬other.hasKey agentId row.task.id := by
      intro other otherMem hasKey
      obtain ⟨otherAgent, same⟩ := hasKey_iff.mp hasKey
      apply ne_of_nodup distinct other.task _ same
      rw [← tasksIn_append]
      exact mem_tasksIn.mpr ⟨other, otherMem, otherAgent, rfl⟩
    have hasKey : row.hasKey agentId completed.id := hasKey_iff.mpr ⟨isAgent, sameId.symm⟩
    refine ⟨front, row, { row with
      task := completed
      notificationState := notificationPending
      updatedAt := now }, rest, split, ?_, isAgent, rfl, isAgent, rfl, others⟩
    rw [finishTask, if_pos rfl, World.setTasks, split]
    exact upsert_old hasKey (sameId ▸ others)
  others other differs := tasksOf_setTasks_of_ne world _ differs

/-- The records of the agent after one of its tasks has ended. -/
theorem Orderly.finish (orderly : Orderly world agentId)
    (updates : Updates agentId started completed world
      (finishTask world agentId completed now true))
    (sameId : completed.id = started.id) :
    Orderly (finishTask world agentId completed now true) agentId ∧
      ∀ task ∈ tasksIn world.rows agentId, task.id ≠ started.id →
        task ∈ tasksIn (finishTask world agentId completed now true).rows agentId := by
  obtain ⟨front, rest, held, heldAfter, -⟩ := updates.memory
  obtain ⟨early, row, updated, late, table, tableAfter, isAgent, isStarted, stillAgent, isCompleted,
    -⟩ := updates.table
  have before : tasksIn world.rows agentId =
      tasksIn early agentId ++ started :: tasksIn late agentId := by
    rw [table, tasksIn_append, tasksIn_cons_self isAgent, isStarted]
  have after : tasksIn (finishTask world agentId completed now true).rows agentId =
      tasksIn early agentId ++ completed :: tasksIn late agentId := by
    rw [tableAfter, tasksIn_append, tasksIn_cons_self stillAgent, isCompleted]
  have sameIds : (tasksIn (finishTask world agentId completed now true).rows agentId).map
      BackgroundTaskSummary.id = (tasksIn world.rows agentId).map BackgroundTaskSummary.id := by
    rw [before, after]
    simp [sameId]
  refine ⟨⟨?_, ?_, ?_⟩, ?_⟩
  · have perm := orderly.held
    rw [held, before] at perm
    rw [heldAfter, after]
    have others : (front ++ rest).Perm (tasksIn early agentId ++ tasksIn late agentId) :=
      (perm_middle.symm.trans (perm.trans perm_middle)).cons_inv
    exact perm_middle.trans ((others.cons completed).trans perm_middle.symm)
  · intro task mem
    have isId := mem_map_of_mem (f := BackgroundTaskSummary.id) mem
    rw [sameIds] at isId
    obtain ⟨old, oldMem, same⟩ := mem_map.mp isId
    obtain ⟨number, atMost, isNumber⟩ := orderly.numbered old oldMem
    exact ⟨number, atMost, same.symm.trans isNumber⟩
  · rw [sameIds]
    exact orderly.distinct
  · intro task mem differs
    rw [before, mem_append, mem_cons] at mem
    rw [after, mem_append, mem_cons]
    rcases mem with isEarly | rfl | isLate
    · exact .inl isEarly
    · exact absurd rfl differs
    · exact .inr (.inr isLate)

theorem tasksIn_finish_of_ne
    (updates : Updates agentId started completed world
      (finishTask world agentId completed now true))
    (differs : other ≠ agentId) :
    tasksIn (finishTask world agentId completed now true).rows other =
      tasksIn world.rows other := by
  obtain ⟨early, row, updated, late, table, tableAfter, isAgent, -, stillAgent, -⟩ := updates.table
  rw [table, tableAfter, tasksIn_append, tasksIn_append,
    tasksIn_cons_of_ne (stillAgent ▸ differs.symm), tasksIn_cons_of_ne (isAgent ▸ differs.symm)]

theorem key_ne_of_mem_eraseIdx {executions : List Execution} {execution other : Execution}
    {place : Nat}
    (distinct : (executions.map fun execution => (execution.agentId, execution.taskId)).Nodup)
    (isHere : executions[place]? = some execution) (mem : other ∈ executions.eraseIdx place) :
    (other.agentId, other.taskId) ≠ (execution.agentId, execution.taskId) := by
  obtain ⟨index, differs, isThere⟩ := mem_eraseIdx_iff_getElem?.mp mem
  intro same
  have sameKey : (executions.map fun execution => (execution.agentId, execution.taskId))[index]? =
      (executions.map fun execution => (execution.agentId, execution.taskId))[place]? := by
    rw [getElem?_map, getElem?_map, isHere, isThere, Option.map_some, Option.map_some, same]
  have inRange : index < (executions.map fun execution =>
      (execution.agentId, execution.taskId)).length := by
    rw [length_map]
    exact (List.getElem?_eq_some_iff.mp isThere).1
  exact differs ((getElem?_inj inRange distinct).mp sameKey)

theorem Kept.finish (kept : Kept actions world) {place : Nat} {outcome : Outcome} {next : World}
    (stepped : step world (.finish place outcome now true) = some next) :
    Kept (actions ++ [.finish place outcome now true]) next ∧
      Sound (.finish place outcome now true) world next := by
  obtain ⟨execution, isHere, rfl⟩ := Option.map_eq_some_iff.mp stepped
  obtain ⟨notElder, recorded⟩ := kept.executes execution (mem_of_getElem? isHere)
  obtain ⟨held, numbered, distinct⟩ := kept.orderly execution.agentId notElder
  have orderly : Orderly { world with executions := world.executions.eraseIdx place }
      execution.agentId := ⟨held, numbered, distinct⟩
  have sameId : (completedTask execution.taskId execution.request outcome).id =
      execution.taskId := by
    cases outcome <;> rfl
  have updates : Updates execution.agentId execution.started _ _
      (finishTask _ execution.agentId _ now true) := orderly.updates recorded sameId
  obtain ⟨orderlyAfter, others⟩ := orderly.finish updates sameId
  refine ⟨⟨?_, ?_, ?_, ?_, ?_⟩, execution, isHere, updates.memory, updates.table, updates.others⟩
  · rw [countP_append]
    exact kept.counter.trans (Nat.le_add_right _ _)
  · intro other otherNotElder
    rw [elder_concat (.finish place outcome now true) fun _ => nofun] at otherNotElder
    by_cases isAgent : other = execution.agentId
    · subst isAgent
      exact orderlyAfter
    · exact (kept.orderly other otherNotElder).of_same (updates.others other isAgent)
        (tasksIn_finish_of_ne updates isAgent) (Nat.le_refl _)
  · intro row mem
    have wasThere : ∃ old ∈ world.rows, old.agentId = row.agentId := by
      obtain ⟨early, old, updated, late, table, tableAfter, isAgent, -, stillAgent, -⟩ :=
        updates.table
      have inTable {row : JobRow} (mem : row ∈ early ++ old :: late) : row ∈ world.rows :=
        table ▸ mem
      rw [tableAfter, mem_append, mem_cons] at mem
      rcases mem with isEarly | rfl | isLate
      · exact ⟨row, inTable (mem_append_left _ isEarly), rfl⟩
      · exact ⟨old, inTable (mem_append_right _ mem_cons_self), isAgent.trans stillAgent.symm⟩
      · exact ⟨row, inTable (mem_append_right _ (mem_cons_of_mem _ isLate)), rfl⟩
    obtain ⟨old, oldMem, sameAgent⟩ := wasThere
    exact sameAgent ▸ (kept.starts old oldMem).append _
  · intro other mem
    rw [elder_concat (.finish place outcome now true) fun _ => nofun]
    obtain ⟨otherYoung, otherRecorded⟩ := kept.executes other (mem_of_mem_eraseIdx mem)
    refine ⟨otherYoung, ?_⟩
    by_cases isAgent : other.agentId = execution.agentId
    · rw [isAgent] at otherRecorded ⊢
      apply others _ otherRecorded
      intro sameTask
      exact key_ne_of_mem_eraseIdx kept.distinct isHere mem (Prod.ext isAgent sameTask)
    · rw [tasksIn_finish_of_ne updates isAgent]
      exact otherRecorded
  · exact kept.distinct.sublist ((eraseIdx_sublist _ _).map _)

/-! ## Whole runs -/

theorem OneProcess.earlier {action : Action} (oneProcess : OneProcess (actions ++ [action])) :
    OneProcess actions := by
  rintro earlier ended later agentId rfl starts startsLater
  exact oneProcess earlier ended (later ++ [action]) agentId (by simp) starts
    (startsLater.append _)

theorem OneProcess.not_elder {request : CommandRequest}
    (oneProcess : OneProcess (actions ++ [.start agentId request now true])) :
    ¬Elder actions agentId := by
  rintro ⟨earlier, ended, later, rfl, starts⟩
  refine oneProcess earlier ended (later ++ [.start agentId request now true]) agentId (by simp)
    starts ⟨request, now, true, ?_⟩
  exact mem_append_right _ (mem_singleton_self _)

theorem oneProcess_of_running (running : ∀ now, Action.restart now ∉ actions) :
    OneProcess actions := by
  rintro earlier ended later agentId rfl -
  exact absurd (mem_append_right _ mem_cons_self) (running ended)

theorem Kept.step {action : Action} {next : World} (kept : Kept actions world)
    (oneProcess : OneProcess (actions ++ [action]))
    (few : (actions ++ [action]).countP isStart < 2 ^ 64)
    (stepped : stepStored world action = some next) :
    Kept (actions ++ [action]) next ∧ Sound action world next := by
  obtain ⟨stored, stepped⟩ := guarded_eq_some_iff.mp stepped
  cases action with
  | register agentId loads =>
    cases stored
    cases stepped
    exact ⟨kept.register agentId, trivial⟩
  | start agentId request now stores =>
    cases stored
    cases stepped
    rw [countP_append] at few
    exact kept.start oneProcess.not_elder few
  | finish place outcome now stores =>
    cases stored
    exact kept.finish stepped
  | restart now =>
    cases stepped
    exact ⟨kept.restart now, trivial⟩

theorem countP_of_concat {action : Action}
    (few : (actions ++ [action]).countP isStart < 2 ^ 64) : actions.countP isStart < 2 ^ 64 := by
  rw [countP_append] at few
  exact (Nat.le_add_right _ _).trans_lt few

theorem kept_of_run (oneProcess : OneProcess actions) (few : actions.countP isStart < 2 ^ 64)
    (reached : run stepStored .new actions = some world) : Kept actions world := by
  induction actions using List.reverseRecOn generalizing world with
  | nil =>
    cases reached
    exact .new
  | append_singleton actions action ih =>
    rw [run_append, Option.bind_eq_some_iff] at reached
    obtain ⟨before, reachedBefore, last⟩ := reached
    rw [run_cons_eq_some_iff] at last
    obtain ⟨after, stepped, isAfter⟩ := last
    cases isAfter
    have kept := ih oneProcess.earlier (countP_of_concat few) reachedBefore
    exact (kept.step oneProcess few stepped).1

/-- As long as no agent starts tasks on both sides of a restart, fewer than `2 ^ 64` are started
and the store does what it is asked to, every task gets an id new to its agent, and a task that
ends updates the record it was started with, in memory and in the table, and no other. -/
theorem tasks_told_apart (actions : List Action) (action : Action) (world next : World)
    (oneProcess : OneProcess (actions ++ [action]))
    (few : (actions ++ [action]).countP isStart < 2 ^ 64)
    (reached : run stepStored .new actions = some world)
    (stepped : stepStored world action = some next) : Sound action world next := by
  have kept := kept_of_run oneProcess.earlier (countP_of_concat few) reached
  exact (kept.step oneProcess few stepped).2

/-- A task, its end, and a restart after which the records are read back. -/
def readBack : List Action :=
  [.start "agent" ⟨"make", "/"⟩ 0 true, .finish 0 (.ok ⟨"built", "", true⟩) 1 true, .restart 2,
    .register "agent" true]

/-- The state the records were read back into. -/
def restored : World :=
  { rows := [⟨"agent", ⟨"bg-1", "make", "/", .finished, some "built"⟩, 0, 0, 1⟩]
    nextTaskId := 0
    agents := update (fun _ => none) "agent" (some [⟨"bg-1", "make", "/", .finished, some "built"⟩])
    executions := [] }

/-- The next task is given the id of the first: its row takes the place of the first's, and its
end is entered into the record of the first. -/
theorem same_id_after_restart :
    ∃ before running ended, run stepStored .new readBack = some before ∧
      stepStored before (.start "agent" ⟨"ls", "/"⟩ 3 true) = some running ∧
      stepStored running (.finish 0 (.ok ⟨"a b", "", true⟩) 4 true) = some ended ∧
      before.Knows "agent" before.nextId ∧
      running.tasksOf "agent" =
        [⟨"bg-1", "make", "/", .finished, some "built"⟩, ⟨"bg-1", "ls", "/", .running, none⟩] ∧
      running.rows.map JobRow.task = [⟨"bg-1", "ls", "/", .running, none⟩] ∧
      ended.tasksOf "agent" =
        [⟨"bg-1", "ls", "/", .finished, some "a b"⟩, ⟨"bg-1", "ls", "/", .running, none⟩] ∧
      ¬Sound (.start "agent" ⟨"ls", "/"⟩ 3 true) before running := by
  have known : (restored.tasksOf "agent").any fun task => task.id = restored.nextId := by
    decide +kernel
  obtain ⟨task, mem, same⟩ := any_eq_true.mp known
  have knows : restored.Knows "agent" restored.nextId := .inl ⟨task, mem, of_decide_eq_true same⟩
  refine ⟨restored, _, _, rfl, rfl, rfl, knows, ?_, ?_, ?_, fun sound => sound.1 knows⟩
  · decide +kernel
  · decide +kernel
  · decide +kernel

/-- Two tasks of one process; the second ends first. -/
theorem tasks_told_apart_in_one_process :
    ∃ world next, run stepStored .new
        [.start "agent" ⟨"make", "/"⟩ 0 true, .start "agent" ⟨"ls", "/"⟩ 1 true] = some world ∧
      stepStored world (.finish 1 (.ok ⟨"a b", "", true⟩) 2 true) = some next ∧
      Sound (.finish 1 (.ok ⟨"a b", "", true⟩) 2 true) world next := by
  refine ⟨_, _, rfl, rfl, ?_⟩
  exact tasks_told_apart
    [.start "agent" ⟨"make", "/"⟩ 0 true, .start "agent" ⟨"ls", "/"⟩ 1 true] _ _ _
    (oneProcess_of_running (by simp)) (by decide) rfl rfl

/-- As long as no agent starts tasks on both sides of a restart and the store does what it is
asked to, an agent with no task of an earlier process has in memory what the table has, under
different ids, and every command under way has its record there. -/
theorem memory_agrees_with_table (actions : List Action) (world : World)
    (oneProcess : OneProcess actions) (few : actions.countP isStart < 2 ^ 64)
    (reached : run stepStored .new actions = some world) :
    (∀ agentId, ¬Elder actions agentId →
      (world.tasksOf agentId).Perm (tasksIn world.rows agentId) ∧
        ((world.tasksOf agentId).map BackgroundTaskSummary.id).Nodup) ∧
      ∀ execution ∈ world.executions, execution.started ∈ world.tasksOf execution.agentId := by
  have kept := kept_of_run oneProcess few reached
  constructor
  · intro agentId notElder
    obtain ⟨held, -, distinct⟩ := kept.orderly agentId notElder
    exact ⟨held, (held.map _).nodup_iff.mpr distinct⟩
  · intro execution mem
    obtain ⟨notElder, recorded⟩ := kept.executes execution mem
    exact (kept.orderly _ notElder).held.mem_iff.mpr recorded

/-- Of two tasks the first has ended and the second is under way. -/
theorem second_task_has_record :
    ∃ actions world, run stepStored .new actions = some world ∧
      world.executions.map Execution.taskId = ["bg-2"] ∧
      ∀ execution ∈ world.executions, execution.started ∈ world.tasksOf execution.agentId := by
  have ran : run stepStored .new [.start "agent" ⟨"make", "/"⟩ 0 true,
    .start "agent" ⟨"ls", "/"⟩ 1 true, .finish 0 (.ok ⟨"built", "", true⟩) 2 true] = some _ := rfl
  have running := memory_agrees_with_table _ _ (oneProcess_of_running (by simp)) (by decide) ran
  exact ⟨_, _, ran, by decide +kernel, running.2⟩

end Mentra.Background
