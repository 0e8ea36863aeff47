import Mentra.Foundation.Digraph
import Mentra.Foundation.Text

/-!
# The task board

Model of `mentra/src/runtime/task.rs` and `mentra/src/runtime/task`: tasks that block each
other, and the tools that create, claim, update and read them.  A tool works on a copy of the
list of tasks, which replaces the board when the tool succeeds.  Inputs are taken after JSON
has been read, outputs before it is written, and failures of the storage are left out.  Ids
are numbers without a bound.
-/

namespace Mentra

open Foundation

inductive TaskStatus
  | pending
  | inProgress
  | completed
  deriving DecidableEq

namespace TaskStatus

/-- `Display`, in snake case. -/
def display : TaskStatus → String
  | pending => "pending"
  | inProgress => "in_progress"
  | completed => "completed"

/-- `Debug`. -/
def debug : TaskStatus → String
  | pending => "Pending"
  | inProgress => "InProgress"
  | completed => "Completed"

end TaskStatus

structure TaskItem where
  id : Nat
  subject : String
  description : String := ""
  status : TaskStatus := .pending
  blockedBy : List Nat := []
  blocks : List Nat := []
  owner : String := ""
  workingDirectory : Option String := none

/-- Who uses a tool. -/
inductive TaskAccess
  | lead
  | leadClaimant (name : String)
  | teammate (name : String)

def TaskAccess.actorName : TaskAccess → Option String
  | lead => none
  | leadClaimant name => some name
  | teammate name => some name

/-- The error of the functions below; storage and serialization are not modelled. -/
inductive TaskError
  | validation (message : String)

def TaskError.display : TaskError → String
  | validation message => "Task validation failed: " ++ message

structure TaskCreateInput where
  subject : String
  description : String := ""
  owner : String := ""
  workingDirectory : Option String := none
  blockedBy : List Nat := []

structure TaskClaimInput where
  taskId : Option Nat := none

/-- An absent working directory is left as it is; a `null` one is removed. -/
structure TaskUpdateInput where
  taskId : Nat
  subject : Option String := none
  description : Option String := none
  owner : Option String := none
  workingDirectory : Option (Option String) := none
  status : Option TaskStatus := none
  addBlockedBy : List Nat := []
  removeBlockedBy : List Nat := []
  addBlocks : List Nat := []
  removeBlocks : List Nat := []

structure TaskUpdateOutput where
  task : TaskItem
  unblocked : List TaskItem
  reblocked : List TaskItem

structure TaskListOutput where
  tasks : List TaskItem
  ready : List TaskItem
  blocked : List TaskItem
  inProgress : List TaskItem
  completed : List TaskItem

namespace Task

/-! ## Finding and changing tasks -/

variable (tasks : List TaskItem)

def hasUnfinishedTasks : Bool :=
  tasks.any fun task => task.status ≠ .completed

def findTask (taskId : Nat) : Except TaskError TaskItem :=
  match tasks.find? fun task => task.id = taskId with
  | some task => .ok task
  | none => .error (.validation ("Task " ++ toString taskId ++ " does not exist"))

/-- What writing through a reference to the first task that passes a test does to
the list. -/
def modifyFirst (test : TaskItem → Bool) (change : TaskItem → TaskItem) :
    List TaskItem → List TaskItem
  | [] => []
  | task :: rest =>
    if test task then change task :: rest else task :: modifyFirst test change rest

/-- What writing through `find_task_mut` does to the list. -/
def modifyTask (taskId : Nat) (change : TaskItem → TaskItem) : List TaskItem :=
  modifyFirst (fun task => task.id = taskId) change tasks

variable (ids : List Nat)

def sortAndDedupIds : List Nat :=
  ids.dedup.insertionSort (· ≤ ·)

def sortTasks : List TaskItem :=
  tasks.insertionSort fun first second => first.id ≤ second.id

/-- The list with the id, and whether it is new. -/
def insertId (id : Nat) : Bool × List Nat :=
  if id ∈ ids then (false, ids) else (true, sortAndDedupIds (ids ++ [id]))

/-- The list without the id, and whether it was there. -/
def removeId (id : Nat) : Bool × List Nat :=
  let left := ids.filter (· ≠ id)
  (ids.length ≠ left.length, left)

end Task

namespace TaskItem

/-! Changes of one field; none changes the id. -/

def setStatus (status : TaskStatus) (task : TaskItem) : TaskItem :=
  { task with status }

def setOwner (owner : String) (task : TaskItem) : TaskItem :=
  { task with owner }

def insertBlocks (id : Nat) (task : TaskItem) : TaskItem :=
  { task with blocks := (Task.insertId task.blocks id).2 }

def removeBlocks (id : Nat) (task : TaskItem) : TaskItem :=
  { task with blocks := (Task.removeId task.blocks id).2 }

def insertBlockedBy (id : Nat) (task : TaskItem) : TaskItem :=
  { task with blockedBy := (Task.insertId task.blockedBy id).2 }

def removeBlockedBy (id : Nat) (task : TaskItem) : TaskItem :=
  { task with blockedBy := (Task.removeId task.blockedBy id).2 }

end TaskItem

namespace Task

variable (task : TaskItem)

def validateUnblockedStatus : Except TaskError Unit :=
  if task.status ≠ .pending ∧ task.blockedBy ≠ [] then
    .error (.validation ("Task " ++ toString task.id ++ " cannot be " ++ task.status.display ++
      " while blocked by " ++ toString task.blockedBy))
  else .ok ()

/-! ## Dependencies -/

variable (tasks : List TaskItem)

/-- The successors in the map of tasks by id, in which a later task replaces an
earlier one. -/
def successors (id : Nat) : Option (List Nat) :=
  (tasks.reverse.find? fun task => task.id = id).map TaskItem.blocks

/-- The search of `path_exists`; `none` if it did not come to an end. -/
def searchPath (start goal : Nat) : Option Bool :=
  Digraph.search (successors tasks) goal
    (Digraph.pushes (successors tasks) (tasks.map TaskItem.id) [] + 2) [] [start]

def pathExists (start goal : Nat) : Bool :=
  if start = goal then true else (searchPath tasks start goal).getD false

def addDependency (blockerId dependentId : Nat) : Except TaskError (List TaskItem) :=
  if blockerId = dependentId then
    throw (.validation "Tasks cannot depend on themselves")
  else do
    let blocker ← findTask tasks blockerId
    let dependent ← findTask tasks dependentId
    if dependentId ∉ blocker.blocks ∧ pathExists tasks dependentId blockerId then
      throw (.validation ("Adding dependency " ++ toString blockerId ++ " -> " ++
        toString dependentId ++ " would create a cycle"))
    else
      let linked := modifyTask tasks blockerId (.insertBlocks dependentId)
      if blocker.status = .completed then return linked
      else if dependent.status ≠ .pending then
        throw (.validation ("Task " ++ toString dependentId ++
          " cannot have unresolved blockers while " ++ dependent.status.debug))
      else
        return modifyTask linked dependentId (.insertBlockedBy blockerId)

def removeDependency (blockerId dependentId : Nat) :
    Except TaskError (List TaskItem) := do
  let _ ← findTask tasks blockerId
  let _ ← findTask tasks dependentId
  let unlinked := modifyTask tasks blockerId (.removeBlocks dependentId)
  return modifyTask unlinked dependentId (.removeBlockedBy blockerId)

/-! ## Status changes -/

variable (taskId : Nat)

/-- A blocker was completed: one of its dependents, unless it is completed, loses
it. -/
def releaseDependent (progress : List TaskItem × List TaskItem)
    (dependentId : Nat) : Except TaskError (List TaskItem × List TaskItem) := do
  let dependent ← findTask progress.1 dependentId
  if dependent.status = .completed then return progress
  else
    let tasks := modifyTask progress.1 dependentId (.removeBlockedBy taskId)
    let (hadBlocker, blockedBy) := removeId dependent.blockedBy taskId
    let unblocked := if hadBlocker ∧ blockedBy = [] then [dependent.removeBlockedBy taskId] else []
    return (tasks, progress.2 ++ unblocked)

/-- A blocker was reopened: one of its dependents, unless it is completed, is
blocked by it again. -/
def reblockDependent (progress : List TaskItem × List TaskItem)
    (dependentId : Nat) : Except TaskError (List TaskItem × List TaskItem) := do
  let dependent ← findTask progress.1 dependentId
  if dependent.status = .completed then return progress
  else
    let tasks := modifyTask progress.1 dependentId (.insertBlockedBy taskId)
    let isNew := (insertId dependent.blockedBy taskId).1
    let reblocked := if isNew then [dependent.insertBlockedBy taskId] else []
    return (tasks, progress.2 ++ reblocked)

/-- What a status change leaves: the tasks, those unblocked and those blocked
again. -/
structure StatusChange where
  tasks : List TaskItem
  unblocked : List TaskItem := []
  reblocked : List TaskItem := []

/-- The change to completed.  The check comes before the new status is set. -/
def completeTask : Except TaskError StatusChange := do
  let task ← findTask tasks taskId
  validateUnblockedStatus task
  let completed := modifyTask tasks taskId (.setStatus .completed)
  let task ← findTask completed taskId
  let (tasks, unblocked) ← task.blocks.foldlM (releaseDependent taskId) (completed, [])
  return { tasks, unblocked }

/-- The change to another status, of which the one from completed is a reopening. -/
def startTask (originalStatus nextStatus : TaskStatus) :
    Except TaskError StatusChange := do
  let _ ← findTask tasks taskId
  let started := modifyTask tasks taskId (.setStatus nextStatus)
  let task ← findTask started taskId
  validateUnblockedStatus task
  if originalStatus = .completed then
    let (tasks, reblocked) ← task.blocks.foldlM (reblockDependent taskId) (started, [])
    return { tasks, reblocked }
  else return { tasks := started }

def applyStatusChange (originalStatus nextStatus : TaskStatus) : Except TaskError StatusChange :=
  if originalStatus = nextStatus then do
    let task ← findTask tasks taskId
    validateUnblockedStatus task
    return { tasks }
  else
    match nextStatus with
    | .completed => completeTask tasks taskId
    | .pending => startTask tasks taskId originalStatus .pending
    | .inProgress => startTask tasks taskId originalStatus .inProgress

/-! ## The tools -/

def normalizeOptionalPath (value : Option String) : Option String :=
  value.bind fun value =>
    let trimmed := Text.trim value
    if trimmed = "" then none else some trimmed

def parseTaskCreateInput (input : TaskCreateInput) : Except String TaskCreateInput :=
  if Text.trim input.subject = "" then .error "Task subject must not be empty"
  else .ok { input with workingDirectory := normalizeOptionalPath input.workingDirectory }

variable (input : TaskUpdateInput)

def parseTaskUpdateInput : Except String TaskUpdateInput :=
  if input.subject.any fun subject => Text.trim subject = "" then
    .error "Task subject must not be empty"
  else
    .ok { input with workingDirectory := input.workingDirectory.map normalizeOptionalPath }

def nextTaskId : Nat :=
  (tasks.map TaskItem.id).max?.getD 0 + 1

/-- The new task before it gets its blockers. -/
def newTask (input : TaskCreateInput) (taskId : Nat) : TaskItem where
  id := taskId
  subject := Text.trim input.subject
  description := input.description
  owner := input.owner
  workingDirectory := input.workingDirectory

def createTask (input : TaskCreateInput) (tasks : List TaskItem) :
    Except TaskError (TaskItem × List TaskItem) := do
  let taskId := nextTaskId tasks
  let tasks := tasks ++ [newTask input taskId]
  let tasks ← input.blockedBy.foldlM (fun tasks blockerId => addDependency tasks blockerId taskId)
    tasks
  return (← findTask tasks taskId, tasks)

variable (owner : String)

def validateClaimable : Except TaskError Unit :=
  if task.owner ≠ "" then
    .error (.validation ("Task " ++ toString task.id ++ " is already owned by '" ++ task.owner ++
      "'"))
  else if task.blockedBy ≠ [] then
    .error (.validation ("Task " ++ toString task.id ++ " is blocked by " ++
      toString task.blockedBy ++ " and cannot be claimed"))
  else if task.status ≠ .pending then
    .error (.validation ("Task " ++ toString task.id ++ " is " ++ task.status.display ++
      " and cannot be claimed by '" ++ owner ++ "'"))
  else .ok ()

def isClaimable : Bool :=
  task.status = .pending && task.blockedBy.isEmpty && task.owner = ""

/-- Claim the task that is asked for. -/
def claimGiven (tasks : List TaskItem) :
    Except TaskError (TaskItem × List TaskItem) := do
  let task ← findTask tasks taskId
  validateClaimable task owner
  return (task.setOwner owner, modifyTask tasks taskId (.setOwner owner))

/-- Claim the first task that is free. -/
def claimFirst (tasks : List TaskItem) : Except String (TaskItem × List TaskItem) :=
  match tasks.find? isClaimable with
  | some task => .ok (task.setOwner owner, modifyFirst isClaimable (.setOwner owner) tasks)
  | none => .error "No ready unowned tasks are available to claim"

def claimTask (input : TaskClaimInput) (owner : String) (tasks : List TaskItem) :
    Except String (TaskItem × List TaskItem) :=
  match input.taskId with
  | some taskId =>
    match claimGiven taskId owner tasks with
    | .ok claimed => .ok claimed
    | .error error => .error error.display
  | none => claimFirst owner tasks

def updatesDependencies : Bool :=
  !input.addBlockedBy.isEmpty || !input.removeBlockedBy.isEmpty || !input.addBlocks.isEmpty ||
    !input.removeBlocks.isEmpty

def validateUpdateAccess :
    TaskAccess → Except TaskError Unit
  | .lead => .ok ()
  | .leadClaimant _ => .ok ()
  | .teammate name =>
    if task.owner = name then
      if updatesDependencies input then
        .error (.validation ("Teammate '" ++ name ++ "' cannot edit dependencies for task " ++
          toString task.id))
      else
        match input.owner with
        | some owner =>
          if owner ≠ name then
            .error (.validation ("Teammate '" ++ name ++ "' cannot reassign task " ++
              toString task.id ++ " to '" ++ owner ++ "'"))
          else .ok ()
        | none => .ok ()
    else
      .error (.validation ("Teammate '" ++ name ++ "' cannot update task " ++
        toString task.id ++ " owned by '" ++ task.owner ++ "'"))

/-- The fields an update sets besides status and dependencies. -/
def editFields (task : TaskItem) : TaskItem :=
  { task with
    subject := (input.subject.map Text.trim).getD task.subject
    description := input.description.getD task.description
    owner := input.owner.getD task.owner
    workingDirectory := input.workingDirectory.getD task.workingDirectory }

/-- The dependency edits of an update, in the order they are made. -/
def editDependencies (tasks : List TaskItem) :
    Except TaskError (List TaskItem) := do
  let tasks ← input.addBlockedBy.foldlM
    (fun tasks blockerId => addDependency tasks blockerId input.taskId) tasks
  let tasks ← input.removeBlockedBy.foldlM
    (fun tasks blockerId => removeDependency tasks blockerId input.taskId) tasks
  let tasks ← input.addBlocks.foldlM
    (fun tasks dependentId => addDependency tasks input.taskId dependentId) tasks
  input.removeBlocks.foldlM
    (fun tasks dependentId => removeDependency tasks input.taskId dependentId) tasks

/-- The status change of an update, or the check made without one. -/
def changeStatus (originalStatus : TaskStatus)
    (tasks : List TaskItem) : Except TaskError StatusChange :=
  match input.status with
  | some status => applyStatusChange tasks input.taskId originalStatus status
  | none => do
      validateUnblockedStatus (← findTask tasks input.taskId)
      return { tasks }

def updateTask (access : TaskAccess) (tasks : List TaskItem) :
    Except TaskError (TaskUpdateOutput × List TaskItem) := do
  let original ← findTask tasks input.taskId
  validateUpdateAccess original input access
  let tasks := modifyTask tasks input.taskId (editFields input)
  let tasks ← editDependencies input tasks
  let changed ← changeStatus input original.status tasks
  let task ← findTask changed.tasks input.taskId
  return (⟨task, sortTasks changed.unblocked, sortTasks changed.reblocked⟩, changed.tasks)

def listTasks (tasks : List TaskItem) : TaskListOutput where
  tasks := tasks
  ready := tasks.filter fun task => task.status = .pending && task.blockedBy.isEmpty
  blocked := tasks.filter fun task => task.status = .pending && !task.blockedBy.isEmpty
  inProgress := tasks.filter fun task => task.status = .inProgress
  completed := tasks.filter fun task => task.status = .completed

/-- A use of one of the tools. -/
inductive Call
  | create (input : TaskCreateInput)
  | claim (input : TaskClaimInput)
  | update (input : TaskUpdateInput)
  | get (taskId : Nat)
  | list

inductive Output
  | task (task : TaskItem)
  | updated (output : TaskUpdateOutput)
  | listed (output : TaskListOutput)

/-- `mutate_store_tasks`: the tasks are replaced unless the operation fails. -/
def mutateStoreTasks (board : List TaskItem)
    (operation : List TaskItem → Except String (Output × List TaskItem)) :
    Except String Output × List TaskItem :=
  match operation board with
  | .ok (output, tasks) => (.ok output, tasks)
  | .error error => (.error error, board)

/-- Who a claim is made for. -/
def claimant (access : TaskAccess) : Except String String :=
  match access.actorName.filter fun name => Text.trim name ≠ "" with
  | some name => .ok (Text.trim name)
  | none => .error "Only named teammates can claim tasks"

/-- `execute_with_store`: what the call answers, and the board after it. -/
def executeWithStore (board : List TaskItem) (access : TaskAccess) :
    Call → Except String Output × List TaskItem
  | .create input =>
    match parseTaskCreateInput input with
    | .error error => (.error error, board)
    | .ok parsed => mutateStoreTasks board fun tasks =>
      match createTask parsed tasks with
      | .ok (task, tasks) => .ok (.task task, tasks)
      | .error error => .error error.display
  | .claim input =>
    match claimant access with
    | .error error => (.error error, board)
    | .ok owner => mutateStoreTasks board fun tasks =>
      (claimTask input owner tasks).map fun (task, tasks) => (.task task, tasks)
  | .update input =>
    match parseTaskUpdateInput input with
    | .error error => (.error error, board)
    | .ok parsed => mutateStoreTasks board fun tasks =>
      match updateTask parsed access tasks with
      | .ok (output, tasks) => .ok (.updated output, tasks)
      | .error error => .error error.display
  | .get taskId =>
    match findTask board taskId with
    | .ok task => (.ok (.task task), board)
    | .error error => (.error error.display, board)
  | .list => (.ok (.listed (listTasks board)), board)

end Task

end Mentra
