import Mentra.Runner.Core

/-!
# Background tasks

Model of `mentra/src/background.rs` over the `background_jobs` table of
`mentra/src/runtime/sqlite_store.rs`.  The manager numbers the tasks it starts; the table
outlives the process.  A new process starts with a new manager and marks the tasks that were
running as interrupted (`prepare_recovery`).

The commands a process is executing are part of the state.  Each operation is one step, and
whether its call to the store succeeds is an input of it: the manager goes on if it does not.
Observers, hooks and the delivery of notifications are left out.
-/

namespace Mentra.Background

open Foundation

structure BackgroundTaskSummary where
  id : String
  command : String
  cwd : String
  status : BackgroundTaskStatus
  outputPreview : Option String
  deriving DecidableEq

/-- A request to run a command: how the command is shown, and where it runs. -/
structure CommandRequest where
  display : String
  cwd : String

structure CommandOutput where
  stdout : String
  stderr : String
  success : Bool

/-! ## Previews -/

def outputPreviewMaxChars : Nat := 500

def truncatePreview (text : String) : String :=
  let compact := List.intercalate [' '] (Text.splitWhitespace text.toList)
  let truncated := String.ofList (compact.take outputPreviewMaxChars)
  if outputPreviewMaxChars < compact.length then truncated ++ "..." else truncated

/-- How an execution ended: with output, or with an error of the executor. -/
abbrev Outcome := Except String CommandOutput

/-- `execute_task` with `completed_task_from_output`: the record of a task that ended. -/
def completedTask (id : String) (request : CommandRequest) (outcome : Outcome) :
    BackgroundTaskSummary :=
  match outcome with
  | .ok output =>
    let combined := output.stdout ++ " " ++ output.stderr
    { id, command := request.display, cwd := request.cwd,
      status := if output.success then .finished else .failed
      outputPreview := some (if (Text.trim combined).isEmpty then "(no output)"
        else truncatePreview combined) }
  | .error error =>
    { id, command := request.display, cwd := request.cwd, status := .failed,
      outputPreview := some (truncatePreview error) }

/-- The record of a task that has started. -/
def startedTask (id : String) (request : CommandRequest) : BackgroundTaskSummary :=
  { id, command := request.display, cwd := request.cwd, status := .running,
    outputPreview := none }

/-! ## The table -/

def notificationPending : Nat := 0

def notificationAcked : Nat := 2

/-- A row of `background_jobs`; its key is the agent and the id of the task. -/
structure JobRow where
  agentId : String
  task : BackgroundTaskSummary
  notificationState : Nat
  createdAt : Nat
  updatedAt : Nat

def JobRow.hasKey (row : JobRow) (agentId id : String) : Bool :=
  row.agentId = agentId && row.task.id = id

variable (rows : List JobRow)

def upsertBackgroundTask (agentId : String) (task : BackgroundTaskSummary)
    (notificationState now : Nat) : List JobRow :=
  if rows.any fun row => row.hasKey agentId task.id then
    rows.map fun row =>
      if row.hasKey agentId task.id then { row with task, notificationState, updatedAt := now }
      else row
  else rows ++ [⟨agentId, task, notificationState, now, now⟩]

/-- `ORDER BY created_at, id`. -/
def loadBackgroundTasks (agentId : String) : List BackgroundTaskSummary :=
  ((rows.filter fun row => row.agentId = agentId).insertionSort fun left right =>
    ((compare left.createdAt right.createdAt).then
      (compare left.task.id right.task.id)).isLE).map JobRow.task

/-- The tasks in `prepare_recovery`. -/
def prepareRecovery (now : Nat) : List JobRow :=
  rows.map fun row =>
    let row := if row.notificationState = 1 then
      { row with notificationState := notificationPending } else row
    if row.task.status = .running then
      { row with
        task := { row.task with status := .interrupted }
        notificationState := notificationPending
        updatedAt := now }
    else row

/-! ## The manager -/

/-- A command that the process executes for a task. -/
structure Execution where
  agentId : String
  taskId : String
  request : CommandRequest

def Execution.started (execution : Execution) : BackgroundTaskSummary :=
  startedTask execution.taskId execution.request

/-- The table, the manager of the running process and its executions. -/
structure World where
  rows : List JobRow
  /-- A counter of 64 bits. -/
  nextTaskId : Nat
  agents : String → Option (List BackgroundTaskSummary)
  executions : List Execution

namespace World

def new : World :=
  ⟨[], 0, fun _ => none, []⟩

/-- The tasks of an agent in memory. -/
def tasksOf (world : World) (agentId : String) : List BackgroundTaskSummary :=
  (world.agents agentId).getD []

def setTasks (world : World) (agentId : String) (tasks : List BackgroundTaskSummary) : World :=
  { world with agents := Function.update world.agents agentId (some tasks) }

end World

/-- The id of the task with the given number. -/
def taskId (number : Nat) : String :=
  "bg-" ++ toString number

variable (world : World)

def registerAgent (agentId : String) (loads : Bool) : World :=
  world.setTasks agentId (if loads then loadBackgroundTasks world.rows agentId else [])

/-- The id that the next task is given. -/
def World.nextId : String :=
  taskId ((world.nextTaskId + 1) % 2 ^ 64)

def startTask (agentId : String) (request : CommandRequest) (now : Nat) (stores : Bool) : World :=
  let id := world.nextId
  let summary := startedTask id request
  let world := { world with
    nextTaskId := (world.nextTaskId + 1) % 2 ^ 64
    rows := if stores then upsertBackgroundTask world.rows agentId summary notificationAcked now
      else world.rows }
  let world := world.setTasks agentId (world.tasksOf agentId ++ [summary])
  { world with executions := world.executions ++ [⟨agentId, id, request⟩] }

/-- The first record with the id of the task is replaced. -/
def recordCompleted (tasks : List BackgroundTaskSummary) (completed : BackgroundTaskSummary) :
    List BackgroundTaskSummary :=
  match tasks.findFinIdx? fun task => task.id = completed.id with
  | some index => tasks.set index completed
  | none => tasks ++ [completed]

def finishTask (agentId : String) (completed : BackgroundTaskSummary) (now : Nat)
    (stores : Bool) : World :=
  let world := world.setTasks agentId (recordCompleted (world.tasksOf agentId) completed)
  { world with
    rows := if stores then upsertBackgroundTask world.rows agentId completed notificationPending now
      else world.rows }

/-- The process ends, and another takes its place. -/
def restart (now : Nat) : World :=
  { World.new with rows := prepareRecovery world.rows now }

inductive Action
  | register (agentId : String) (loads : Bool)
  | start (agentId : String) (request : CommandRequest) (now : Nat) (stores : Bool)
  /-- An execution ends, the one at the given place. -/
  | finish (place : Nat) (outcome : Outcome) (now : Nat) (stores : Bool)
  | restart (now : Nat)

/-- The store does what it is asked to. -/
def Action.stored : Action → Bool
  | .register _ stored | .start _ _ _ stored | .finish _ _ _ stored => stored
  | .restart _ => true

def step : Action → Option World
  | .register agentId loads => some (registerAgent world agentId loads)
  | .start agentId request now stores => some (startTask world agentId request now stores)
  | .finish place outcome now stores =>
    world.executions[place]?.map fun execution =>
      let world := { world with executions := world.executions.eraseIdx place }
      finishTask world execution.agentId
        (completedTask execution.taskId execution.request outcome) now stores
  | .restart now => some (restart world now)

/-- The steps whose call to the store succeeds. -/
def stepStored : World → Action → Option World :=
  Transition.guarded step fun _ action => action.stored

end Mentra.Background
