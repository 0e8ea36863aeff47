import Mentra.Team.Manager

/-!
# Teammate actors

Model of `mentra/src/team/actor.rs` and of how `mentra/src/team/host.rs` starts and stops an
actor.  A teammate's task is started, and then its handle is given to the manager, which may
refuse it.  A handle that is dropped cancels its task and aborts it; the task may see the
cancellation and leave the loop by itself before.

A step of the crew is one step of one actor's loop with at most one call of the manager, a
call of an agent, or the end of a task.  Idle times, the claims of tasks and the runs of agents
are inputs of the steps that ask for them.
-/

namespace Mentra.Team

open Foundation

/-- Where an actor is in its loop. -/
inductive ActorPhase
  /-- At the top of the loop. -/
  | top (shouldProcess : Bool)
  /-- In `process_pending_work`, before it asks for messages. -/
  | processing (processedPrompt : Bool)
  /-- In `next_pending_work`, before it asks for the shutdown signal. -/
  | taking (processedPrompt : Bool)
  /-- The agent runs, for a task that was claimed or for pending work. -/
  | prompting (claimed : Bool)
  /-- Before the second look at the cancellation. -/
  | resting
  | waiting
  /-- In `autonomy_tick`, before it asks for the shutdown signal. -/
  | ticking
  /-- In `autonomy_tick`, before it claims a task. -/
  | claiming
  /-- Before a change of the member's status. -/
  | reporting (status : TeamMemberStatus) (next : ActorPhase)
  /-- Behind the loop. -/
  | leaving
  | gone
  deriving DecidableEq

structure Actor where
  teamDir : String
  name : String
  /-- Whether autonomy is enabled. -/
  autonomous : Bool
  phase : ActorPhase := .top false
  /-- Whether the handle is still with whoever spawned the teammate. -/
  unregistered : Bool := true
  /-- How many wake-ups were received. -/
  woken : Nat := 0

/-- What a step of an actor may ask. -/
structure ActorInput where
  /-- Whether background notifications can be delivered. -/
  notified : Bool := false
  /-- How the run of the agent ended. -/
  result : Except RuntimeError Unit := .ok ()
  /-- Whether the poll interval ends before a wake-up comes. -/
  polled : Bool := false
  /-- Whether a ready task was claimed. -/
  claim : Except RuntimeError Bool := .ok false
  /-- Whether the actor has been idle for too long. -/
  timedOut : Bool := false

inductive CrewEvent
  | started (actor : Nat)
  | approved (speaker : Option Nat)
  | took (actor : Nat)
  deriving DecidableEq

/-- The manager and the actors ever started, by their numbers. -/
structure Crew (σ : Type) where
  manager : TeamManager σ
  actors : List Actor := []
  log : List CrewEvent := []

inductive CrewAction
  | start (teamDir name : String) (autonomous : Bool)
  | register (actor : Nat) (summary : TeamMemberSummary)
  /-- An agent calls the manager: the one of an actor, or another. -/
  | call (speaker : Option Nat) (call : TeamCall)
  | advance (actor : Nat) (input : ActorInput)
  /-- The task is aborted because its handle was dropped. -/
  | abort (actor : Nat)
  /-- The run of the agent panics. -/
  | panic (actor : Nat)

/-- The name under which an agent makes the call.  Calls that only actors and the host
make have none. -/
def TeamCall.speaker : TeamCall → Option String
  | registerAgent _ agentName _ | readInbox _ agentName | requeueMessages _ agentName
  | acknowledgeMessages _ agentName | listRequests _ agentName _ => some agentName
  | sendMessage _ sender _ _ _ | broadcastMessage _ sender _ _ | createRequest _ sender _ _ _ _ =>
    some sender
  | resolveRequest _ responder _ _ _ _ => some responder
  | spawnTeammate _ _ _ | wakeTeammate _ _ | updateMemberStatus _ _ _ | hasPendingMessages _ _
  | takeShutdownSignal _ _ | unregisterTeammateActor _ _ => none

variable {σ : Type}

section Actors

variable (store : TeamStore σ) (statusText : Nat → String)

/-- The phase an actor gets to, and whether it took the shutdown signal.  Its handle is held or
was dropped; a wake-up waits or not. -/
def Actor.advance (actor : Actor) (held wake : Bool) (input : ActorInput) :
    TeamM σ (ActorPhase × Bool) :=
  match actor.phase with
  | .top shouldProcess =>
    if !held then return (.leaving, false)
    else if shouldProcess then return (.processing false, false)
    else return (.resting, false)
  | .processing processedPrompt => do
      match ← Program.attempt (hasPendingMessages store actor.teamDir actor.name) with
      | .error error => return (.reporting (.failed (error.display statusText)) .resting, false)
      | .ok pending =>
        if pending || input.notified then return (.reporting .working (.prompting false), false)
        else return (.taking processedPrompt, false)
  | .taking processedPrompt => do
      match ← Program.attempt (takeShutdownSignal store actor.teamDir actor.name) with
      | .error error => return (.reporting (.failed (error.display statusText)) .resting, false)
      | .ok true => return (.reporting .shutdown .leaving, true)
      | .ok false =>
        if processedPrompt then return (.reporting .idle .resting, false)
        else return (.resting, false)
  | .prompting claimed =>
    match input.result with
    | .ok _ | .error .emptyAssistantResponse =>
      if claimed then return (.reporting .idle (.top true), false)
      else return (.processing true, false)
    | .error error =>
      return (.reporting (.failed (error.display statusText))
        (if claimed then .top false else .resting), false)
  | .resting => if held then return (.waiting, false) else return (.leaving, false)
  | .waiting =>
    if actor.autonomous && input.polled then return (.ticking, false)
    else if wake then return (.top true, false)
    else if held then return (.waiting, false)
    else return (.leaving, false)
  | .ticking => do
      match ← Program.attempt (takeShutdownSignal store actor.teamDir actor.name) with
      | .error error =>
        return (.reporting (.failed (error.display statusText)) (.top false), false)
      | .ok true => return (.reporting .shutdown .leaving, true)
      | .ok false => return (.claiming, false)
  | .claiming =>
    match input.claim with
    | .error error =>
      return (.reporting (.failed (error.display statusText)) (.top false), false)
    | .ok true => return (.reporting .working (.prompting true), false)
    | .ok false =>
      if input.timedOut then return (.reporting .shutdown .leaving, false)
      else return (.top false, false)
  | .reporting status next => do
      let _ ← Program.attempt (updateMemberStatus store actor.teamDir actor.name status)
      return (next, false)
  | .leaving => do
      let _ ← Program.attempt (unregisterTeammateActor store actor.teamDir actor.name)
      return (.gone, false)
  | .gone => return (.gone, false)

/-- A waiting actor that goes back to the top received a wake-up. -/
def Actor.enter (actor : Actor) (phase : ActorPhase) : Actor :=
  { actor with
    phase
    woken := if actor.phase = .waiting && phase = .top true then actor.woken + 1 else actor.woken }

namespace Crew

def new (initial : σ) : Crew σ where
  manager := .new initial

variable (crew : Crew σ)

/-- Whether the handle of an actor was not dropped. -/
def holds (number : Nat) (actor : Actor) : Bool :=
  actor.unregistered ||
    (crew.manager.teams actor.teamDir).any fun team => team.actors actor.name = some number

def wakes (number : Nat) (actor : Actor) : Bool :=
  actor.woken < crew.manager.notices.count (.wake number)

/-- Whether the call approves a request to shut down. -/
def approves : TeamCall → Bool
  | .resolveRequest teamDir responder requestId approve reason now =>
    match (decideRequest store teamDir responder requestId approve reason now).exec
      crew.manager with
    | (.ok (_, request), _) => approve && request.protocol = "shutdown"
    | (.error _, _) => false
  | _ => false

/-- The agent of an actor makes calls only while the actor waits for it, and speaks for itself. -/
def speaks (call : TeamCall) : Option Nat → Bool
  | none => call.speaker.isSome || (call matches .wakeTeammate _ _)
  | some number => (crew.actors[number]?).any fun actor =>
    (actor.phase matches .prompting _) && actor.teamDir = call.teamDir &&
      call.speaker = some actor.name

/-- One step of the crew. -/
def step : CrewAction → Option (Crew σ)
  | .start teamDir name autonomous =>
    some { crew with
      actors := crew.actors ++ [{ teamDir, name, autonomous }]
      log := crew.log ++ [.started crew.actors.length] }
  | .register number summary => do
      let actor ← crew.actors[number]?
      if actor.unregistered && summary.name = actor.name then
        some { crew with
          manager := ((spawnTeammate store actor.teamDir summary number).exec crew.manager).2
          actors := crew.actors.set number { actor with unregistered := false } }
      else none
  | .call speaker call =>
    if crew.speaks call speaker then
      some { crew with
        manager := ((perform store call).exec crew.manager).2
        log := if crew.approves store call then crew.log ++ [.approved speaker] else crew.log }
    else none
  | .advance number input => do
      let actor ← crew.actors[number]?
      if actor.phase = .gone then none
      else match (actor.advance store statusText (crew.holds number actor)
        (crew.wakes number actor) input).exec crew.manager with
        | (.ok (phase, took), manager) =>
          some { crew with
            manager
            actors := crew.actors.set number (actor.enter phase)
            log := if took then crew.log ++ [.took number] else crew.log }
        | (.error _, _) => none
  | .abort number => do
      let actor ← crew.actors[number]?
      if crew.holds number actor then none
      else some { crew with actors := crew.actors.set number { actor with phase := .gone } }
  | .panic number => do
      let actor ← crew.actors[number]?
      if actor.phase matches .prompting _ then
        some { crew with actors := crew.actors.set number { actor with phase := .gone } }
      else none

end Crew

end Actors

end Mentra.Team
