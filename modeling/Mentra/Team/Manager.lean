import Mentra.Team.Core

/-!
# The team manager

Model of `mentra/src/team/manager.rs`.  The manager has a record for each team it was asked
about, read from the store at the first request and changed in memory from then on.  An
operation holds the lock of the manager from its first read to its last store write; what it
tells observers and actors afterwards is kept as a list of notices.

Where the source changes a record and then calls the store, the model writes the changed
record back before the call, so a failed call leaves the change in place.
-/

namespace Mentra.Team

open Foundation Function

structure TeamObserver where
  agentName : String
  sink : Nat
  deriving DecidableEq

structure TeamState where
  teamDir : String
  members : List TeamMemberSummary
  requests : List TeamProtocolRequestSummary
  /-- A set: no name is in it twice, and its order is not used. -/
  knownAgents : List String
  unreadCounts : String → Option Nat := fun _ => none
  observers : List TeamObserver := []
  actors : String → Option Nat := fun _ => none
  /-- A set, as the known agents are. -/
  pendingShutdowns : List String := []

/-- The events of an agent that concern its team. -/
inductive TeamEvent
  | teammateSpawned (teammate : TeamMemberSummary)
  | teammateUpdated (teammate : TeamMemberSummary)
  | teamInboxUpdated (unreadCount : Nat)
  | teamProtocolRequested (request : TeamProtocolRequestSummary)
  | teamProtocolResolved (request : TeamProtocolRequestSummary)
  deriving DecidableEq

/-- What an operation tells an actor or the sink of an observer. -/
inductive Notice
  | wake (actor : Nat)
  | snapshot (sink : Nat) (members : List TeamMemberSummary)
      (requests : List TeamProtocolRequestSummary) (unreadCount : Nat)
  | event (sink : Nat) (event : TeamEvent)
  deriving DecidableEq

/-- The state of the manager, of the process' request counter and of the store. -/
structure TeamManager (σ : Type) where
  teams : String → Option TeamState
  nextRequestId : Nat
  notices : List Notice
  store : σ

def TeamManager.new {σ : Type} (store : σ) : TeamManager σ where
  teams _ := none
  nextRequestId := 1
  notices := []
  store := store

/-- Operations of the manager. -/
abbrev TeamM (σ : Type) :=
  Program RuntimeError (TeamManager σ)

variable {σ α : Type}

def onStore (program : Program RuntimeError σ α) : TeamM σ α :=
  Program.zoom TeamManager.store (fun manager store => { manager with store }) program

def setTeam (teamDir : String) (team : TeamState) : TeamM σ Unit :=
  modify fun manager =>
    { manager with teams := update manager.teams teamDir (some team) }

def notify (notices : List Notice) : TeamM σ Unit :=
  modify fun manager => { manager with notices := manager.notices ++ notices }

namespace TeamState

variable (team : TeamState) (agentName : String)

def unreadCount : Nat :=
  (team.unreadCounts agentName).getD 0

def setUnreadCount (count : Nat) : TeamState :=
  { team with unreadCounts := update team.unreadCounts agentName (some count) }

def incrementUnreadCount : TeamState :=
  team.setUnreadCount agentName (team.unreadCount agentName + 1)

/-- Whether messages can be sent to a name. -/
def knows : Bool :=
  agentName ∈ team.knownAgents || team.members.any fun member => member.name = agentName

def wakeUp : List Notice :=
  (team.actors agentName).toList.map .wake

/-- `inbox_notification` with `publish_inbox_notification`. -/
def inboxNotification : List Notice :=
  (team.observers.filter fun observer => observer.agentName = agentName).flatMap fun observer =>
    [.snapshot observer.sink team.members team.requests (team.unreadCount agentName),
      .event observer.sink (.teamInboxUpdated (team.unreadCount agentName))]

/-- `observer_updates` with `publish_to_observers`. -/
def observerUpdates (event : TeamEvent) : List Notice :=
  team.observers.flatMap fun observer =>
    [.snapshot observer.sink team.members team.requests (team.unreadCount observer.agentName),
      .event observer.sink event]

/-- The recipients of a broadcast, in the order in which they are served. -/
def recipients (sender : String) : List String :=
  (team.knownAgents.insertionSort fun left right => (compare left right).isLE).filter
    fun name => name ≠ sender

end TeamState

def formatRequestId (timestampNanos counter : Nat) : String :=
  String.ofList (Nat.toDigits 16 timestampNanos) ++ "-" ++ String.ofList (Nat.toDigits 16 counter)

def nextRequestId (now : Nat) : TeamM σ String :=
  modifyGet fun manager =>
    (formatRequestId now manager.nextRequestId,
      { manager with nextRequestId := manager.nextRequestId + 1 })

section Operations

variable (store : TeamStore σ)

def ensureTeamState (teamDir : String) : TeamM σ TeamState := do
  match (← get).teams teamDir with
  | some team => return team
  | none =>
    let members ← onStore (store.loadTeamMembers teamDir)
    let requests ← onStore (store.loadTeamRequests teamDir)
    let names ← onStore (store.listTeamAgentNames teamDir)
    let team : TeamState := { teamDir, members, requests, knownAgents := names.dedup }
    setTeam teamDir team
    return team

/-! ## Members -/

def registerAgent (teamDir agentName : String) (sink : Nat) : TeamM σ Unit := do
  let team ← ensureTeamState store teamDir
  let team := { team with knownAgents := team.knownAgents.insert agentName }
  setTeam teamDir team
  let unread ← onStore (store.unreadTeamCount teamDir agentName)
  let team := team.setUnreadCount agentName unread
  let others := team.observers.filter fun existing => existing.agentName ≠ agentName
  let team := { team with observers := others ++ [⟨agentName, sink⟩] }
  setTeam teamDir team
  notify [.snapshot sink team.members team.requests (team.unreadCount agentName)]

/-- The part of `spawn_teammate` before the store is asked. -/
def enterTeammate (teamDir : String) (summary : TeamMemberSummary) (actor : Nat) :
    TeamM σ TeamState := do
  let team ← ensureTeamState store teamDir
  let members ← match team.members.findFinIdx? fun member => member.name = summary.name with
    | some index =>
      if (team.actors summary.name).isSome then
        throw (.invalidTeam ("Team member '" ++ summary.name ++ "' already exists"))
      else pure (team.members.set index summary)
    | none => pure (team.members ++ [summary])
  let team := { team with
    members
    knownAgents := team.knownAgents.insert summary.name
    actors := update team.actors summary.name (some actor) }
  setTeam teamDir team
  return team

/-- The rest of `spawn_teammate`. -/
def saveTeammate (summary : TeamMemberSummary) (team : TeamState) :
    TeamM σ TeamMemberSummary := do
  onStore (store.upsertTeamMember team.teamDir summary)
  notify (team.observerUpdates (.teammateSpawned summary))
  return summary

def spawnTeammate (teamDir : String) (summary : TeamMemberSummary) (actor : Nat) :
    TeamM σ TeamMemberSummary := do
  let team ← enterTeammate store teamDir summary actor
  saveTeammate store summary team

def wakeTeammate (teamDir teammateName : String) : TeamM σ Unit := do
  let team ← ensureTeamState store teamDir
  match team.actors teammateName with
  | some actor => notify [.wake actor]
  | none =>
    throw (.invalidTeam ("No live teammate actor exists for '" ++ teammateName ++ "'"))

/-- The part of `update_member_status` before the store is asked. -/
def changeStatus (teamDir name : String) (status : TeamMemberStatus) :
    TeamM σ (TeamState × TeamMemberSummary) := do
  let team ← ensureTeamState store teamDir
  match team.members.findFinIdx? fun member => member.name = name with
  | none => throw (.invalidTeam ("Unknown team member '" ++ name ++ "'"))
  | some index =>
    let teammate := { team.members[index] with status }
    let team := { team with members := team.members.set index teammate }
    setTeam teamDir team
    return (team, teammate)

/-- The rest of `update_member_status`. -/
def saveStatus (changed : TeamState × TeamMemberSummary) : TeamM σ Unit := do
  onStore (store.upsertTeamMember changed.1.teamDir changed.2)
  notify (changed.1.observerUpdates (.teammateUpdated changed.2))

def updateMemberStatus (teamDir name : String) (status : TeamMemberStatus) : TeamM σ Unit := do
  let changed ← changeStatus store teamDir name status
  saveStatus store changed

def takeShutdownSignal (teamDir teammateName : String) : TeamM σ Bool := do
  let team ← ensureTeamState store teamDir
  setTeam teamDir { team with pendingShutdowns := team.pendingShutdowns.erase teammateName }
  return teammateName ∈ team.pendingShutdowns

def unregisterTeammateActor (teamDir teammateName : String) : TeamM σ Unit := do
  let team ← ensureTeamState store teamDir
  setTeam teamDir { team with actors := update team.actors teammateName none }

/-! ## Messages -/

def sendMessage (teamDir sender recipient content : String) (now : Nat) : TeamM σ String := do
  let team ← ensureTeamState store teamDir
  if !team.knows recipient then
    throw (.invalidTeam ("Unknown team recipient '" ++ recipient ++ "'"))
  onStore (store.appendTeamMessage teamDir recipient (TeamMessage.message sender content now))
  let team := team.incrementUnreadCount recipient
  setTeam teamDir team
  notify (team.wakeUp recipient ++ team.inboxNotification recipient)
  return recipient

/-- The loop of `broadcast_message`: the team after it, and whom it wakes. -/
def broadcastTo (teamDir sender content : String) (now : Nat) :
    TeamState → List String → TeamM σ (TeamState × List Notice)
  | team, [] => return (team, [])
  | team, recipient :: recipients => do
      onStore (store.appendTeamMessage teamDir recipient (TeamMessage.broadcast sender content now))
      let team := team.incrementUnreadCount recipient
      setTeam teamDir team
      let (final, wakeUps) ← broadcastTo teamDir sender content now team recipients
      return (final, team.wakeUp recipient ++ wakeUps)

def broadcastMessage (teamDir sender content : String) (now : Nat) :
    TeamM σ (List String) := do
  let team ← ensureTeamState store teamDir
  let recipients := team.recipients sender
  let (team, wakeUps) ← broadcastTo store teamDir sender content now team recipients
  notify (wakeUps ++ recipients.flatMap team.inboxNotification)
  return recipients

def readInbox (teamDir agentName : String) : TeamM σ (List TeamMessage) := do
  let team ← ensureTeamState store teamDir
  let messages ← onStore (store.readTeamInbox teamDir agentName)
  let team := team.setUnreadCount agentName 0
  setTeam teamDir team
  notify (team.inboxNotification agentName)
  return messages

def hasPendingMessages (teamDir agentName : String) : TeamM σ Bool := do
  let unread ← onStore (store.unreadTeamCount teamDir agentName)
  return 0 < unread

/-- `requeue_messages` and `acknowledge_messages`: settle what was read, and count anew. -/
def settleMessages (settle : String → String → Program RuntimeError σ Unit)
    (teamDir agentName : String) : TeamM σ Unit := do
  let team ← ensureTeamState store teamDir
  onStore (settle teamDir agentName)
  let unread ← onStore (store.unreadTeamCount teamDir agentName)
  let team := team.setUnreadCount agentName unread
  setTeam teamDir team
  notify (team.inboxNotification agentName)

def requeueMessages (teamDir agentName : String) : TeamM σ Unit :=
  settleMessages store store.requeueTeamInbox teamDir agentName

def acknowledgeMessages (teamDir agentName : String) : TeamM σ Unit :=
  settleMessages store store.ackTeamInbox teamDir agentName

/-! ## Protocol requests -/

/-- The part of `create_request` before the request itself is stored. -/
def postRequest (teamDir sender recipient protocol content : String) (now : Nat) :
    TeamM σ (TeamState × TeamProtocolRequestSummary) := do
  let team ← ensureTeamState store teamDir
  if !team.knows recipient then
    throw (.invalidTeam ("Unknown team recipient '" ++ recipient ++ "'"))
  let requestId ← nextRequestId now
  let request : TeamProtocolRequestSummary :=
    { requestId, protocol, fromAgent := sender, toAgent := recipient, content, status := .pending,
      createdAt := unixTimestampSecs now, resolvedAt := none, resolutionReason := none }
  onStore (store.appendTeamMessage teamDir recipient (TeamMessage.request sender request now))
  let team := team.incrementUnreadCount recipient
  let team := { team with requests := team.requests ++ [request] }
  setTeam teamDir team
  return (team, request)

/-- The rest of `create_request`. -/
def saveRequest (posted : TeamState × TeamProtocolRequestSummary) :
    TeamM σ TeamProtocolRequestSummary := do
  let (team, request) := posted
  onStore (store.upsertTeamRequest team.teamDir request)
  notify (team.wakeUp request.toAgent ++ team.inboxNotification request.toAgent ++
    team.observerUpdates (.teamProtocolRequested request))
  return request

def createRequest (teamDir sender recipient protocol content : String) (now : Nat) :
    TeamM σ TeamProtocolRequestSummary := do
  let posted ← postRequest store teamDir sender recipient protocol content now
  saveRequest store posted

/-- The request with an answer. -/
def TeamProtocolRequestSummary.answer (request : TeamProtocolRequestSummary) (approve : Bool)
    (reason : Option String) (now : Nat) : TeamProtocolRequestSummary :=
  { request with
    status := if approve then .approved else .rejected
    resolvedAt := some (unixTimestampSecs now)
    resolutionReason := reason.filter fun value => !(Text.trim value).isEmpty }

/-- The part of `resolve_request` before the store is asked. -/
def decideRequest (teamDir responder requestId : String) (approve : Bool)
    (reason : Option String) (now : Nat) : TeamM σ (TeamState × TeamProtocolRequestSummary) := do
  let team ← ensureTeamState store teamDir
  match team.requests.findFinIdx? fun request => request.requestId = requestId with
  | none => throw (.invalidTeam ("Unknown team request '" ++ requestId ++ "'"))
  | some index =>
    let request := team.requests[index]
    if request.toAgent ≠ responder then
      throw (.invalidTeam
        ("Agent '" ++ responder ++ "' cannot respond to request '" ++ requestId ++ "'"))
    if request.status ≠ .pending then
      throw (.invalidTeam ("Team request '" ++ requestId ++ "' is already resolved"))
    let request := request.answer approve reason now
    let team := { team with requests := team.requests.set index request }
    setTeam teamDir team
    return (team, request)

/-- The rest of `resolve_request`. -/
def deliverResponse (teamDir responder : String) (approve : Bool) (now : Nat)
    (decided : TeamState × TeamProtocolRequestSummary) : TeamM σ TeamProtocolRequestSummary := do
  let (team, request) := decided
  onStore (store.appendTeamMessage teamDir request.fromAgent
    (TeamMessage.response responder request approve (request.resolutionReason.getD "") now))
  let team := team.incrementUnreadCount request.fromAgent
  let shutdowns :=
    if approve && request.protocol = "shutdown" then team.pendingShutdowns.insert responder
    else team.pendingShutdowns
  let team := { team with pendingShutdowns := shutdowns }
  setTeam teamDir team
  onStore (store.upsertTeamRequest team.teamDir request)
  notify (team.wakeUp request.fromAgent ++ team.inboxNotification request.fromAgent ++
    team.observerUpdates (.teamProtocolResolved request))
  return request

def resolveRequest (teamDir responder requestId : String) (approve : Bool)
    (reason : Option String) (now : Nat) : TeamM σ TeamProtocolRequestSummary := do
  let decided ← decideRequest store teamDir responder requestId approve reason now
  deliverResponse store teamDir responder approve now decided

def listRequests (teamDir agentName : String) (filter : TeamRequestFilter) :
    TeamM σ (List TeamProtocolRequestSummary) := do
  let team ← ensureTeamState store teamDir
  return (team.requests.filter (filter.matches agentName)).insertionSort
    fun left right => (compareRequests left right).isLE

end Operations

/-! ## Calls -/

/-- A call of the manager; `now` is the time it is made. -/
inductive TeamCall
  | registerAgent (teamDir agentName : String) (sink : Nat)
  | spawnTeammate (teamDir : String) (summary : TeamMemberSummary) (actor : Nat)
  | wakeTeammate (teamDir teammateName : String)
  | updateMemberStatus (teamDir name : String) (status : TeamMemberStatus)
  | sendMessage (teamDir sender recipient content : String) (now : Nat)
  | broadcastMessage (teamDir sender content : String) (now : Nat)
  | readInbox (teamDir agentName : String)
  | hasPendingMessages (teamDir agentName : String)
  | requeueMessages (teamDir agentName : String)
  | acknowledgeMessages (teamDir agentName : String)
  | createRequest (teamDir sender recipient protocol content : String) (now : Nat)
  | resolveRequest (teamDir responder requestId : String) (approve : Bool)
      (reason : Option String) (now : Nat)
  | listRequests (teamDir agentName : String) (filter : TeamRequestFilter)
  | takeShutdownSignal (teamDir teammateName : String)
  | unregisterTeammateActor (teamDir teammateName : String)

inductive TeamReply
  | done
  | member (summary : TeamMemberSummary)
  | sentTo (names : List String)
  | messages (messages : List TeamMessage)
  | requests (requests : List TeamProtocolRequestSummary)
  | flag (value : Bool)
  deriving DecidableEq

def TeamCall.teamDir : TeamCall → String
  | registerAgent teamDir _ _ | spawnTeammate teamDir _ _ | wakeTeammate teamDir _
  | updateMemberStatus teamDir _ _ | sendMessage teamDir _ _ _ _
  | broadcastMessage teamDir _ _ _ | readInbox teamDir _ | hasPendingMessages teamDir _
  | requeueMessages teamDir _ | acknowledgeMessages teamDir _ | createRequest teamDir _ _ _ _ _
  | resolveRequest teamDir _ _ _ _ _ | listRequests teamDir _ _ | takeShutdownSignal teamDir _
  | unregisterTeammateActor teamDir _ => teamDir

def perform (store : TeamStore σ) : TeamCall → TeamM σ TeamReply
  | .registerAgent teamDir agentName sink => do
      registerAgent store teamDir agentName sink
      return .done
  | .spawnTeammate teamDir summary actor =>
    return .member (← spawnTeammate store teamDir summary actor)
  | .wakeTeammate teamDir teammateName => do
      wakeTeammate store teamDir teammateName
      return .done
  | .updateMemberStatus teamDir name status => do
      updateMemberStatus store teamDir name status
      return .done
  | .sendMessage teamDir sender recipient content now =>
    return .sentTo [← sendMessage store teamDir sender recipient content now]
  | .broadcastMessage teamDir sender content now =>
    return .sentTo (← broadcastMessage store teamDir sender content now)
  | .readInbox teamDir agentName =>
    return .messages (← readInbox store teamDir agentName)
  | .hasPendingMessages teamDir agentName =>
    return .flag (← hasPendingMessages store teamDir agentName)
  | .requeueMessages teamDir agentName => do
      requeueMessages store teamDir agentName
      return .done
  | .acknowledgeMessages teamDir agentName => do
      acknowledgeMessages store teamDir agentName
      return .done
  | .createRequest teamDir sender recipient protocol content now =>
    return .requests [← createRequest store teamDir sender recipient protocol content now]
  | .resolveRequest teamDir responder requestId approve reason now =>
    return .requests [← resolveRequest store teamDir responder requestId approve reason now]
  | .listRequests teamDir agentName filter =>
    return .requests (← listRequests store teamDir agentName filter)
  | .takeShutdownSignal teamDir teammateName =>
    return .flag (← takeShutdownSignal store teamDir teammateName)
  | .unregisterTeammateActor teamDir teammateName => do
      unregisterTeammateActor store teamDir teammateName
      return .done

/-- The state after a sequence of calls, failed or not. -/
def performAll (store : TeamStore σ) (manager : TeamManager σ) (calls : List TeamCall) :
    TeamManager σ :=
  calls.foldl (fun manager call => ((perform store call).exec manager).2) manager

end Mentra.Team
