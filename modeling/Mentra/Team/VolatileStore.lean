import Mentra.Foundation.HashTable
import Mentra.Team.Core

/-!
# Teams in the volatile store

Model of `mentra/src/runtime/volatile_store/team.rs`.  The inbox of all teams is one list, to
which messages are added at the end.  An entry goes from pending to in flight when it is read,
and from there to acknowledged or back to pending.

`withFaults` is a store whose writes fail as a schedule says.
-/

namespace Mentra.Team

open Foundation

inductive DeliveryState
  | pending
  | inflight
  | acked
  deriving DecidableEq

structure TeamInboxEntry where
  teamDir : String
  recipient : String
  message : TeamMessage
  deliveryState : DeliveryState

/-- The part of the volatile store that team operations use. -/
structure VolatileTeams where
  members : HashTable (String × String) TeamMemberSummary
  inbox : List TeamInboxEntry
  requests : HashTable String (String × TeamProtocolRequestSummary)
  /-- The team directory and the name of every agent record. -/
  agents : List (String × String)

def VolatileTeams.new : VolatileTeams :=
  ⟨.empty, [], .empty, []⟩

namespace TeamInboxEntry

/-- An entry for the agent in the given state. -/
def isFor (entry : TeamInboxEntry) (teamDir agentName : String) (state : DeliveryState) : Bool :=
  entry.teamDir = teamDir && entry.recipient = agentName && entry.deliveryState = state

/-- The entries of the agent go from one state to another. -/
def turn (teamDir agentName : String) (source target : DeliveryState) (entry : TeamInboxEntry) :
    TeamInboxEntry :=
  if entry.isFor teamDir agentName source then { entry with deliveryState := target } else entry

end TeamInboxEntry

namespace VolatileTeams

variable (state : VolatileTeams)

def changeInbox (change : TeamInboxEntry → TeamInboxEntry) : VolatileTeams :=
  { state with inbox := state.inbox.map change }

variable (teamDir : String)

def unreadTeamCount (agentName : String) : Nat :=
  (state.inbox.filter fun entry => entry.isFor teamDir agentName .pending).length

/-- The messages of the agent in the given state, in the order in which they were sent. -/
def messagesIn (agentName : String) (delivery : DeliveryState) : List TeamMessage :=
  (state.inbox.filter fun entry => entry.isFor teamDir agentName delivery).map
    TeamInboxEntry.message

def appendTeamMessage (recipient : String) (message : TeamMessage) : VolatileTeams :=
  { state with inbox := state.inbox ++ [⟨teamDir, recipient, message, .pending⟩] }

def loadTeamMembers : List TeamMemberSummary :=
  ((state.members.entries.filter fun entry => entry.1.1 = teamDir).map Prod.snd).insertionSort
    fun left right => (compare left.name right.name).isLE

def loadTeamRequests : List TeamProtocolRequestSummary :=
  ((state.requests.values.filter fun stored => stored.1 = teamDir).map Prod.snd).insertionSort
    fun left right => (compareRequests left right).isLE

def listTeamAgentNames : List String :=
  ((state.agents.filter fun record => record.1 = teamDir).map Prod.snd).insertionSort
    fun left right => (compare left right).isLE

end VolatileTeams

/-- `TeamStore for VolatileRuntimeStore`; nothing fails. -/
def volatileTeamStore : TeamStore VolatileTeams where
  unreadTeamCount teamDir agentName := do
    return (← get).unreadTeamCount teamDir agentName
  loadTeamMembers teamDir := do return (← get).loadTeamMembers teamDir
  upsertTeamMember teamDir summary := modify fun state =>
    { state with members := state.members.insert (teamDir, summary.name) summary }
  readTeamInbox teamDir agentName := modifyGet fun state =>
    (state.messagesIn teamDir agentName .pending,
      state.changeInbox (TeamInboxEntry.turn teamDir agentName .pending .inflight))
  ackTeamInbox teamDir agentName := modify fun state =>
    state.changeInbox (TeamInboxEntry.turn teamDir agentName .inflight .acked)
  requeueTeamInbox teamDir agentName := modify fun state =>
    state.changeInbox (TeamInboxEntry.turn teamDir agentName .inflight .pending)
  appendTeamMessage teamDir recipient message := modify fun state =>
    state.appendTeamMessage teamDir recipient message
  loadTeamRequests teamDir := do return (← get).loadTeamRequests teamDir
  upsertTeamRequest teamDir request := modify fun state =>
    { state with requests := state.requests.insert request.requestId (teamDir, request) }
  listTeamAgentNames teamDir := do return (← get).listTeamAgentNames teamDir

/-! ## Faults -/

section Faults

variable {σ α : Type}

/-- A schedule of outcomes for the writes to come; those after its end succeed. -/
abbrev Faults := List (Option RuntimeError)

def sound (program : Program RuntimeError σ α) : Program RuntimeError (Faults × σ) α :=
  Program.zoom Prod.snd (fun state store => (state.1, store)) program

def scheduled (program : Program RuntimeError σ α) : Program RuntimeError (Faults × σ) α := do
  match (← get).1 with
  | [] => sound program
  | none :: rest =>
    modify fun state => (rest, state.2)
    sound program
  | some error :: rest =>
    modify fun state => (rest, state.2)
    throw error

def TeamStore.withFaults (store : TeamStore σ) : TeamStore (Faults × σ) where
  unreadTeamCount teamDir agentName := sound (store.unreadTeamCount teamDir agentName)
  loadTeamMembers teamDir := sound (store.loadTeamMembers teamDir)
  upsertTeamMember teamDir summary := scheduled (store.upsertTeamMember teamDir summary)
  readTeamInbox teamDir agentName := scheduled (store.readTeamInbox teamDir agentName)
  ackTeamInbox teamDir agentName := scheduled (store.ackTeamInbox teamDir agentName)
  requeueTeamInbox teamDir agentName := scheduled (store.requeueTeamInbox teamDir agentName)
  appendTeamMessage teamDir recipient message :=
    scheduled (store.appendTeamMessage teamDir recipient message)
  loadTeamRequests teamDir := sound (store.loadTeamRequests teamDir)
  upsertTeamRequest teamDir request := scheduled (store.upsertTeamRequest teamDir request)
  listTeamAgentNames teamDir := sound (store.listTeamAgentNames teamDir)

end Faults

end Mentra.Team
