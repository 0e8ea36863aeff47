import Mentra.Runner.Core

/-!
# Teams

The records of `mentra/src/team/types.rs` and the store trait of `mentra/src/team/store.rs`.  A
team is known by the text of its directory.  Every store operation is a program on the state
of the store: it may fail, and it may have changed that state before it did.  The clock is
read once for an operation, in nanoseconds.
-/

namespace Mentra.Team

open Foundation

inductive TeamMemberStatus
  | idle
  | working
  | failed (message : String)
  | shutdown
  deriving DecidableEq

structure TeamMemberSummary where
  id : String
  name : String
  role : String
  model : String
  status : TeamMemberStatus
  deriving DecidableEq

inductive TeamProtocolStatus
  | pending
  | approved
  | rejected
  deriving DecidableEq

structure TeamProtocolRequestSummary where
  requestId : String
  protocol : String
  fromAgent : String
  toAgent : String
  content : String
  status : TeamProtocolStatus
  createdAt : Nat
  resolvedAt : Option Nat
  resolutionReason : Option String
  deriving DecidableEq

/-- The seconds of a clock that counts nanoseconds. -/
def unixTimestampSecs (now : Nat) : Nat :=
  now / 1000000000

/-! ## Messages -/

namespace TeamMessage

def message (sender content : String) (now : Nat) : TeamMessage :=
  { kind := .message, sender, content, timestamp := unixTimestampSecs now }

def broadcast (sender content : String) (now : Nat) : TeamMessage :=
  { kind := .broadcast, sender, content, timestamp := unixTimestampSecs now }

def request (sender : String) (request : TeamProtocolRequestSummary) (now : Nat) : TeamMessage :=
  { kind := .request, sender, content := request.content, timestamp := unixTimestampSecs now,
    requestId := some request.requestId, protocol := some request.protocol }

def response (sender : String) (request : TeamProtocolRequestSummary) (approve : Bool)
    (reason : String) (now : Nat) : TeamMessage :=
  { kind := .response, sender, content := reason, timestamp := unixTimestampSecs now,
    requestId := some request.requestId, protocol := some request.protocol,
    approve := some approve }

end TeamMessage

/-! ## Filters -/

inductive TeamRequestDirection
  | inbound
  | outbound
  | any

structure TeamRequestFilter where
  status : Option TeamProtocolStatus := none
  protocol : Option String := none
  counterparty : Option String := none
  direction : TeamRequestDirection := .any

def TeamRequestFilter.matches (filter : TeamRequestFilter) (agentName : String)
    (request : TeamProtocolRequestSummary) : Bool :=
  filter.status.all (fun status => request.status = status) &&
    filter.protocol.all (fun protocol => request.protocol = protocol) &&
      filter.counterparty.all (fun counterparty =>
        request.fromAgent = counterparty || request.toAgent = counterparty) &&
        match filter.direction with
        | .inbound => request.toAgent = agentName
        | .outbound => request.fromAgent = agentName
        | .any => request.fromAgent = agentName || request.toAgent = agentName

/-- Requests are listed by age, then by id. -/
def compareRequests (left right : TeamProtocolRequestSummary) : Ordering :=
  (compare left.createdAt right.createdAt).then (compare left.requestId right.requestId)

/-! ## Stores -/

/-- `TeamStore`: the operations of a store on a state of its own. -/
structure TeamStore (σ : Type) where
  unreadTeamCount (teamDir agentName : String) : Program RuntimeError σ Nat
  loadTeamMembers (teamDir : String) : Program RuntimeError σ (List TeamMemberSummary)
  upsertTeamMember (teamDir : String) (summary : TeamMemberSummary) : Program RuntimeError σ Unit
  readTeamInbox (teamDir agentName : String) : Program RuntimeError σ (List TeamMessage)
  ackTeamInbox (teamDir agentName : String) : Program RuntimeError σ Unit
  requeueTeamInbox (teamDir agentName : String) : Program RuntimeError σ Unit
  appendTeamMessage (teamDir recipient : String) (message : TeamMessage) :
    Program RuntimeError σ Unit
  loadTeamRequests (teamDir : String) : Program RuntimeError σ (List TeamProtocolRequestSummary)
  upsertTeamRequest (teamDir : String) (request : TeamProtocolRequestSummary) :
    Program RuntimeError σ Unit
  listTeamAgentNames (teamDir : String) : Program RuntimeError σ (List String)

end Mentra.Team
