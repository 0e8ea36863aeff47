import Mentra.Transcript.Core

/-!
# Provider and runtime errors

The error enumerations of `mentra-provider/src/error.rs` and
`mentra/src/runtime/error.rs` with the classifications the runner branches on.
Errors of external crates are carried as their messages, HTTP statuses and
durations (in milliseconds) as numbers.
-/

namespace Mentra

/-- Errors returned by provider implementations and stream adapters. -/
inductive ProviderError
  | transport (message : String)
  | retryable (message : String) (delay : Option Nat)
  | unsupportedCapability (capability : String)
  | http (status : Nat) (body : String) (retryAfter : Option Nat)
  | contextLengthExceeded (status : Nat) (body : String)
  | decode (message : String)
  | serialize (message : String)
  | deserialize (message : String)
  | invalidRequest (message : String)
  | invalidResponse (message : String)
  | malformedStream (message : String)
  deriving DecidableEq

namespace ProviderError

/-- Whether this error says the request was too long for the model. -/
def isContextLengthExceeded : ProviderError → Bool
  | contextLengthExceeded _ _ => true
  | _ => false

/-- `is_transient_provider_error`: server errors, rate limits and request
timeouts are worth retrying, an overlong request is not. -/
def isTransient : ProviderError → Bool
  | transport _ | decode _ | retryable _ _ => true
  | http status _ _ => (500 ≤ status && status < 600) || status == 429 || status == 408
  | _ => false

/-- `provider_http_error`; how a status prints belongs to the HTTP library. -/
def httpText (statusText : Nat → String) (status : Nat) (body : String) : String :=
  if (Foundation.Text.trim body).isEmpty then "provider returned HTTP " ++ statusText status
  else "provider returned HTTP " ++ statusText status ++ ": " ++ body

/-- The error's message. -/
def display (statusText : Nat → String) : ProviderError → String
  | transport message => "provider transport error: " ++ message
  | retryable message _ => "retryable provider error: " ++ message
  | unsupportedCapability capability =>
    "provider does not support capability: " ++ capability
  | http status body _ => httpText statusText status body
  | contextLengthExceeded status body =>
    "provider context length exceeded: " ++ httpText statusText status body
  | decode message => "failed to decode provider response: " ++ message
  | serialize message => "failed to serialize provider request: " ++ message
  | deserialize message => "failed to deserialize provider payload: " ++ message
  | invalidRequest message => "invalid provider request: " ++ message
  | invalidResponse message => "invalid provider response: " ++ message
  | malformedStream message => "malformed provider stream: " ++ message

end ProviderError

/-- Errors produced while configuring, running, or recovering agents. -/
inductive RuntimeError
  | providerNotFound (provider : Option String)
  | noModelsAvailable (provider : String)
  | failedToSendRequest (source : ProviderError)
  | failedToListModels (source : ProviderError)
  | failedToCreateProviderSessionScope (source : ProviderError)
  | providerSessionScopeIdentityMismatch (expected actual : String)
  | failedToStreamResponse (source : ProviderError)
  | failedToCompactHistory (source : ProviderError)
  | failedToPersistTranscript (message : String)
  | failedToSerializeTranscript (message : String)
  | failedToLoadTasks (message : String)
  | failedToWriteTasks (message : String)
  | failedToSerializeTasks (message : String)
  | failedToRestoreTasks (message : String)
  | failedToLoadTeam (message : String)
  | failedToWriteTeam (message : String)
  | failedToSerializeTeam (message : String)
  | failedToDeserializeTeam (message : String)
  | invalidTask (message : String)
  | invalidTeam (message : String)
  | operationDenied (message : String)
  | store (message : String)
  | branch (source : BranchError)
  | leaseUnavailable (message : String)
  | cancelled
  | deadlineExceeded
  | toolBudgetExceeded (limit : Nat)
  | modelBudgetExceeded (limit : Nat)
  | maxRoundsExceeded (limit : Nat)
  | emptyAssistantResponse
  | noResumableTurn
  | noInterruptedTurn
  | invalidToolUseInput (id name source : String)
  | malformedProviderEvent (message : String)
  | subagentTemplateMismatch (templateSource receiver : String)
  deriving DecidableEq

/-- Classifies a runtime error by its recoverability. -/
inductive ErrorCategory
  | retryable
  | terminal
  | degraded
  deriving DecidableEq

namespace RuntimeError

def category : RuntimeError → ErrorCategory
  | failedToSendRequest source | failedToStreamResponse source
  | failedToCompactHistory source => if source.isTransient then .retryable else .terminal
  | failedToPersistTranscript _ | failedToSerializeTranscript _ | failedToLoadTasks _
  | failedToWriteTasks _ | failedToSerializeTasks _ | failedToRestoreTasks _
  | failedToLoadTeam _ | failedToWriteTeam _ | failedToSerializeTeam _
  | failedToDeserializeTeam _ | store _ | leaseUnavailable _ => .degraded
  | _ => .terminal

/-- The error's message. -/
def display (statusText : Nat → String) : RuntimeError → String
  | providerNotFound (some provider) => "provider '" ++ provider ++ "' is not registered"
  | providerNotFound none => "no providers are registered"
  | noModelsAvailable provider => "provider '" ++ provider ++ "' did not return any models"
  | failedToSendRequest source =>
    "failed to send provider request: " ++ source.display statusText
  | failedToListModels source => "failed to list provider models: " ++ source.display statusText
  | failedToCreateProviderSessionScope source =>
    "failed to create a fresh provider session scope: " ++ source.display statusText
  | providerSessionScopeIdentityMismatch expected actual =>
    "fresh provider session scope changed provider identity from '" ++ expected ++ "' to '" ++
      actual ++ "'"
  | failedToStreamResponse source =>
    "failed to stream provider response: " ++ source.display statusText
  | failedToCompactHistory source => "failed to compact history: " ++ source.display statusText
  | failedToPersistTranscript message => "failed to persist transcript: " ++ message
  | failedToSerializeTranscript message => "failed to serialize transcript: " ++ message
  | failedToLoadTasks message => "failed to load tasks: " ++ message
  | failedToWriteTasks message => "failed to write tasks: " ++ message
  | failedToSerializeTasks message => "failed to serialize tasks: " ++ message
  | failedToRestoreTasks message => "failed to restore tasks: " ++ message
  | failedToLoadTeam message => "failed to load team state: " ++ message
  | failedToWriteTeam message => "failed to write team state: " ++ message
  | failedToSerializeTeam message => "failed to serialize team state: " ++ message
  | failedToDeserializeTeam message => "failed to deserialize team state: " ++ message
  | invalidTask message => "invalid task state: " ++ message
  | invalidTeam message => "invalid team state: " ++ message
  | operationDenied message => "operation denied: " ++ message
  | store message => "runtime store error: " ++ message
  | branch (.unknownEntry id) =>
    "cannot branch: no entry '" ++ id.value ++ "' anywhere in the transcript"
  | branch (.brokenChain entry missing) =>
    "cannot branch: entry '" ++ entry.value ++ "' has a broken parent chain: '" ++
      missing.value ++ "' is not in the transcript"
  | leaseUnavailable message => "lease unavailable: " ++ message
  | cancelled => "operation cancelled"
  | deadlineExceeded => "deadline exceeded"
  | toolBudgetExceeded limit => "tool budget exceeded at " ++ toString limit ++ " call(s)"
  | modelBudgetExceeded limit => "model budget exceeded at " ++ toString limit ++ " request(s)"
  | maxRoundsExceeded limit => "max rounds exceeded at " ++ toString limit
  | emptyAssistantResponse => "run completed without a final assistant message"
  | noResumableTurn => "no resumable user turn is available"
  | noInterruptedTurn => "no interrupted turn is available to continue"
  | invalidToolUseInput id name source =>
    "invalid tool input for '" ++ name ++ "' (" ++ id ++ "): " ++ source
  | malformedProviderEvent message => "malformed provider event: " ++ message
  | subagentTemplateMismatch templateSource receiver =>
    "subagent template built from '" ++ templateSource ++ "' cannot be spawned by '" ++
      receiver ++ "': a template is only spawnable by the agent (on the same runtime) it " ++
      "was built from"

/-- `is_run_bound`: a run bound reporting itself rather than a failure. -/
def isRunBound : RuntimeError → Bool
  | cancelled | deadlineExceeded => true
  | _ => false

end RuntimeError

end Mentra
