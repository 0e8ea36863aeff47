import Mentra.Message.Core

/-!
# Provider events

The events of `mentra-provider/src/stream.rs` that every provider's decoder
emits: a message that starts and stops, and numbered content blocks that start,
grow by deltas and stop.
-/

namespace Mentra

/-- What opens a content block. -/
inductive ContentBlockStart (V : Type)
  | text
  | thinking (encryptedContent id : Option String) (provenance : Option ReasoningProvenance)
      (redacted : Bool)
  | image (source : ImageSource)
  | toolUse (id name : String)
  | toolResult (toolUseId : String) (isError : Bool) (content : Option (ToolResultContent V))
  | hostedToolSearch (call : HostedToolSearchCall)
  | hostedWebSearch (call : HostedWebSearchCall)
  | imageGeneration (call : ImageGenerationCall)
  deriving DecidableEq

/-- What adds to a content block. -/
inductive ContentBlockDelta (V : Type)
  | text (delta : String)
  | thinkingText (delta : String)
  | thinkingSignature (delta : String)
  | thinkingEncryptedContent (value : String)
  | toolUseInputJson (delta : String)
  | toolResultContent (delta : ToolResultContent V)
  | hostedToolSearchQuery (query : String)
  | hostedToolSearchStatus (status : String)
  | hostedWebSearchAction (action : WebSearchAction)
  | hostedWebSearchStatus (status : String)
  | imageGenerationStatus (status : String)
  | imageGenerationRevisedPrompt (prompt : String)
  | imageGenerationResult (result : ImageGenerationResult)
  deriving DecidableEq

/-- One event of a provider's stream. -/
inductive ProviderEvent (V : Type)
  | responseHeaders (values : List (String × String))
  | responseCreated
  | messageStarted (id model : String) (role : Role)
  | contentBlockStarted (index : Nat) (kind : ContentBlockStart V)
  | contentBlockDelta (index : Nat) (delta : ContentBlockDelta V)
  | contentBlockStopped (index : Nat)
  | messageDelta (stopReason : Option String) (usage : Option TokenUsage)
  | reasoningSummaryDelta (delta : String) (summaryIndex : Int)
  | reasoningContentDelta (delta : String) (contentIndex : Int)
  | reasoningSummaryPartAdded (summaryIndex : Int)
  | messageStopped
  deriving DecidableEq

end Mentra
