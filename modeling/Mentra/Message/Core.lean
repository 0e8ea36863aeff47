import Mathlib

/-!
# Messages and content blocks

The provider-neutral conversation data of `mentra-provider/src/model.rs`.  The type `V` of
JSON values is a parameter throughout, and printing and parsing them are the fields of
`SerdeJson`, of which nothing is assumed here.
-/

namespace Mentra

/-- The two `serde_json` operations the code relies on: `Value::to_string` and
`serde_json::from_str`, the latter failing with the parser's message. -/
class SerdeJson (V : Type) where
  print : V → String
  fromStr : String → Except String V

/-- JSON values of which only one is looked at: any text but the empty one is
read as it. -/
instance : SerdeJson Unit where
  print _ := "null"
  fromStr text := if text.isEmpty then .error "EOF while parsing a value" else .ok ()

/-- Provider-neutral chat role labels. -/
inductive Role
  | user
  | assistant
  | unknown (role : String)
  deriving DecidableEq

/-- Image payload supported by model providers. -/
inductive ImageSource
  | bytes (mediaType : String) (data : List UInt8)
  | url (url : String)
  deriving DecidableEq

/-- Tool result payloads supported by provider streams and history replay. -/
inductive ToolResultContent (V : Type)
  | text (value : String)
  | structured (value : V)
  deriving DecidableEq

variable (value : String)

namespace ToolResultContent

variable {V : Type} [SerdeJson V]

/-- The text a reader is shown. -/
def toDisplayString : ToolResultContent V → String
  | text value => value
  | structured value => SerdeJson.print value

/-- Length in bytes; structured content is measured as printed JSON. -/
def len (content : ToolResultContent V) : Nat :=
  content.toDisplayString.utf8ByteSize

@[simp]
theorem len_text : (text value : ToolResultContent V).len = value.utf8ByteSize :=
  rfl

end ToolResultContent

/-- Provider-neutral hosted tool search action. -/
structure HostedToolSearchCall where
  id : String
  status : Option String
  query : Option String
  deriving DecidableEq

/-- Provider-neutral hosted web search actions. -/
inductive WebSearchAction
  | search (query : Option String) (queries : Option (List String))
  | openPage (url : Option String)
  | findInPage (url : Option String) (pattern : Option String)
  deriving DecidableEq

/-- Provider-neutral hosted web search call. -/
structure HostedWebSearchCall where
  id : String
  status : Option String
  action : Option WebSearchAction
  deriving DecidableEq

/-- Provider-neutral image generation result. -/
inductive ImageGenerationResult
  | image (source : ImageSource)
  | artifactRef (artifactId : String)
  deriving DecidableEq

/-- Provider-neutral image generation call. -/
structure ImageGenerationCall where
  id : String
  status : String
  revisedPrompt : Option String
  result : Option ImageGenerationResult
  deriving DecidableEq

/-- Provider-specific format carried by a provider-neutral reasoning block. -/
inductive ReasoningFormat
  | anthropicSigned
  | openAiEncrypted
  | geminiThought
  deriving DecidableEq

/-- Origin required to decide whether opaque reasoning metadata is safe to
replay. -/
structure ReasoningProvenance where
  provider : String
  model : String
  format : ReasoningFormat
  deriving DecidableEq

/-- Provider-neutral token usage metadata. -/
structure TokenUsage where
  inputTokens : Option Nat := none
  outputTokens : Option Nat := none
  totalTokens : Option Nat := none
  cacheReadInputTokens : Option Nat := none
  cacheCreationInputTokens : Option Nat := none
  reasoningTokens : Option Nat := none
  thoughtsTokens : Option Nat := none
  toolInputTokens : Option Nat := none
  deriving DecidableEq

/-- A provider-neutral content block exchanged with models. -/
inductive ContentBlock (V : Type)
  | text (text : String)
  | thinking (thinking : String) (signature encryptedContent id : Option String)
      (provenance : Option ReasoningProvenance) (redacted : Bool)
  | image (source : ImageSource)
  | toolUse (id name : String) (input : V)
  | toolResult (toolUseId : String) (content : ToolResultContent V) (isError : Bool)
  | hostedToolSearch (call : HostedToolSearchCall)
  | hostedWebSearch (call : HostedWebSearchCall)
  | imageGeneration (call : ImageGenerationCall)
  deriving DecidableEq

namespace ContentBlock

variable {V : Type}

/-- The id of a tool-use block. -/
def toolUseId? : ContentBlock V → Option String
  | toolUse id _ _ => some id
  | _ => none

/-- The id of the call a tool-result block answers. -/
def toolResultId? : ContentBlock V → Option String
  | toolResult toolUseId _ _ => some toolUseId
  | _ => none

/-- Whether the block is an image. -/
def isImage : ContentBlock V → Bool
  | image _ => true
  | _ => false

/-- The text of a text block. -/
def text? : ContentBlock V → Option String
  | text value => some value
  | _ => none

end ContentBlock

/-- Provider-neutral chat message content. -/
structure Message (V : Type) where
  role : Role
  content : List (ContentBlock V)
  deriving DecidableEq

namespace Message

variable {V : Type}

/-- A user message of one block. -/
def user (block : ContentBlock V) : Message V :=
  ⟨.user, [block]⟩

/-- An assistant message of one block. -/
def assistant (block : ContentBlock V) : Message V :=
  ⟨.assistant, [block]⟩

variable (message : Message V)

/-- The concatenated text blocks. -/
def text : String :=
  String.join (message.content.filterMap ContentBlock.text?)

/-- Ids of the message's tool-use blocks, in block order. -/
def toolUseIds : List String :=
  message.content.filterMap ContentBlock.toolUseId?

/-- Ids answered by the message's tool-result blocks, in block order. -/
def toolResultIds : List String :=
  message.content.filterMap ContentBlock.toolResultId?

end Message

end Mentra
