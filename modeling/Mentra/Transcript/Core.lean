import Mentra.Foundation.Text
import Mentra.Message.Core

/-!
# The transcript

Entries, kinds and the branching transcript of `mentra/src/transcript.rs`.  The source draws a
new entry id from the clock and a process-wide counter; here the constructors take the id as an
argument, so that freshness is a hypothesis of the results that need it.
-/

namespace Mentra

open Mentra.Foundation

/-- Identifier for one transcript entry. -/
structure EntryId where
  value : String
  deriving DecidableEq

/-- Why a branch operation could not be performed. -/
inductive BranchError
  | unknownEntry (id : EntryId)
  | brokenChain (entry missing : EntryId)
  deriving DecidableEq

/-- Who stands at the other end of a delegation. -/
inductive DelegationKind
  | subagent
  | teammate
  | parent
  | child
  deriving DecidableEq

/-- How far a delegation got. -/
inductive DelegationStatus
  | requested
  | finished
  | failed
  deriving DecidableEq

/-- The two agents a delegation connects. -/
structure DelegationEdge where
  kind : DelegationKind
  localAgentId : String
  remoteAgentId : String
  deriving DecidableEq

/-- What a delegation entry records besides its message. -/
structure DelegationArtifact where
  kind : DelegationKind
  agentId : String
  agentName : String
  role : Option String
  status : DelegationStatus
  taskSummary : String
  resultSummary : Option String
  artifacts : List String
  deriving DecidableEq

/-- The structured record a compaction leaves in place of what it replaced. -/
structure CompactionSummary where
  goal : String := ""
  progress : String := ""
  decisions : List String := []
  constraints : List String := []
  delegatedWork : List String := []
  artifacts : List String := []
  openQuestions : List String := []
  nextSteps : List String := []
  filesTouched : List String := []
  deriving DecidableEq

namespace CompactionSummary

/-- Text shown for a possibly blank field. -/
def fallbackText (text : String) : String :=
  if Text.trim text = "" then "(none)" else text

/-- One labelled section of the rendered summary, absent when it has no items. -/
def appendList (label : String) (items : List String) : List String :=
  if items = [] then [] else (label ++ ":") :: items.map ("- " ++ ·)

/-- The text the model reads in place of the replaced entries. -/
def renderForHandoff (summary : CompactionSummary) : String :=
  String.intercalate "\n" <|
    ["[Compaction summary]", "Goal: " ++ fallbackText summary.goal,
      "Progress: " ++ fallbackText summary.progress] ++
    appendList "Decisions" summary.decisions ++
    appendList "Constraints" summary.constraints ++
    appendList "Delegated work" summary.delegatedWork ++
    appendList "Artifacts" summary.artifacts ++
    appendList "Open questions" summary.openQuestions ++
    appendList "Next steps" summary.nextSteps ++
    appendList "Files touched" summary.filesTouched

/-- The summary used when the summarizer's answer is not JSON. -/
def fromFallbackText (text : String) : CompactionSummary :=
  { progress := text
    nextSteps := ["Review the preserved transcript tail and continue from there."] }

end CompactionSummary

/-- What an entry is. -/
inductive TranscriptKind
  | userTurn
  | assistantTurn
  | toolExchange (toolUseId : Option String) (isError : Bool)
  | canonicalContext
  | memoryRecall
  | delegationRequest (delegation : DelegationArtifact) (edge : Option DelegationEdge)
  | delegationResult (delegation : DelegationArtifact) (edge : Option DelegationEdge)
  | compactionSummary (summary : CompactionSummary)
  deriving DecidableEq

namespace TranscriptKind

/-- `matches!(kind, TranscriptKind::ToolExchange { .. })`. -/
def isToolExchange : TranscriptKind → Bool
  | toolExchange _ _ => true
  | _ => false

/-- `matches!(kind, TranscriptKind::AssistantTurn)`. -/
def isAssistantTurn : TranscriptKind → Bool
  | assistantTurn => true
  | _ => false

end TranscriptKind

/-- One transcript entry.  `details` is the source's `BTreeMap` of host
metadata as an association list. -/
structure TranscriptItem (V : Type) where
  id : EntryId
  parentId : Option EntryId
  kind : TranscriptKind
  message : Option (Message V)
  details : Option (List (String × V))
  deriving DecidableEq

namespace TranscriptItem

variable {V : Type}

/-- An entry before it is appended: no parent and no details. -/
def make (id : EntryId) (kind : TranscriptKind) (message : Message V) : TranscriptItem V :=
  ⟨id, none, kind, some message, none⟩

def userTurn (id : EntryId) (message : Message V) : TranscriptItem V :=
  make id .userTurn message

def assistantTurn (id : EntryId) (message : Message V) : TranscriptItem V :=
  make id .assistantTurn message

def toolExchange (id : EntryId) (message : Message V) (toolUseId : Option String)
    (isError : Bool) : TranscriptItem V :=
  make id (.toolExchange toolUseId isError) message

def canonicalContext (id : EntryId) (message : Message V) : TranscriptItem V :=
  make id .canonicalContext message

def delegationRequest (id : EntryId) (message : Message V) (delegation : DelegationArtifact)
    (edge : Option DelegationEdge) : TranscriptItem V :=
  make id (.delegationRequest delegation edge) message

def delegationResult (id : EntryId) (message : Message V) (delegation : DelegationArtifact)
    (edge : Option DelegationEdge) : TranscriptItem V :=
  make id (.delegationResult delegation edge) message

def compactionSummary (id : EntryId) (summary : CompactionSummary) : TranscriptItem V :=
  make id (.compactionSummary summary) (Message.user (.text summary.renderForHandoff))

variable (item : TranscriptItem V)

/-- Attaches per-call metadata; an empty map attaches nothing. -/
def withDetails (details : List (String × V)) : TranscriptItem V :=
  if details = [] then item else { item with details := some details }

/-- The message the model sees for this entry. -/
def projectMessage : Option (Message V) :=
  item.message

def isRealUserTurn : Bool :=
  match item.kind with
  | .userTurn => true
  | _ => false

def isDelegationResult : Bool :=
  match item.kind with
  | .delegationResult _ _ => true
  | _ => false

def text (item : TranscriptItem V) : String :=
  (item.message.map Message.text).getD ""

/-- A user message opening with a tool result is a tool exchange, any other non-assistant
message a user turn. -/
def ofMessage (id : EntryId) (message : Message V) : TranscriptItem V :=
  match message.role with
  | .assistant => assistantTurn id message
  | .user =>
    match message.content with
    | .toolResult toolUseId _ isError :: _ => toolExchange id message (some toolUseId) isError
    | _ => userTurn id message
  | .unknown _ => userTurn id message

variable (id : EntryId)

variable (message : Message V)

@[simp]
theorem ofMessage_id : (ofMessage id message).id = id := by
  unfold ofMessage
  split
  · rfl
  · split <;> rfl
  · rfl

@[simp]
theorem ofMessage_message : (ofMessage id message).message = some message := by
  unfold ofMessage
  split
  · rfl
  · split <;> rfl
  · rfl

@[simp]
theorem ofMessage_isDelegationResult : (ofMessage id message).isDelegationResult = false := by
  unfold ofMessage
  split
  · rfl
  · split <;> rfl
  · rfl

end TranscriptItem

/-- An agent's conversation: the active path, root to leaf, and the entries
left behind by branching. -/
structure AgentTranscript (V : Type) where
  items : List (TranscriptItem V) := []
  archive : List (TranscriptItem V) := []
  deriving DecidableEq

/-- The two ways a branch operation ends without a result: an error value, or
the `expect` inside the path rebuild. -/
inductive BranchFault
  | error (error : BranchError)
  | expectFailed

namespace AgentTranscript

variable {V : Type}

variable (transcript : AgentTranscript V)

/-- Every entry of the tree, the active path first. -/
def entries : List (TranscriptItem V) :=
  transcript.items ++ transcript.archive

/-- Ids over active path and archive. -/
def ids : List EntryId :=
  transcript.entries.map TranscriptItem.id

/-- Fill in the missing parent links the active path implies; the first entry is left as it is. -/
def linkFrom : Option EntryId → List (TranscriptItem V) → List (TranscriptItem V)
  | _, [] => []
  | previous, item :: rest =>
    let linked := if item.parentId = none then { item with parentId := previous } else item
    linked :: linkFrom (some item.id) rest

def linkActivePath : AgentTranscript V :=
  { transcript with items := linkFrom none transcript.items }

def new (items : List (TranscriptItem V)) : AgentTranscript V :=
  linkActivePath ⟨items, []⟩

def fromParts (items archive : List (TranscriptItem V)) : AgentTranscript V :=
  linkActivePath ⟨items, archive⟩

/-- The entry the next append will hang from. -/
def leaf : Option EntryId :=
  transcript.items.getLast?.map TranscriptItem.id

variable (id : EntryId)

/-- Look up an entry anywhere in the tree. -/
def entry : Option (TranscriptItem V) :=
  transcript.entries.find? fun item => item.id = id

variable (item : TranscriptItem V)

/-- Append an entry as a child of the current leaf. -/
def push : AgentTranscript V :=
  { transcript with items := transcript.items ++ [{ item with parentId := transcript.leaf }] }

/-- The loop of `path_to`.  Consing towards the root is the source's `push` followed by
`reverse`.  `room` counts the entries until the cycle guard fires. -/
def pathLoop (transcript : AgentTranscript V) (target : EntryId) :
    Nat → Option EntryId → List EntryId → Except BranchError (List EntryId)
  | _, none, path => .ok path
  | room, some current, path =>
    match transcript.entry current with
    | none => .error (.brokenChain target current)
    | some item =>
      match room with
      | 0 => .error (.brokenChain target target)
      | room + 1 => pathLoop transcript target room item.parentId (current :: path)

/-- The ids from the root down to `id`, inclusive. -/
def pathTo : Except BranchError (List EntryId) :=
  pathLoop transcript id (transcript.items.length + transcript.archive.length) (some id) []

/-- Remove an entry from whichever list holds it. -/
def takeAnywhere : Option (TranscriptItem V × AgentTranscript V) :=
  match transcript.items.find? fun item => item.id = id with
  | some item =>
    some (item, { transcript with items := transcript.items.eraseP fun item => item.id = id })
  | none =>
    match transcript.archive.find? fun item => item.id = id with
    | some item =>
      some (item, { transcript with archive := transcript.archive.eraseP fun item => item.id = id })
    | none => none

/-- Take the entries of a path out of the tree, in path order. -/
def takePath : List EntryId → AgentTranscript V →
    Option (List (TranscriptItem V) × AgentTranscript V)
  | [], transcript => some ([], transcript)
  | id :: path, transcript => do
      let (item, transcript) ← transcript.takeAnywhere id
      let (restored, transcript) ← takePath path transcript
      pure (item :: restored, transcript)

/-- Move the leaf to `id`.  Returns how many entries left the active path,
with the transcript afterwards. -/
def branchFrom : Except BranchFault (Nat × AgentTranscript V) :=
  match transcript.items.findIdx? fun item => item.id = id with
  | some position =>
    let abandoned := transcript.items.drop (position + 1)
    .ok (abandoned.length,
      { items := transcript.items.take (position + 1)
        archive := transcript.archive ++ abandoned })
  | none =>
    if transcript.archive.any fun item => item.id = id then
      match transcript.pathTo id with
      | .error error => .error (.error error)
      | .ok path =>
        match takePath path transcript with
        | none => .error .expectFailed
        | some (restored, rest) =>
          .ok (rest.items.length, { items := restored, archive := rest.archive ++ rest.items })
    else
      .error (.error (.unknownEntry id))

/-- The active path as the model sees it. -/
def toMessages : List (Message V) :=
  transcript.items.filterMap TranscriptItem.projectMessage

theorem toMessages_push :
    (transcript.push item).toMessages = transcript.toMessages ++ item.message.toList := by
  cases h : item.message <;>
    simp [toMessages, push, TranscriptItem.projectMessage, h]

end AgentTranscript

end Mentra
