import Mentra.Foundation.Usize
import Mentra.Foundation.Utf8
import Mentra.Message.Core

/-!
# Tool results in a request

What a request shows of old tool results, after `mentra/src/memory/compaction.rs`: the recent
ones in full and markers for the rest, or as much as fits a byte budget.  A result of `none`
is a panic: an index out of range, an `unreachable!`, a subtraction below zero, a slice off a
character boundary, or the debug assertion.
-/

namespace Mentra

open Mentra.Foundation
open Mentra.Foundation.Usize (checkedSub checkedAdd saturatingAdd)

/-- What kind of content a tool result had before it was reduced. -/
inductive ToolResultContentKind
  | text
  | structured

/-- How a tool result was reduced. -/
inductive ToolResultElisionAction
  | preview
  | marker
  | omitted

/-- The configured policy a report repeats. -/
inductive RequestToolResultElisionPolicy
  | keepRecent (configuredKeepRecentToolResults : Nat)
  | byteBudget (configuredMaxBytes configuredPrioritizeRecentResults
      configuredMaxPreviewBytes : Nat)

/-- One tool result whose content was reduced. -/
structure ElidedToolResult where
  toolCallId : String
  toolName : Option String
  isError : Bool
  canonicalContentKind : ToolResultContentKind
  action : ToolResultElisionAction
  canonicalContentBytes : Nat
  projectedContentBytes : Nat

structure ToolResultProjectionReport where
  policy : RequestToolResultElisionPolicy
  canonicalToolResultContentBytes : Nat
  projectedToolResultContentBytes : Nat
  results : List ElidedToolResult

structure ProjectedToolResultHistory (V : Type) where
  messages : List (Message V)
  report : Option ToolResultProjectionReport

structure ProjectedToolResultBudget where
  maxBytes : Nat
  prioritizeRecentResults : Nat
  maxPreviewBytes : Nat

/-- Where a tool result sits and what is known about its call. -/
structure ToolResultLocation where
  messageIndex : Nat
  blockIndex : Nat
  toolUseId : String
  toolName : Option String
  isError : Bool

namespace Memory

def microCompactMinContentLen : Nat := 100

def omittedEllipsis : String := "…"

def previewSeparator : String := "\n…[omitted]…\n"

def previousToolMarker (toolName : Option String) : String :=
  "[Previous: used " ++ toolName.getD "tool" ++ "]"

variable {V : Type}

def contentKind : ToolResultContent V → ToolResultContentKind
  | .text _ => .text
  | .structured _ => .structured

variable (history : List (Message V))

/-- The tool calls of a history, as pairs of id and tool name. -/
def toolNameIndex : List (String × String) :=
  history.flatMap fun message => message.content.filterMap fun block =>
    match block with
    | .toolUse id name _ => some (id, name)
    | _ => none

/-- The name recorded for a call; a later call with the same id wins. -/
def toolName (id : String) : Option String :=
  ((toolNameIndex history).reverse.find? fun entry => entry.1 = id).map Prod.snd

/-- `tool_result_locations`, in history order. -/
def toolResultLocations : List ToolResultLocation :=
  history.zipIdx.flatMap fun (message, messageIndex) =>
    message.content.zipIdx.filterMap fun (block, blockIndex) =>
      match block with
      | .toolResult toolUseId _ isError =>
        some ⟨messageIndex, blockIndex, toolUseId, toolName history toolUseId, isError⟩
      | _ => none

/-- The content of a tool-result block. -/
def resultContent : ContentBlock V → Option (ToolResultContent V)
  | .toolResult _ content _ => some content
  | _ => none

variable (messages : List (Message V)) (location : ToolResultLocation)

/-- The content at a location. -/
def projectedContent :
    Option (ToolResultContent V) := do
  let message ← messages[location.messageIndex]?
  let block ← message.content[location.blockIndex]?
  resultContent block

def canonicalContent : Option (ToolResultContent V) :=
  projectedContent messages location

/-- Replace the content at a location. -/
def setProjectedContent (projected : ToolResultContent V) : Option (List (Message V)) := do
  let message ← messages[location.messageIndex]?
  match message.content[location.blockIndex]? with
  | some (.toolResult toolUseId _ isError) =>
    some (messages.set location.messageIndex
      { message with
        content :=
          message.content.set location.blockIndex (.toolResult toolUseId projected isError) })
  | _ => none

section Sizes

variable [SerdeJson V]

/-- The size a block adds to the total. -/
def blockContentBytes : ContentBlock V → Nat
  | .toolResult _ content _ => content.len
  | _ => 0

variable (history : List (Message V))

/-- `tool_result_content_bytes`, a saturating total. -/
def toolResultContentBytes : Nat :=
  history.foldl (fun total message =>
    message.content.foldl (fun total block => saturatingAdd total (blockContentBytes block))
      total) 0

/-! ## Keeping recent results -/

/-- One pass of the marking loop: content longer than the minimum becomes a
marker. -/
def markPrevious (state : List (Message V) × List ElidedToolResult) (location : Nat × Nat) :
    Option (List (Message V) × List ElidedToolResult) := do
  let (messages, elided) := state
  let (messageIndex, blockIndex) := location
  let message ← messages[messageIndex]?
  match message.content[blockIndex]? with
  | some (.toolResult toolUseId content isError) =>
    if content.len ≤ microCompactMinContentLen then pure state
    else
      let name := toolName history toolUseId
      let projected : ToolResultContent V := .text (previousToolMarker name)
      let marked :=
        message.content.set blockIndex (.toolResult toolUseId projected isError)
      pure (messages.set messageIndex { message with content := marked },
        elided ++ [{
          toolCallId := toolUseId
          toolName := name
          isError
          canonicalContentKind := contentKind content
          action := .marker
          canonicalContentBytes := content.len
          projectedContentBytes := projected.len }])
  | _ => pure state

/-- The positions of the tool results in user messages. -/
def userToolResults : List (Nat × Nat) :=
  history.zipIdx.flatMap fun (message, messageIndex) =>
    if message.role = .user then
      message.content.zipIdx.filterMap fun (block, blockIndex) =>
        match block with
        | .toolResult .. => some (messageIndex, blockIndex)
        | _ => none
    else []

/-- `micro_compact_history`: all but the most recent results become markers. -/
def microCompactHistory (keepRecent : Nat) : Option (ProjectedToolResultHistory V) :=
  if keepRecent = Usize.max then some ⟨history, none⟩
  else
    let toolResults := userToolResults history
    if toolResults.length ≤ keepRecent then some ⟨history, none⟩
    else do
      let compactCount ← checkedSub toolResults.length keepRecent
      let (compacted, elided) ←
        (toolResults.take compactCount).foldlM (markPrevious history) (history, [])
      pure
        { messages := compacted
          report :=
            if elided.isEmpty then none
            else some
              { policy := .keepRecent keepRecent
                canonicalToolResultContentBytes := toolResultContentBytes history
                projectedToolResultContentBytes := toolResultContentBytes compacted
                results := elided } }

/-! ## A byte budget -/

/-- The second half of `text_preview`: head and tail of the text around a separator, within a
limit with room for it. -/
def headAndTail (canonical : String) (currentLen previewLimit : Nat) :
    Option (Option String) := do
  let sourceBytes ← checkedSub previewLimit previewSeparator.utf8ByteSize
  let headBudget := (sourceBytes + 1) / 2
  let tailBudget := sourceBytes / 2
  let headEnd := Utf8.floorBoundary canonical (min headBudget canonical.utf8ByteSize)
  let tailStart := Utf8.ceilBoundary canonical (canonical.utf8ByteSize - tailBudget)
  if headEnd = 0 ∨ tailStart = canonical.utf8ByteSize ∨ tailStart ≤ headEnd then pure none
  else
    let middle ← Utf8.slice canonical headEnd tailStart
    if middle.toList.isEmpty then pure none
    else
      let head ← Utf8.sliceTo canonical headEnd
      let tail ← Utf8.sliceFrom canonical tailStart
      let preview := head ++ previewSeparator ++ tail
      pure <|
        if currentLen < preview.utf8ByteSize ∧ preview.utf8ByteSize ≤ previewLimit ∧
            preview.utf8ByteSize < canonical.utf8ByteSize then some preview
        else none

def textPreview (canonical : String) (currentLen allowance maxPreviewBytes : Nat) :
    Option (Option String) :=
  match checkedSub canonical.utf8ByteSize 1 with
  | none => some none
  | some canonicalLimit =>
    let previewLimit := min (min maxPreviewBytes allowance) canonicalLimit
    if previewLimit ≤ currentLen ∨ previewLimit ≤ previewSeparator.utf8ByteSize then some none
    else headAndTail canonical currentLen previewLimit

/-- The working state of the budget loops. -/
structure Projection (V : Type) where
  messages : List (Message V)
  actions : List (Option ToolResultElisionAction)
  remaining : Nat

/-- The first loop's content for a result: its own or a marker, whichever is shorter, and less
when that does not fit. -/
def floorContent (canonical : ToolResultContent V) (marker : String) (remaining : Nat) :
    ToolResultContent V × Option ToolResultElisionAction :=
  let (content, action) :=
    if canonical.len ≤ marker.utf8ByteSize then (canonical, none)
    else (.text marker, some .marker)
  if content.len ≤ remaining then (content, action)
  else if omittedEllipsis.utf8ByteSize ≤ remaining then (.text omittedEllipsis, some .omitted)
  else (.text "", some .omitted)

variable (locations : List ToolResultLocation)

/-- The body of the first loop. -/
def establishFloor (state : Projection V) (index : Nat) : Option (Projection V) := do
  let location ← locations[index]?
  let canonical ← canonicalContent history location
  let (content, action) :=
    floorContent canonical (previousToolMarker location.toolName) state.remaining
  let remaining ← checkedSub state.remaining content.len
  let messages ← setProjectedContent state.messages location content
  pure ⟨messages, state.actions.set index action, remaining⟩

def tryRestoreFull (state : Projection V) (index : Nat) : Option (Projection V) := do
  let location ← locations[index]?
  let action ← state.actions[index]?
  if action.isNone then pure state
  else
    let canonical ← canonicalContent history location
    let current ← projectedContent state.messages location
    match checkedSub canonical.len current.len with
    | none => pure state
    | some delta =>
      if state.remaining < delta then pure state
      else
        let messages ← setProjectedContent state.messages location canonical
        let remaining ← checkedSub state.remaining delta
        pure ⟨messages, state.actions.set index none, remaining⟩

def tryUpgradePreview
    (maxPreviewBytes : Nat) (state : Projection V) (index : Nat) : Option (Projection V) := do
  let location ← locations[index]?
  let action ← state.actions[index]?
  if action.isNone then pure state
  else
    match ← canonicalContent history location with
    | .structured _ => pure state
    | .text canonical =>
      let current ← projectedContent state.messages location
      match checkedAdd current.len state.remaining with
      | none => pure state
      | some allowance =>
        match ← textPreview canonical current.len allowance maxPreviewBytes with
        | none => pure state
        | some preview =>
          let delta ← checkedSub preview.utf8ByteSize current.len
          let messages ← setProjectedContent state.messages location (.text preview)
          let remaining ← checkedSub state.remaining delta
          pure ⟨messages, state.actions.set index (some .preview), remaining⟩

/-- The report's entry for a location, if its content was reduced. -/
def elidedResult (projected : List (Message V)) (location : ToolResultLocation)
    (action : Option ToolResultElisionAction) : Option (Option ElidedToolResult) :=
  match action with
  | none => some none
  | some action => do
      let canonical ← canonicalContent history location
      let current ← projectedContent projected location
      pure <| some
        { toolCallId := location.toolUseId
          toolName := location.toolName
          isError := location.isError
          canonicalContentKind := contentKind canonical
          action
          canonicalContentBytes := canonical.len
          projectedContentBytes := current.len }

/-- The four loops, each over indices from the newest result to the oldest. -/
def project (budget : ProjectedToolResultBudget) : Option (Projection V) := do
  let recentStart := locations.length - budget.prioritizeRecentResults
  let state ← (List.range locations.length).reverse.foldlM (establishFloor history locations)
    ⟨history, List.replicate locations.length none, budget.maxBytes⟩
  let state ← (List.range' recentStart (locations.length - recentStart)).reverse.foldlM
    (tryRestoreFull history locations) state
  let state ← (List.range locations.length).reverse.foldlM
    (tryUpgradePreview history locations budget.maxPreviewBytes) state
  (List.range recentStart).reverse.foldlM (tryRestoreFull history locations) state

def budgetToolResultHistory (budget : ProjectedToolResultBudget) :
    Option (ProjectedToolResultHistory V) := do
  let locations := toolResultLocations history
  let canonicalBytes ← locations.foldlM (fun total location =>
    (canonicalContent history location).map fun canonical =>
      saturatingAdd total canonical.len) 0
  if canonicalBytes ≤ budget.maxBytes then pure ⟨history, none⟩
  else
    let state ← project history locations budget
    let projectedBytes := toolResultContentBytes state.messages
    if projectedBytes ≤ budget.maxBytes then
      let results ← (locations.zip state.actions).mapM fun (location, action) =>
        elidedResult history state.messages location action
      pure
        { messages := state.messages
          report := some
            { policy := .byteBudget budget.maxBytes budget.prioritizeRecentResults
                budget.maxPreviewBytes
              canonicalToolResultContentBytes := canonicalBytes
              projectedToolResultContentBytes := projectedBytes
              results := results.reduceOption } }
    else none

/-- `project_tool_result_history`: the policy a request is built with. -/
def projectToolResultHistory (keepRecent : Nat)
    (budget : Option ProjectedToolResultBudget) : Option (ProjectedToolResultHistory V) :=
  match budget with
  | some budget => budgetToolResultHistory history budget
  | none => microCompactHistory history keepRecent

end Sizes

end Memory

end Mentra
