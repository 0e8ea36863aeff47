import Mentra.Foundation.Lists
import Mentra.Foundation.Outcome
import Mentra.Runtime.Error
import Mentra.Transcript.Tree

/-!
# Transcript compaction

The default engine of `mentra/src/compaction.rs`: everything before a protected tail is
summarized, and recent user turns and delegation results are copied out of it.

`CompactionEnv` is what the engine gets from outside: the run bounds, the snapshot file, the
provider's two ways of summarizing, the regular expressions, and the floating-point token
estimate, an arbitrary function of the text.
-/

namespace Mentra

open Mentra.Foundation
open Mentra.Foundation.Outcome (bind_eq_ok_iff)

/-- Which side summarizes. -/
inductive CompactionMode
  | localOnly
  | preferRemote
  | remoteOnly

/-- Which side did summarize. -/
inductive CompactionExecutionMode
  | «local»
  | remote

/-- The items a provider's own compaction exchanges. -/
inductive CompactionInputItem
  | userTurn (content : String)
  | assistantTurn (content : String)
  | toolExchange (request : Option String) (result : String) (isError : Bool)
  | canonicalContext (content : String)
  | memoryRecall (content : String)
  | delegationResult (agentId agentName : String) (role : Option String) (status content : String)
  | compactionSummary (content : String)

/-- One provider pass before its output and optional usage are separated. -/
structure CompactionPass (α : Type) where
  output : α
  usage : Option TokenUsage

/-- What a compaction obtains from outside the transcript. -/
structure CompactionEnv (V : Type) where
  /-- `approx_token_count`, an estimate computed in floating point. -/
  approxTokenCount : String → Nat
  /-- The paths the file expression captures in a text, in order. -/
  fileCaptures : String → List String
  /-- Whether the verification expression matches a line. -/
  isVerification : String → Bool
  /-- Whether the permission expression matches a line. -/
  isPermission : String → Bool
  /-- The run bounds at the moment they are checked. -/
  boundsCheck : Except RuntimeError Unit
  /-- Writing the snapshot of the whole active path; the path of the file. -/
  persistTranscript : List (TranscriptItem V) → Except RuntimeError String
  supportsHistoryCompaction : Bool
  /-- The provider's answer to the summarization prompt over these items. -/
  send : List (TranscriptItem V) → Except RuntimeError (List (ContentBlock V) × Option TokenUsage)
  /-- The provider's own compaction of these items. -/
  compact : List CompactionInputItem →
    Except RuntimeError (List CompactionInputItem × Option TokenUsage)
  /-- Reading a summary out of its JSON text. -/
  parseSummary : String → Option CompactionSummary
  /-- The id drawn for the summary entry. -/
  summaryId : EntryId

/-- The parts of a compaction request the engine's logic reads. -/
structure CompactionRequest (V : Type) where
  transcript : AgentTranscript V
  preserveRecentUserTokens : Nat
  preserveRecentDelegationResults : Nat
  mode : CompactionMode

/-- Context mechanically extracted from transcript items. -/
structure ExtractedContext where
  filesTouched : List String
  verificationOutcomes : List String
  permissionDecisions : List String

/-- Diagnostics captured during a compaction. -/
structure CompactionDiagnostics where
  itemsBefore : Nat
  itemsAfter : Nat
  approxTokensBefore : Nat
  approxTokensAfter : Nat
  preservedUserTurns : Nat
  preservedDelegationResults : Nat
  extractedFactsCount : Nat
  summaryPreview : String

/-- The replacement transcript with counts of how it was built. -/
structure CompactionOutcome (V : Type) where
  mode : CompactionExecutionMode
  transcriptPath : String
  transcript : AgentTranscript V
  summary : CompactionSummary
  providerUsage : List TokenUsage
  replacedItems : Nat
  preservedItems : Nat
  preservedUserTurns : Nat
  preservedDelegationResults : Nat
  diagnostics : CompactionDiagnostics

namespace Compaction

variable {V : Type}

/-! ## Splitting the active path -/

variable (items : List (TranscriptItem V))

/-- The start of the tail: an assistant turn directly followed by a final tool exchange,
otherwise the last entry. -/
def requiredTailStartForContinuation : Nat :=
  match items.reverse with
  | last :: beforeLast :: _ =>
    if last.kind.isToolExchange && beforeLast.kind.isAssistantTurn then items.length - 2
    else items.length - 1
  | _ => items.length - 1

def endsInToolExchange : Bool :=
  match items.getLast? with
  | some last => last.kind.isToolExchange
  | none => false

/-- Whether the protected tail is the whole path and pinned by a tool exchange,
so that the path is summarized as a unit. -/
def splitTurn : Bool :=
  requiredTailStartForContinuation items == 0 && endsInToolExchange items

/-- Where the preserved tail starts. -/
def tailStart : Nat :=
  if splitTurn items then items.length else requiredTailStartForContinuation items

/-- The entries the summary stands for. -/
def compactedItems : List (TranscriptItem V) :=
  items.take (tailStart items)

/-- A path that is summarized as a unit: one tool exchange, or an assistant
turn and the tool exchange after it. -/
def SummarizedWhole : List (TranscriptItem V) → Prop
  | [exchange] => exchange.kind.isToolExchange
  | [assistant, exchange] => assistant.kind.isAssistantTurn ∧ exchange.kind.isToolExchange
  | _ => False

/-- The ways an active path is cut into a summarized part and a tail. -/
inductive Cut : List (TranscriptItem V) → List (TranscriptItem V) → List (TranscriptItem V) → Prop
  | whole (items : List (TranscriptItem V)) (unit : SummarizedWhole items) : Cut items items []
  | exchange (older : List (TranscriptItem V)) (assistant exchange : TranscriptItem V)
      (nonempty : older ≠ []) (calls : assistant.kind.isAssistantTurn)
      (answers : exchange.kind.isToolExchange) :
      Cut (older ++ [assistant, exchange]) older [assistant, exchange]
  | last (older : List (TranscriptItem V)) (before last : TranscriptItem V)
      (apart : ¬ (last.kind.isToolExchange ∧ before.kind.isAssistantTurn)) :
      Cut (older ++ [before, last]) (older ++ [before]) [last]

@[simp]
theorem requiredTailStart_concat (older : List (TranscriptItem V))
    (before last : TranscriptItem V) :
    requiredTailStartForContinuation (older ++ [before, last]) =
      if last.kind.isToolExchange && before.kind.isAssistantTurn then older.length
      else older.length + 1 := by
  simp [requiredTailStartForContinuation]

/-- When something is summarized, the path is cut in one of the three ways. -/
theorem cut_of_compactedItems {items : List (TranscriptItem V)}
    (nonempty : compactedItems items ≠ []) :
    Cut items (compactedItems items) (items.drop (tailStart items)) := by
  rcases Lists.eq_nil_or_singleton_or_concat₂ items with
    rfl | ⟨item, rfl⟩ | ⟨older, before, last, rfl⟩
  · exact absurd rfl nonempty
  · cases exchange : item.kind.isToolExchange with
    | false =>
      simp [compactedItems, tailStart, splitTurn, endsInToolExchange, exchange,
        requiredTailStartForContinuation] at nonempty
    | true =>
      have cut := Cut.whole [item] exchange
      simpa [compactedItems, tailStart, splitTurn, endsInToolExchange, exchange,
        requiredTailStartForContinuation] using cut
  · by_cases together : last.kind.isToolExchange ∧ before.kind.isAssistantTurn
    · obtain ⟨answers, calls⟩ := together
      cases older with
      | nil =>
        have cut := Cut.whole [before, last] ⟨calls, answers⟩
        simpa [compactedItems, tailStart, splitTurn, endsInToolExchange, answers, calls,
          requiredTailStartForContinuation] using cut
      | cons first rest =>
        have cut := Cut.exchange (first :: rest) before last (by simp) calls answers
        have start : tailStart (first :: rest ++ [before, last]) = (first :: rest).length := by
          rw [tailStart, splitTurn, requiredTailStart_concat]
          simp [answers, calls]
        rw [compactedItems, start, List.take_left, List.drop_left]
        exact cut
    · have cut := Cut.last older before last together
      have start : tailStart (older ++ [before, last]) = (older ++ [before]).length := by
        rw [tailStart, splitTurn, requiredTailStart_concat]
        simp [together]
      have regroup : older ++ [before, last] = (older ++ [before]) ++ [last] := by simp
      rw [compactedItems, start]
      rw [regroup, List.take_left, List.drop_left, ← regroup]
      exact cut

/-! ## Salvage -/

/-- The loop of `select_recent_user_turns`, newest entry first.  Consing is the
source's `push` followed by `reverse`. -/
def selectUserTurnsLoop (tokens : String → Nat) : List (TranscriptItem V) → Nat →
    List (TranscriptItem V) → List (TranscriptItem V)
  | [], _, selected => selected
  | item :: older, remaining, selected =>
    if item.isRealUserTurn then
      if remaining < tokens item.text && !selected.isEmpty then selected
      else
        let remaining := remaining - tokens item.text
        if remaining = 0 then item :: selected
        else selectUserTurnsLoop tokens older remaining (item :: selected)
    else selectUserTurnsLoop tokens older remaining selected

def selectRecentUserTurns (tokens : String → Nat) (items : List (TranscriptItem V))
    (tokenBudget : Nat) : List (TranscriptItem V) :=
  selectUserTurnsLoop tokens items.reverse tokenBudget []

def selectRecentDelegationResults (maxItems : Nat) : List (TranscriptItem V) :=
  ((items.filter TranscriptItem.isDelegationResult).reverse.take maxItems).reverse

/-! ## Extracted facts -/

/-- Append the paths not yet listed. -/
def addUnseen (seen fresh : List String) : List String :=
  fresh.foldl (fun files path => if path ∈ files then files else files ++ [path]) seen

/-- The non-blank trimmed lines of a text that satisfy a test. -/
def matchingLines (isMatch : String → Bool) (text : String) : List String :=
  ((Text.lines text).filter isMatch).map Text.trim |>.filter (· ≠ "")

/-- `extract_context`: files are only read off tool exchanges. -/
def extractContext (env : CompactionEnv V) (items : List (TranscriptItem V)) :
    ExtractedContext where
  filesTouched := items.foldl (fun files item =>
    if item.kind.isToolExchange then addUnseen files (env.fileCaptures item.text) else files) []
  verificationOutcomes := items.flatMap fun item => matchingLines env.isVerification item.text
  permissionDecisions := items.flatMap fun item => matchingLines env.isPermission item.text

/-- The file list recorded by the newest compaction already in the items. -/
def carriedFiles : List String :=
  (items.reverse.findSome? fun item =>
    match item.kind with
    | .compactionSummary summary => some summary.filesTouched
    | _ => none).getD []

def accumulateFiles (carried fresh : List String) : List String :=
  addUnseen carried fresh

/-! ## Summaries -/

/-- Thinking blocks are kept out of the text sent for summarization. -/
def itemsWithoutThinking : List (TranscriptItem V) :=
  items.map fun item =>
    { item with
      message := item.message.map fun message =>
        { message with
          content := message.content.filter fun block =>
            match block with
            | .thinking .. => false
            | _ => true } }

variable (env : CompactionEnv V)

/-- One local summarization: blank text gives the default summary, text that is
not JSON the fallback one. -/
def summarizeLocally (items : List (TranscriptItem V)) :
    Except RuntimeError (CompactionPass CompactionSummary) := do
  let (content, usage) ← env.send (itemsWithoutThinking items)
  let text := Text.trim (String.intercalate "\n" (content.filterMap ContentBlock.text?))
  let output :=
    if text = "" then {}
    else (env.parseSummary text).getD (CompactionSummary.fromFallbackText text)
  pure ⟨output, usage⟩

def delegationStatusLabel : DelegationStatus → String
  | .requested => "requested"
  | .finished => "finished"
  | .failed => "failed"

def projectCompactionItem (item : TranscriptItem V) : CompactionInputItem :=
  match item.kind with
  | .userTurn => .userTurn item.text
  | .assistantTurn => .assistantTurn item.text
  | .toolExchange _ isError => .toolExchange none item.text isError
  | .canonicalContext => .canonicalContext item.text
  | .memoryRecall => .memoryRecall item.text
  | .delegationRequest delegation _ | .delegationResult delegation _ =>
    .delegationResult delegation.agentId delegation.agentName delegation.role
      (delegationStatusLabel delegation.status) item.text
  | .compactionSummary summary => .compactionSummary summary.renderForHandoff

/-- The newest summary in a provider's compaction output. -/
def parseRemoteSummary (output : List CompactionInputItem) : Option CompactionSummary :=
  output.reverse.findSome? fun item =>
    match item with
    | .compactionSummary content =>
      some ((env.parseSummary content).getD (CompactionSummary.fromFallbackText content))
    | _ => none

def compactRemotely (items : List (TranscriptItem V)) :
    Except RuntimeError (CompactionPass (Option CompactionSummary)) := do
  let (output, usage) ← env.compact (items.map projectCompactionItem)
  pure ⟨parseRemoteSummary env output, usage⟩

/-- What the mode dispatch yields: who summarized, the summary, and the usage
samples in call order. -/
abbrev Summarized := CompactionExecutionMode × CompactionSummary × List TokenUsage

/-- A local summary after the usage samples already reported. -/
def localSummary (items : List (TranscriptItem V))
    (usage : List TokenUsage) : Except RuntimeError Summarized := do
  let pass ← summarizeLocally env items
  pure (.local, pass.output, usage ++ pass.usage.toList)

/-- The mode dispatch of `compact`. -/
def summarize (mode : CompactionMode)
    (items : List (TranscriptItem V)) : Except RuntimeError Summarized :=
  match mode with
  | .localOnly => localSummary env items []
  | .preferRemote =>
    if env.supportsHistoryCompaction then
      match compactRemotely env items with
      | .ok pass =>
        match pass.output with
        | some summary => .ok (.remote, summary, pass.usage.toList)
        | none => localSummary env items pass.usage.toList
      | .error (.failedToCompactHistory (.unsupportedCapability _)) => localSummary env items []
      | .error error => .error error
    else localSummary env items []
  | .remoteOnly =>
    if env.supportsHistoryCompaction then do
      let pass ← compactRemotely env items
      match pass.output with
      | some summary => pure (.remote, summary, pass.usage.toList)
      | none =>
        throw (.failedToCompactHistory (.unsupportedCapability "history_compaction"))
    else throw (.failedToCompactHistory (.unsupportedCapability "history_compaction"))

/-! ## The engine -/

def approxTokenCountItems (items : List (TranscriptItem V)) : Nat :=
  (items.map fun item => env.approxTokenCount item.text).sum

section Engine

variable [DecidableEq V]

/-- Append the delegation results not already copied. -/
def addDelegationResults (replacement results : List (TranscriptItem V)) :
    List (TranscriptItem V) :=
  results.foldl (fun items item => if item ∈ items then items else items ++ [item]) replacement

variable (env : CompactionEnv V) (request : CompactionRequest V)

/-- The salvaged entries in front of the summary. -/
def salvaged : List (TranscriptItem V) :=
  let compacted := compactedItems request.transcript.items
  addDelegationResults
    (selectRecentUserTurns env.approxTokenCount compacted request.preserveRecentUserTokens)
    (selectRecentDelegationResults compacted request.preserveRecentDelegationResults)

/-- The entries of the replacement transcript before they are linked. -/
def replacement (summary : CompactionSummary) : List (TranscriptItem V) :=
  salvaged env request ++ [TranscriptItem.compactionSummary env.summaryId summary] ++
    request.transcript.items.drop (tailStart request.transcript.items)

def compact : Except RuntimeError (Option (CompactionOutcome V)) :=
  let items := request.transcript.items
  let compacted := compactedItems items
  if compacted.isEmpty then .ok none
  else do
    env.boundsCheck
    let transcriptPath ← env.persistTranscript items
    let (mode, summary, providerUsage) ← summarize env request.mode compacted
    let userTurns :=
      selectRecentUserTurns env.approxTokenCount compacted request.preserveRecentUserTokens
    let delegationResults :=
      selectRecentDelegationResults compacted request.preserveRecentDelegationResults
    let extracted := extractContext env compacted
    let summary :=
      { summary with
        filesTouched := accumulateFiles (carriedFiles items) extracted.filesTouched }
    let entries := replacement env request summary
    pure <| some
      { mode
        transcriptPath
        transcript := AgentTranscript.new entries
        summary
        providerUsage
        replacedItems := compacted.length
        preservedItems := items.length - tailStart items
        preservedUserTurns := userTurns.length
        preservedDelegationResults := delegationResults.length
        diagnostics :=
          { itemsBefore := items.length
            itemsAfter := entries.length
            approxTokensBefore := approxTokenCountItems env items
            approxTokensAfter := approxTokenCountItems env entries
            preservedUserTurns := userTurns.length
            preservedDelegationResults := delegationResults.length
            extractedFactsCount := extracted.filesTouched.length +
              extracted.verificationOutcomes.length + extracted.permissionDecisions.length
            summaryPreview := String.ofList (summary.renderForHandoff.toList.take 200) } }

/-- What a compaction that produced something is made of. -/
theorem compact_outcome {env : CompactionEnv V} {request : CompactionRequest V}
    {outcome : CompactionOutcome V} (compacted : compact env request = .ok (some outcome)) :
    compactedItems request.transcript.items ≠ [] ∧
      outcome.transcript = AgentTranscript.new (replacement env request outcome.summary) ∧
      outcome.summary.filesTouched =
        accumulateFiles (carriedFiles request.transcript.items)
          (extractContext env (compactedItems request.transcript.items)).filesTouched ∧
      outcome.replacedItems = (compactedItems request.transcript.items).length ∧
      outcome.preservedItems =
        request.transcript.items.length - tailStart request.transcript.items := by
  simp only [compact] at compacted
  split at compacted
  · cases compacted
  · rename_i nonempty
    obtain ⟨checked, -, compacted⟩ := bind_eq_ok_iff.mp compacted
    obtain ⟨path, -, compacted⟩ := bind_eq_ok_iff.mp compacted
    obtain ⟨⟨mode, summary, usage⟩, -, compacted⟩ := bind_eq_ok_iff.mp compacted
    cases compacted
    exact ⟨by simpa using nonempty, rfl, rfl, rfl, rfl⟩

/-- A compaction that produced something replaced a nonempty part of the path,
and its transcript is the linked replacement. -/
theorem compact_eq_some {env : CompactionEnv V} {request : CompactionRequest V}
    {outcome : CompactionOutcome V} (compacted : compact env request = .ok (some outcome)) :
    compactedItems request.transcript.items ≠ [] ∧
      outcome.transcript = AgentTranscript.new (replacement env request outcome.summary) :=
  ⟨(compact_outcome compacted).1, (compact_outcome compacted).2.1⟩

end Engine

/-- An environment in which every call succeeds and the summarizer answers with
nothing; the summary entry gets the given id. -/
def quietEnv (summaryId : EntryId) : CompactionEnv V where
  approxTokenCount := String.length
  fileCaptures _ := []
  isVerification _ := false
  isPermission _ := false
  boundsCheck := .ok ()
  persistTranscript _ := .ok "snapshot.jsonl"
  supportsHistoryCompaction := false
  send _ := .ok ([], none)
  compact _ := .ok ([], none)
  parseSummary _ := none
  summaryId

end Compaction

end Mentra
